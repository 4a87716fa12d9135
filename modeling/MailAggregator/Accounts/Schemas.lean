import MailAggregator.Accounts.Service

set_option relaxedAutoImplicit false
set_option autoImplicit false

/-!
# The request schemas of the mailbox update

What a body must look like to be accepted, and what its validators make of it: absence sentinels of
the SMTP credentials are dropped, and the activation switch is inferred from the presence of a key.

## Main definitions

* `MailAggregator.Credentials.normalizeOptionalLogin`, `Credentials.normalizeOptionalSecret`.
* `MailAggregator.AccountFields` — the fields that the two update schemas share.
* `MailAggregator.ExternalMailboxUpdateBody`, `MailAggregator.ExternalMailboxUpdateRequest`.
* `MailAggregator.MailAccountUpdateRequest` — the request that the account service takes.
* `MailAggregator.MailAccountTestRequest` — a full set of credentials to be probed.

## Design

A field of a body that is `null` or missing is `none`. The requests carry the bounds that their
schema has checked.
-/

namespace MailAggregator

open PyText

/-! ## Optional credentials -/

namespace Credentials

/-- `_ABSENCE_SENTINELS`. -/
def absenceSentinels : List Text := ["none", "null", "undefined"].map String.toList

/-- `_is_absent`. -/
def IsAbsent (value : Text) : Prop :=
  strip value = [] ∨ lower (strip value) ∈ absenceSentinels

instance (value : Text) : Decidable (IsAbsent value) :=
  inferInstanceAs (Decidable (_ ∨ _))

/-- `normalize_optional_login`: an absent value is dropped, another one is trimmed. -/
def normalizeOptionalLogin (value : Option Text) : Option Text :=
  value.bind fun v => if IsAbsent v then none else some (strip v)

/-- `normalize_optional_secret`: an absent value is dropped, another one is left as it is. -/
def normalizeOptionalSecret (value : Option Text) : Option Text :=
  value.bind fun v => if IsAbsent v then none else some v

@[simp] theorem isAbsent_strip (value : Text) : IsAbsent (strip value) ↔ IsAbsent value := by
  simp only [IsAbsent, strip_strip]

/-- A login is normalized once. -/
@[simp] theorem normalizeOptionalLogin_idem (value : Option Text) :
    normalizeOptionalLogin (normalizeOptionalLogin value) = normalizeOptionalLogin value := by
  cases value with
  | none => rfl
  | some v =>
    by_cases hv : IsAbsent v
    · simp [normalizeOptionalLogin, hv]
    · simp [normalizeOptionalLogin, hv]

/-- A secret is normalized once. -/
@[simp] theorem normalizeOptionalSecret_idem (value : Option Text) :
    normalizeOptionalSecret (normalizeOptionalSecret value) = normalizeOptionalSecret value := by
  cases value with
  | none => rfl
  | some v =>
    by_cases hv : IsAbsent v
    · simp [normalizeOptionalSecret, hv]
    · simp [normalizeOptionalSecret, hv]

end Credentials

open Credentials

/-! ## The fields of an update -/

/-- `Field(max_length=n)` of an optional text. -/
def AtMost (n : ℕ) (value : Option Text) : Prop := ∀ t ∈ value, t.length ≤ n

instance (n : ℕ) (value : Option Text) : Decidable (AtMost n value) :=
  inferInstanceAs (Decidable (∀ t ∈ value, t.length ≤ n))

/-- `Field(ge=1, le=65535)` of an optional port. -/
def PortOk (value : Option ℕ) : Prop := ∀ p ∈ value, 1 ≤ p ∧ p ≤ 65535

instance (value : Option ℕ) : Decidable (PortOk value) :=
  inferInstanceAs (Decidable (∀ p ∈ value, 1 ≤ p ∧ p ≤ 65535))

/-- The fields that `ExternalMailboxUpdateRequest` and `MailAccountUpdateRequest` share. -/
structure AccountFields where
  email : Option Text := none
  password : Option Text := none
  displayName : Option Text := none
  imapHost : Option Text := none
  imapPort : Option ℕ := none
  imapSsl : Option Bool := none
  smtpHost : Option Text := none
  smtpPort : Option ℕ := none
  smtpSsl : Option Bool := none
  smtpStarttls : Option Bool := none
  smtpUsername : Option Text := none
  smtpPassword : Option Text := none
  deriving DecidableEq, Repr

/-- The bounds of the fields, which are the same in both schemas. -/
def AccountFields.InBounds (f : AccountFields) : Prop :=
  AtMost 254 f.email ∧ AtMost 256 f.password ∧ AtMost 100 f.displayName ∧ AtMost 253 f.imapHost ∧
    PortOk f.imapPort ∧ AtMost 253 f.smtpHost ∧ PortOk f.smtpPort ∧ AtMost 254 f.smtpUsername ∧
    AtMost 256 f.smtpPassword

instance (f : AccountFields) : Decidable f.InBounds :=
  inferInstanceAs (Decidable (_ ∧ _ ∧ _ ∧ _ ∧ _ ∧ _ ∧ _ ∧ _ ∧ _))

/-- The validators of `OptionalSmtpCredsMixin`. -/
def AccountFields.scrub (f : AccountFields) : AccountFields :=
  { f with
    smtpUsername := normalizeOptionalLogin f.smtpUsername
    smtpPassword := normalizeOptionalSecret f.smtpPassword }

/-- What is left of a login within the bound is within it. -/
theorem AtMost.normalizeOptionalLogin {n : ℕ} {value : Option Text} (h : AtMost n value) :
    AtMost n (normalizeOptionalLogin value) := by
  intro t ht
  obtain ⟨v, hv, hite⟩ := Option.mem_bind_iff.mp ht
  split_ifs at hite
  · cases hite
  · obtain rfl := Option.some.inj hite
    exact (length_strip_le v).trans (h v hv)

/-- What is left of a secret within the bound is within it. -/
theorem AtMost.normalizeOptionalSecret {n : ℕ} {value : Option Text} (h : AtMost n value) :
    AtMost n (normalizeOptionalSecret value) := by
  intro t ht
  obtain ⟨v, hv, hite⟩ := Option.mem_bind_iff.mp ht
  split_ifs at hite
  · cases hite
  · obtain rfl := Option.some.inj hite
    exact h v hv

/-- The validators keep the fields within their bounds. -/
theorem AccountFields.InBounds.scrub {f : AccountFields} (h : f.InBounds) : f.scrub.InBounds := by
  obtain ⟨hemail, hpassword, hname, himap, himapPort, hsmtp, hsmtpPort, huser, hsecret⟩ := h
  exact ⟨hemail, hpassword, hname, himap, himapPort, hsmtp, hsmtpPort,
    huser.normalizeOptionalLogin, hsecret.normalizeOptionalSecret⟩

/-- `has_account_fields`. -/
def AccountFields.HasAccountFields (f : AccountFields) : Prop :=
  f.email ≠ none ∨ f.password ≠ none ∨ f.displayName ≠ none ∨ f.imapHost ≠ none ∨
    f.imapPort ≠ none ∨ f.imapSsl ≠ none ∨ f.smtpHost ≠ none ∨ f.smtpPort ≠ none ∨
    f.smtpSsl ≠ none ∨ f.smtpStarttls ≠ none ∨ f.smtpUsername ≠ none ∨ f.smtpPassword ≠ none

instance (f : AccountFields) : Decidable f.HasAccountFields :=
  inferInstanceAs (Decidable (_ ∨ _ ∨ _ ∨ _ ∨ _ ∨ _ ∨ _ ∨ _ ∨ _ ∨ _ ∨ _ ∨ _))

/-! ## The external update -/

/-- A JSON body of `PATCH /api/external/mailboxes/{id}`. The key `is_active` may be missing, `null`
or a boolean. -/
structure ExternalMailboxUpdateBody extends AccountFields where
  isActive : Option (Option Bool) := none
  setIsActive : Option Bool := none
  deriving DecidableEq, Repr

/-- `ExternalMailboxUpdateRequest`. -/
structure ExternalMailboxUpdateRequest extends AccountFields where
  isActive : Option Bool
  setIsActive : Bool
  inBounds : toAccountFields.InBounds

/-- The validation of a body; `_presence` infers `set_is_active` from the key `is_active`. -/
def ExternalMailboxUpdateRequest.modelValidate (body : ExternalMailboxUpdateBody) :
    Option ExternalMailboxUpdateRequest :=
  if h : body.toAccountFields.InBounds then
    some
      { body.toAccountFields.scrub with
        isActive := body.isActive.join
        setIsActive := body.setIsActive.getD body.isActive.isSome
        inBounds := h.scrub }
  else none

/-- What an accepted body is validated to. -/
theorem ExternalMailboxUpdateRequest.modelValidate_eq_some {body : ExternalMailboxUpdateBody}
    {payload : ExternalMailboxUpdateRequest} (h : modelValidate body = some payload) :
    payload.toAccountFields = body.toAccountFields.scrub ∧ payload.isActive = body.isActive.join ∧
      payload.setIsActive = body.setIsActive.getD body.isActive.isSome := by
  unfold modelValidate at h
  split_ifs at h
  obtain rfl := Option.some.inj h
  exact ⟨rfl, rfl, rfl⟩

/-! ## The update of the account service -/

/-- `value or None`, of a stripped text. -/
def trimDisplayName (displayName : Option Text) : Option Text :=
  displayName.bind fun v => if strip v = [] then none else some (strip v)

/-- `MailAccountUpdateRequest`. -/
structure MailAccountUpdateRequest extends AccountFields where
  clearDisplayName : Bool := false
  inBounds : toAccountFields.InBounds
  displayName_ne_nil : ∀ t ∈ toAccountFields.displayName, t ≠ []

/-- A trimmed display name is not empty, and within its bound. -/
theorem AtMost.trimDisplayName {n : ℕ} {value : Option Text} (h : AtMost n value) :
    ∀ t ∈ trimDisplayName value, t ≠ [] ∧ t.length ≤ n := by
  intro t ht
  obtain ⟨v, hv, hite⟩ := Option.mem_bind_iff.mp ht
  split_ifs at hite with hempty
  · cases hite
  · obtain rfl := Option.some.inj hite
    exact ⟨hempty, (length_strip_le v).trans (h v hv)⟩

/-- The request that the external update hands on: its own fields, validated again. -/
def MailAccountUpdateRequest.ofExternal (payload : ExternalMailboxUpdateRequest) :
    MailAccountUpdateRequest :=
  { payload.toAccountFields.scrub with
    displayName := trimDisplayName payload.displayName
    inBounds := by
      obtain ⟨hemail, hpassword, hname, hrest⟩ := payload.inBounds.scrub
      exact ⟨hemail, hpassword, fun t ht => (AtMost.trimDisplayName hname t ht).2, hrest⟩
    displayName_ne_nil := fun t ht => (AtMost.trimDisplayName payload.inBounds.2.2.1 t ht).1 }

/-! ## The probe -/

/-- `MailAccountTestRequest`, with a full set of credentials and no `account_id`. -/
structure MailAccountTestRequest where
  email : Text
  password : Text
  imapHost : Text
  imapPort : ℕ
  imapSsl : Bool
  smtpHost : Text
  smtpPort : ℕ
  smtpSsl : Bool
  smtpStarttls : Bool
  smtpUsername : Option Text
  smtpPassword : Option Text
  deriving DecidableEq, Repr

/-- The shape of an address: a local part, and a domain with a dot inside and no empty label at its
ends or between two dots. -/
def IsAddress (email : Text) : Prop :=
  let localPart := email.takeWhile (· ≠ '@')
  let domain := (email.dropWhile (· ≠ '@')).drop 1
  '@' ∈ email ∧ '.' ∈ domain ∧ localPart ≠ [] ∧ domain.head? ≠ some '.' ∧
    domain.getLast? ≠ some '.' ∧ ¬ Contains ['.', '.'] domain

instance (email : Text) : Decidable (IsAddress email) :=
  inferInstanceAs (Decidable (_ ∧ _ ∧ _ ∧ _ ∧ _ ∧ _))

/-- What the schema accepts. -/
def MailAccountTestRequest.Accepted (r : MailAccountTestRequest) : Prop :=
  (3 ≤ r.email.length ∧ r.email.length ≤ 254) ∧
    (1 ≤ r.password.length ∧ r.password.length ≤ 256) ∧
    (1 ≤ r.imapHost.length ∧ r.imapHost.length ≤ 253) ∧ PortOk (some r.imapPort) ∧
    (1 ≤ r.smtpHost.length ∧ r.smtpHost.length ≤ 253) ∧ PortOk (some r.smtpPort) ∧
    AtMost 254 r.smtpUsername ∧ AtMost 256 r.smtpPassword ∧ ¬ (r.smtpSsl ∧ r.smtpStarttls) ∧
    IsAddress r.email

instance (r : MailAccountTestRequest) : Decidable r.Accepted :=
  inferInstanceAs (Decidable (_ ∧ _ ∧ _ ∧ _ ∧ _ ∧ _ ∧ _ ∧ _ ∧ _ ∧ _))

/-- The request after the validators of its SMTP credentials. -/
def MailAccountTestRequest.scrub (r : MailAccountTestRequest) : MailAccountTestRequest :=
  { r with
    smtpUsername := normalizeOptionalLogin r.smtpUsername
    smtpPassword := normalizeOptionalSecret r.smtpPassword }

/-- The validators keep an accepted request accepted. -/
theorem MailAccountTestRequest.Accepted.scrub {r : MailAccountTestRequest} (h : r.Accepted) :
    r.scrub.Accepted := by
  obtain ⟨hemail, hpassword, himap, himapPort, hsmtp, hsmtpPort, huser, hsecret, hrest⟩ := h
  exact ⟨hemail, hpassword, himap, himapPort, hsmtp, hsmtpPort, huser.normalizeOptionalLogin,
    hsecret.normalizeOptionalSecret, hrest⟩

end MailAggregator
