import MailAggregator.Accounts.Update

set_option relaxedAutoImplicit false
set_option autoImplicit false

/-!
# Which columns a mailbox update changes

A request names columns by the fields of its body that are not null. Besides them, an update may
write the columns of the reset, if credentials were validated or the mailbox was activated, the time
of the update, and a login that stands for a missing one.

## Main definitions

* `MailAggregator.ExternalMailboxService.Frame` — only the allowed columns differ.
* `MailAggregator.ExternalMailboxService.SwitchNamed`,
  `MailAggregator.ExternalMailboxService.LoginTrimmed` — the conditions on a request and a row.

## Main results

* `MailAggregator.ExternalMailboxService.update_frame_iff` — when only the allowed columns differ.
* `MailAggregator.ExternalMailboxService.update_unframed` — a `null` that deactivates a mailbox.
-/

namespace MailAggregator

open PyText Credentials MailAccountsRepo MailAccountService

namespace MailAccountService

/-! ## The columns of a write -/

/-- The writes of `update` without the reset. -/
def fieldWrites (payload : MailAccountUpdateRequest) (acc : MailAccount) (now : Instant)
    (a : MailAccount) : MailAccount :=
  match acc.authType with
  | .oauthOutlook => accountWrites payload acc now a
  | .password => updateSettings (resolve payload acc) now a

/-- An OAuth account gets a new name, or nothing. -/
theorem accountWrites_oauth (payload : MailAccountUpdateRequest) {acc : MailAccount}
    (h : acc.authType = .oauthOutlook) (now : Instant) (a : MailAccount) :
    accountWrites payload acc now a = a ∨
      ∃ displayName, (resolve payload acc).displayName = some displayName ∧
        accountWrites payload acc now a = { a with displayName, updatedAt := now } := by
  simp only [accountWrites, h]
  split
  · exact Or.inl rfl
  · next displayName hname => exact Or.inr ⟨displayName, hname, rfl⟩

/-- New credentials of a password account reset the sync status on top of the fields. -/
theorem accountWrites_eq (payload : MailAccountUpdateRequest) (acc : MailAccount) (now : Instant)
    (a : MailAccount) :
    accountWrites payload acc now a =
      if acc.authType = .password ∧ CredsChanged payload then
        setActive true now (fieldWrites payload acc now a)
      else fieldWrites payload acc now a := by
  cases hauth : acc.authType with
  | oauthOutlook => simp [fieldWrites, hauth]
  | password =>
    simp only [accountWrites, fieldWrites, hauth, passwordWrites, updateCredentials_eq, true_and]

/-- The switch writes the flag, the columns of the reset and the time of the update. -/
theorem setActive_eq (isActive : Bool) (now : Instant) (a : MailAccount) :
    setActive isActive now a =
      { a with
        isActive
        lastSyncError := if isActive then none else a.lastSyncError
        consecutiveFailures := if isActive then 0 else a.consecutiveFailures
        disabledAlertSentAt := if isActive then none else a.disabledAlertSentAt
        updatedAt := now } := by
  cases isActive <;> rfl

/-- A text that is not submitted is kept. -/
theorem orStored_eq_or (value : Option Text) (stored : Text) :
    orStored value stored = stored ∨ value ≠ none := by
  cases value with
  | none => exact Or.inl rfl
  | some v => exact Or.inr (by simp)

/-- A value that is not submitted is kept. -/
theorem getD_eq_or {α : Type*} (value : Option α) (stored : α) :
    value.getD stored = stored ∨ value ≠ none := by
  cases value with
  | none => exact Or.inl rfl
  | some v => exact Or.inr (by simp)

/-- A secret that is not submitted is kept. -/
theorem sealed_eq_or (secret : Option Text) (accountId : ℕ) (stored : Option Blob) :
    (sealed secret accountId <|> stored) = stored ∨ secret ≠ none := by
  cases secret with
  | none => exact Or.inl rfl
  | some s => exact Or.inr (by simp)

end MailAccountService

namespace ExternalMailboxService

section Frame

variable (body : ExternalMailboxUpdateBody) (payload : ExternalMailboxUpdateRequest)
  (before after : MailAccount)

/-- Credentials are validated again. -/
def Revalidated : Prop := CredsChanged (.ofExternal payload)

instance : Decidable (Revalidated payload) :=
  inferInstanceAs (Decidable (CredsChanged _))

/-- The reset is documented: credentials are validated again, or the mailbox is activated. -/
def Reset : Prop := Revalidated payload ∨ (payload.setIsActive ∧ payload.isActive = some true)

instance : Decidable (Reset payload) :=
  inferInstanceAs (Decidable (_ ∨ _))

/-- The columns that no request writes. -/
def unwritten (a : MailAccount) :=
  (a.id, a.userId, a.authType, a.oauthProvider, a.oauthRefreshTokenEncrypted,
    a.oauthAccessTokenEncrypted, a.oauthAccessTokenExpiresAt, a.oauthNeedsConsent, a.oauthScopes,
    a.lastSyncedUidnext, a.lastUidvalidity, a.lastSyncedAt, a.createdAt)

/-- **Only the allowed columns differ**: those that the body names, those of a documented reset, the
time of the update, and a login that is an absence sentinel. -/
structure Frame : Prop where
  unwritten : unwritten after = unwritten before
  email : after.email = before.email ∨ body.email ≠ none
  encryptedPassword : after.encryptedPassword = before.encryptedPassword ∨ body.password ≠ none
  displayName : after.displayName = before.displayName ∨ body.displayName ≠ none
  imapHost : after.imapHost = before.imapHost ∨ body.imapHost ≠ none
  imapPort : after.imapPort = before.imapPort ∨ body.imapPort ≠ none
  imapSsl : after.imapSsl = before.imapSsl ∨ body.imapSsl ≠ none
  smtpHost : after.smtpHost = before.smtpHost ∨ body.smtpHost ≠ none
  smtpPort : after.smtpPort = before.smtpPort ∨ body.smtpPort ≠ none
  smtpSsl : after.smtpSsl = before.smtpSsl ∨ body.smtpSsl ≠ none
  smtpStarttls : after.smtpStarttls = before.smtpStarttls ∨ body.smtpStarttls ≠ none
  smtpUsername : after.smtpUsername = before.smtpUsername ∨ body.smtpUsername ≠ none ∨
    ∃ v, before.smtpUsername = some v ∧ IsAbsent v
  smtpEncryptedPassword :
    after.smtpEncryptedPassword = before.smtpEncryptedPassword ∨ body.smtpPassword ≠ none
  isActive : after.isActive = before.isActive ∨ body.isActive.join ≠ none ∨ Revalidated payload
  lastSyncError : after.lastSyncError = before.lastSyncError ∨ Reset payload
  consecutiveFailures : after.consecutiveFailures = before.consecutiveFailures ∨ Reset payload
  disabledAlertSentAt : after.disabledAlertSentAt = before.disabledAlertSentAt ∨ Reset payload

/-- **The condition on the switch.** If the switch is thrown, the body has a boolean for it, or
credentials are validated again, or the mailbox is inactive already. -/
def SwitchNamed : Prop :=
  payload.setIsActive → payload.isActive ≠ none ∨ Revalidated payload ∨ before.isActive = false

/-- **The condition on the login.** If the account fields of a password account are updated, the
body names a login, or the stored one is an absence sentinel or without surrounding whitespace. -/
def LoginTrimmed : Prop :=
  payload.HasAccountFields → before.authType = .password →
    body.smtpUsername ≠ none ∨ ∀ v ∈ before.smtpUsername, IsAbsent v ∨ strip v = v

end Frame

section Columns

variable {env : Env} {payload : ExternalMailboxUpdateRequest} {before : MailAccount}

/-- The row after the account fields, without the reset. -/
def fieldsOf (env : Env) (payload : ExternalMailboxUpdateRequest) (before : MailAccount) :
    MailAccount :=
  if payload.HasAccountFields then fieldWrites (.ofExternal payload) before env.now before
  else before

/-- A column that the switch does not write has the value that the account fields give it. -/
theorem rowWrites_get {β : Type*} (get : MailAccount → β)
    (hget : ∀ b now a, get (setActive b now a) = get a) (acc a : MailAccount) :
    get (rowWrites env payload acc a) =
      get (if payload.HasAccountFields then fieldWrites (.ofExternal payload) acc env.now a
        else a) := by
  simp only [rowWrites, accountWrites_eq]
  split_ifs <;> simp only [hget]

/-- A column that the switch does not write, of the row that is read. -/
theorem rowWrites_column {β : Type*} (get : MailAccount → β)
    (hget : ∀ b now a, get (setActive b now a) = get a) :
    get (rowWrites env payload before before) = get (fieldsOf env payload before) :=
  rowWrites_get get hget before before

/-- A column that the account fields of a password account keep is kept. -/
theorem fieldsOf_column {β : Type*} (get : MailAccount → β)
    (hname : ∀ a displayName now, get { a with displayName, updatedAt := now } = get a)
    (hvalue : get (updateSettings (resolve (.ofExternal payload) before) env.now before) =
      get before) :
    get (fieldsOf env payload before) = get before := by
  unfold fieldsOf
  split_ifs
  · cases hauth : before.authType with
    | oauthOutlook =>
      have hfields : fieldWrites (.ofExternal payload) before env.now before =
          accountWrites (.ofExternal payload) before env.now before := by
        rw [fieldWrites, hauth]
      rw [hfields]
      rcases accountWrites_oauth (.ofExternal payload) hauth env.now before with
        hsame | ⟨_, -, hwritten⟩
      · rw [hsame]
      · rw [hwritten]
        exact hname _ _ _
    | password =>
      rw [fieldWrites, hauth]
      exact hvalue
  · rfl

/-- No update writes the columns that a sync writes, or the id. -/
theorem unwritten_rowWrites :
    unwritten (rowWrites env payload before before) = unwritten before := by
  rw [rowWrites_column unwritten (fun b _ _ => by cases b <;> rfl)]
  exact fieldsOf_column unwritten (fun _ _ _ => rfl) rfl

/-- A column that neither the switch nor the name of an OAuth account writes, and that is kept
unless the body names it. -/
theorem rowWrites_column_or {β : Type*} {named : Prop} (get : MailAccount → β)
    (hget : ∀ b now a, get (setActive b now a) = get a)
    (hname : ∀ a displayName now, get { a with displayName, updatedAt := now } = get a)
    (hvalue : get (updateSettings (resolve (.ofExternal payload) before) env.now before) =
      get before ∨ named) :
    get (rowWrites env payload before before) = get before ∨ named := by
  rw [rowWrites_column get hget]
  exact hvalue.imp_left (fieldsOf_column get hname)

/-- The flag after a request. -/
theorem rowWrites_isActive :
    (rowWrites env payload before before).isActive =
      if payload.setIsActive then payload.isActive.getD false
      else if payload.HasAccountFields ∧ before.authType = .password ∧ Revalidated payload then true
      else before.isActive := by
  have hkept : (fieldsOf env payload before).isActive = before.isActive :=
    fieldsOf_column MailAccount.isActive (fun _ _ _ => rfl) rfl
  rw [← hkept]
  simp only [rowWrites, fieldsOf, accountWrites_eq, Revalidated, setActive_eq]
  split_ifs <;> simp_all

/-- A column of the reset is kept without a reset.

**Proof sketch.** Without a reset there are no new credentials of a password account and the flag is
not set, so that what is left is the settings or the name, and perhaps the clearing of the flag. By
the hypotheses none of these changes the column. -/
theorem rowWrites_reset {β : Type*} (get : MailAccount → β)
    (hget : ∀ now a, get (setActive false now a) = get a)
    (hname : ∀ a displayName now, get { a with displayName, updatedAt := now } = get a)
    (hvalue : get (updateSettings (resolve (.ofExternal payload) before) env.now before) =
      get before) :
    get (rowWrites env payload before before) = get before ∨ Reset payload := by
  by_cases hreset : Reset payload
  · exact Or.inr hreset
  · refine Or.inl ?_
    rw [Reset, not_or, not_and] at hreset
    have hcreds : ¬ (before.authType = .password ∧ CredsChanged (.ofExternal payload)) :=
      fun h => hreset.1 h.2
    have hfields : (if payload.HasAccountFields then
        accountWrites (.ofExternal payload) before env.now before else before) =
        fieldsOf env payload before := by
      rw [accountWrites_eq, if_neg hcreds, fieldsOf]
    have hkept : get (fieldsOf env payload before) = get before :=
      fieldsOf_column get hname hvalue
    rw [← hkept]
    simp only [rowWrites, hfields]
    split_ifs with hswitch
    · have hfalse : payload.isActive.getD false = false := by
        cases hflag : payload.isActive with
        | none => rfl
        | some b =>
          cases b with
          | false => rfl
          | true => exact absurd hflag (hreset.2 hswitch)
      rw [hfalse, hget]
    · rfl

end Columns

/-! ## The frame -/

section Iff

variable {env : Env} {body : ExternalMailboxUpdateBody} {payload : ExternalMailboxUpdateRequest}
  {before : MailAccount}

/-- The login after a request that does not name one. -/
theorem rowWrites_smtpUsername (hnone : payload.smtpUsername = none) :
    (rowWrites env payload before before).smtpUsername =
      if payload.HasAccountFields ∧ before.authType = .password then
        normalizeOptionalLogin before.smtpUsername
      else before.smtpUsername := by
  have hnone' : (MailAccountUpdateRequest.ofExternal payload).smtpUsername = none := by
    simp [MailAccountUpdateRequest.ofExternal, AccountFields.scrub, hnone, normalizeOptionalLogin]
  rw [rowWrites_column MailAccount.smtpUsername (fun b _ _ => by cases b <;> rfl)]
  by_cases hhas : payload.HasAccountFields
  · simp only [fieldsOf, hhas, if_true, true_and]
    cases hauth : before.authType with
    | oauthOutlook =>
      rw [fieldWrites, hauth]
      rcases accountWrites_oauth (.ofExternal payload) hauth env.now before with
        hsame | ⟨_, -, hwritten⟩
      · simp [hsame]
      · simp [hwritten]
    | password =>
      rw [fieldWrites, hauth]
      simp [updateSettings, resolve, hnone']
  · simp [fieldsOf, hhas]

/-- A request that names no display name keeps the stored one. -/
theorem rowWrites_displayName (hnone : payload.displayName = none) :
    (rowWrites env payload before before).displayName = before.displayName := by
  have hresolved : (resolve (.ofExternal payload) before).displayName = none := by
    simp [resolve, MailAccountUpdateRequest.ofExternal, trimDisplayName, hnone]
  rw [rowWrites_column MailAccount.displayName (fun b _ _ => by cases b <;> rfl), fieldsOf]
  split_ifs
  · cases hauth : before.authType with
    | oauthOutlook =>
      rw [fieldWrites, hauth]
      rcases accountWrites_oauth (.ofExternal payload) hauth env.now before with
        hsame | ⟨_, hname, -⟩
      · simp [hsame]
      · rw [hresolved] at hname
        cases hname
    | password =>
      rw [fieldWrites, hauth]
      simp [updateSettings, hresolved]
  · rfl

/-- The login is one that the frame allows exactly when the condition on it holds. -/
theorem login_framed_iff (husername : payload.smtpUsername =
      normalizeOptionalLogin body.smtpUsername) :
    ((rowWrites env payload before before).smtpUsername = before.smtpUsername ∨
        body.smtpUsername ≠ none ∨ ∃ v, before.smtpUsername = some v ∧ IsAbsent v) ↔
      LoginTrimmed body payload before := by
  by_cases hbody : body.smtpUsername = none
  · have hnone : payload.smtpUsername = none := by
      rw [husername, hbody]
      rfl
    rw [rowWrites_smtpUsername hnone, LoginTrimmed]
    by_cases hwritten : payload.HasAccountFields ∧ before.authType = .password
    · simp only [hwritten.1, hwritten.2, hbody, ne_eq, not_true_eq_false,
        false_or, true_imp_iff]
      cases hstored : before.smtpUsername with
      | none => simp [normalizeOptionalLogin]
      | some v =>
        by_cases habsent : IsAbsent v
        · simp [habsent]
        · simp [normalizeOptionalLogin, habsent]
    · simp only [if_neg hwritten, true_or, true_iff]
      exact fun hhas hauth => absurd ⟨hhas, hauth⟩ hwritten
  · simp [LoginTrimmed, hbody]

/-- The flag is one that the frame allows exactly when the condition on the switch holds. -/
theorem switch_framed_iff (hflag : payload.isActive = body.isActive.join) :
    ((rowWrites env payload before before).isActive = before.isActive ∨
        body.isActive.join ≠ none ∨ Revalidated payload) ↔ SwitchNamed payload before := by
  rw [← hflag, SwitchNamed]
  by_cases hnamed : payload.isActive = none
  · by_cases hcreds : Revalidated payload
    · simp [hcreds]
    · simp only [rowWrites_isActive, hnamed, hcreds, and_false, if_false, ne_eq, not_true_eq_false,
        or_false, false_or, Option.getD_none]
      by_cases hswitch : payload.setIsActive
      · simp only [hswitch, if_true, true_imp_iff]
        exact eq_comm
      · simp [hswitch]
  · simp [hnamed]

/-- **When only the allowed columns differ.** After a successful update the frame holds exactly when
the switch and the login meet their conditions.

**Proof sketch.** The columns of the frame are written by the account fields, by the switch, or by
both. A column that only the account fields write keeps its value unless the body names it; a column
of the reset keeps its value without a reset. The conditions are what is left for the flag and the
login. -/
theorem update_frame_iff {accounts accounts' : List MailAccount} {accountId : ℕ}
    {after : MailAccount} (hbody : ExternalMailboxUpdateRequest.modelValidate body = some payload)
    (hbefore : getById accounts accountId = some before)
    (h : update env accounts accountId payload = .ok (accounts', after)) :
    Frame body payload before after ↔
      SwitchNamed payload before ∧ LoginTrimmed body payload before := by
  obtain ⟨hfields, hflag, -⟩ := ExternalMailboxUpdateRequest.modelValidate_eq_some hbody
  obtain ⟨before', hbefore', -, -, rfl⟩ := update_eq_ok h
  obtain rfl := Option.some.inj (hbefore.symm.trans hbefore')
  have husername : payload.smtpUsername = normalizeOptionalLogin body.smtpUsername := by
    rw [hfields]
    rfl
  obtain ⟨fields, flag, switch, bounds⟩ := payload
  obtain rfl : fields = body.toAccountFields.scrub := hfields
  set payload : ExternalMailboxUpdateRequest :=
    ⟨body.toAccountFields.scrub, flag, switch, bounds⟩ with hpayload
  -- the columns of the account fields
  have column {β : Type} {named : Prop} (get : MailAccount → β)
      (hvalue : get (updateSettings (resolve (.ofExternal payload) before) env.now before) =
        get before ∨ named)
      (hget : ∀ b now a, get (setActive b now a) = get a := by
        exact fun b _ _ => by cases b <;> rfl)
      (hname : ∀ a displayName now, get { a with displayName, updatedAt := now } = get a := by
        exact fun _ _ _ => rfl) :
      get (rowWrites env payload before before) = get before ∨ named :=
    rowWrites_column_or get hget hname hvalue
  constructor
  · intro hframe
    exact ⟨(switch_framed_iff hflag).mp hframe.isActive,
      (login_framed_iff husername).mp hframe.smtpUsername⟩
  · rintro ⟨hnamed, htrimmed⟩
    constructor
    case isActive => exact (switch_framed_iff hflag).mpr hnamed
    case smtpUsername => exact (login_framed_iff husername).mpr htrimmed
    case unwritten => exact unwritten_rowWrites
    case email => exact column MailAccount.email (orStored_eq_or body.email before.email)
    case imapHost =>
      exact column MailAccount.imapHost (orStored_eq_or body.imapHost before.imapHost)
    case imapPort => exact column MailAccount.imapPort (getD_eq_or body.imapPort before.imapPort)
    case imapSsl => exact column MailAccount.imapSsl (getD_eq_or body.imapSsl before.imapSsl)
    case smtpHost =>
      exact column MailAccount.smtpHost (orStored_eq_or body.smtpHost before.smtpHost)
    case smtpPort => exact column MailAccount.smtpPort (getD_eq_or body.smtpPort before.smtpPort)
    case smtpSsl => exact column MailAccount.smtpSsl (getD_eq_or body.smtpSsl before.smtpSsl)
    case smtpStarttls =>
      exact column MailAccount.smtpStarttls (getD_eq_or body.smtpStarttls before.smtpStarttls)
    case encryptedPassword =>
      exact column MailAccount.encryptedPassword (sealed_eq_or body.password before.id _)
    case smtpEncryptedPassword =>
      refine column MailAccount.smtpEncryptedPassword ?_
      by_cases hnone : body.smtpPassword = none
      · have hsecret : (normalizeOptionalSecret (normalizeOptionalSecret body.smtpPassword)) =
            none := by
          rw [hnone]
          rfl
        have hvalue := sealed_eq_or (normalizeOptionalSecret (normalizeOptionalSecret
          body.smtpPassword)) before.id before.smtpEncryptedPassword
        exact Or.inl (hvalue.resolve_right fun h => h hsecret)
      · exact Or.inr hnone
    case lastSyncError =>
      exact rowWrites_reset MailAccount.lastSyncError (fun _ _ => rfl) (fun _ _ _ => rfl) rfl
    case consecutiveFailures =>
      exact rowWrites_reset MailAccount.consecutiveFailures (fun _ _ => rfl) (fun _ _ _ => rfl) rfl
    case disabledAlertSentAt =>
      exact rowWrites_reset MailAccount.disabledAlertSentAt (fun _ _ => rfl) (fun _ _ _ => rfl) rfl
    case displayName =>
      by_cases hnone : body.displayName = none
      · exact Or.inl (rowWrites_displayName hnone)
      · exact Or.inr hnone

end Iff

/-! ## Requests -/

/-- Servers that accept every login. -/
def openServers : MailServers where
  resolve := fun _ => .publicAddresses
  imapLogin := fun _ _ _ _ _ => .ok
  smtpLogin := fun _ _ _ _ _ _ => .ok

/-- An environment with these servers. -/
def openEnv : Env where
  servers := openServers
  now := 1
  crmServiceUser := some 1

/-- An active mailbox. -/
def activeMailbox : MailAccount where
  id := 1
  userId := 1
  email := "a@example.com".toList
  encryptedPassword := some (encryptMailPassword "secret".toList 1)
  imapHost := "imap.example.com".toList
  smtpHost := "smtp.example.com".toList

/-- A new name changes nothing but the name. -/
theorem frame_displayName :
    ∃ payload accounts after,
      ExternalMailboxUpdateRequest.modelValidate { displayName := some "Sales".toList } =
          some payload ∧
        update openEnv [activeMailbox] 1 payload = .ok (accounts, after) ∧
        Frame { displayName := some "Sales".toList } payload activeMailbox after := by
  obtain ⟨payload, accounts, after, hbody, hrun, hswitch⟩ : ∃ payload accounts after,
      ExternalMailboxUpdateRequest.modelValidate { displayName := some "Sales".toList } =
          some payload ∧
        update openEnv [activeMailbox] 1 payload = .ok (accounts, after) ∧
        payload.setIsActive = false := ⟨_, _, _, rfl, rfl, rfl⟩
  refine ⟨payload, accounts, after, hbody, hrun, (update_frame_iff hbody rfl hrun).mpr ⟨?_, ?_⟩⟩
  · intro h
    rw [hswitch] at h
    cases h
  · intro _ _
    exact Or.inr fun v hv => by cases hv

/-- **A mailbox that a `null` deactivates**: the body sends `is_active: null` and nothing else. -/
theorem update_unframed :
    ¬ ∀ (env : Env) (body : ExternalMailboxUpdateBody) (payload : ExternalMailboxUpdateRequest)
      (accounts accounts' : List MailAccount) (accountId : ℕ) (before after : MailAccount),
      ExternalMailboxUpdateRequest.modelValidate body = some payload →
      getById accounts accountId = some before →
      update env accounts accountId payload = .ok (accounts', after) →
      Frame body payload before after := by
  intro h
  obtain ⟨payload, accounts, after, hbody, hrun, hflag, hcreds⟩ : ∃ payload accounts after,
      ExternalMailboxUpdateRequest.modelValidate { isActive := some none } = some payload ∧
        update openEnv [activeMailbox] 1 payload = .ok (accounts, after) ∧
        after.isActive = false ∧ ¬ Revalidated payload := ⟨_, _, _, rfl, rfl, rfl, by decide⟩
  have hframe := h openEnv { isActive := some none } payload [activeMailbox] accounts 1
    activeMailbox after hbody rfl hrun
  rcases hframe.isActive with hsame | hnamed | hvalidated
  · rw [hflag] at hsame
    cases hsame
  · exact hnamed rfl
  · exact hcreds hvalidated

end ExternalMailboxService

end MailAggregator
