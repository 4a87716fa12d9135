import MailAggregator.Accounts.Testers

set_option relaxedAutoImplicit false
set_option autoImplicit false

/-!
# The mailbox update

`ExternalMailboxService.update` over the table of accounts: the update of the account service, with
its probe and its writes, and the activation switch, in one transaction.

## Main definitions

* `MailAggregator.MailAccountsRepo.updateFields` — an `UPDATE` that the database may refuse.
* `MailAggregator.MailAccountService.resolve`, `MailAccountService.update`.
* `MailAggregator.ExternalMailboxService.update` — the service.
* `MailAggregator.ExternalMailboxService.patch` — the service in the transaction of the router.

## Main results

* `MailAggregator.MailAccountService.update_eq_ok`, `MailAccountService.setActiveOn_eq_ok`,
  `ExternalMailboxService.update_eq_ok` — what a successful call has written.
-/

namespace MailAggregator

open PyText Testers

/-! ## Writing rows -/

/-- Why the database refuses an `UPDATE`. -/
inductive DbRefusal where
  /-- A `text` value with a U+0000. -/
  | dataError
  /-- A `CHECK` or the `UNIQUE (user_id, email)`. -/
  | integrityError
  deriving DecidableEq, Repr

namespace MailAccountsRepo

/-- The `text` columns that an update of an account writes. -/
def updatedTexts (a : MailAccount) : List Text :=
  [a.email, a.imapHost, a.smtpHost] ++ a.displayName.toList ++ a.smtpUsername.toList

/-- The text columns hold no U+0000. -/
def TextsStorable (a : MailAccount) : Prop := ∀ t ∈ updatedTexts a, '\x00' ∉ t

/-- The `CHECK` constraints of `mail_accounts`. -/
def Checked (a : MailAccount) : Prop :=
  PortOk (some a.imapPort) ∧ PortOk (some a.smtpPort) ∧ ¬ (a.smtpSsl ∧ a.smtpStarttls) ∧
    (∀ t ∈ a.displayName, 1 ≤ t.length ∧ t.length ≤ 100) ∧
    (a.authType = .password → a.encryptedPassword ≠ none) ∧
    (a.authType = .oauthOutlook →
      a.oauthRefreshTokenEncrypted ≠ none ∧ a.oauthProvider = some "outlook".toList)

/-- Another row of the table has the owner and the address of `a`. -/
def AddressTaken (accounts : List MailAccount) (a : MailAccount) : Prop :=
  ∃ b ∈ accounts, b.id ≠ a.id ∧ b.userId = a.userId ∧ b.email = a.email

instance (a : MailAccount) : Decidable (TextsStorable a) :=
  inferInstanceAs (Decidable (∀ t ∈ updatedTexts a, '\x00' ∉ t))

instance (a : MailAccount) : Decidable (Checked a) :=
  inferInstanceAs (Decidable (_ ∧ _ ∧ _ ∧ (∀ t ∈ a.displayName, _) ∧ _ ∧ _))

instance (accounts : List MailAccount) (a : MailAccount) : Decidable (AddressTaken accounts a) :=
  inferInstanceAs (Decidable (∃ b ∈ accounts, _))

/-- `update_fields`: the table after it. -/
def updateFields (accounts : List MailAccount) (accountId : ℕ) (set : MailAccount → MailAccount) :
    Except DbRefusal (List MailAccount) :=
  match getById accounts accountId with
  | none => .ok accounts
  | some a =>
    if ¬ TextsStorable (set a) then .error .dataError
    else if ¬ Checked (set a) ∨ AddressTaken accounts (set a) then .error .integrityError
    else .ok (updateWhereId accounts accountId set)

/-- A table that meets the constraints of the schema. -/
structure Stored (accounts : List MailAccount) : Prop where
  ids : (accounts.map MailAccount.id).Nodup
  texts : ∀ a ∈ accounts, TextsStorable a
  checks : ∀ a ∈ accounts, Checked a
  unique : ∀ a ∈ accounts, ¬ AddressTaken accounts a

end MailAccountsRepo

open MailAccountsRepo

/-! ## The account service -/

/-- Why an update fails. Only the first kind is mapped to a documented response. -/
inductive UpdateError where
  | domainError (e : DomainError)
  /-- A `pydantic.ValidationError` of the probe request. -/
  | schemaError
  /-- A stored secret that does not open. -/
  | invalidTag
  /-- An `assert` on the stored password that fails. -/
  | assertionError
  | refused (e : DbRefusal)
  /-- An exception of the probe. -/
  | raised (e : Raised)
  deriving DecidableEq, Repr

/-- The exceptions that get out of a probe. -/
def UpdateError.ofRaised : Raised → UpdateError
  | .domainError e => .domainError e
  | e => .raised e

namespace MailAccountService

/-- `payload or stored`, of a text. -/
def orStored (value : Option Text) (stored : Text) : Text :=
  match value with
  | none | some [] => stored
  | some v => v

/-- `bool(payload.password)`. -/
def Submitted (secret : Option Text) : Prop := secret ≠ none ∧ secret ≠ some []

instance (secret : Option Text) : Decidable (Submitted secret) :=
  inferInstanceAs (Decidable (_ ∧ _))

/-- `creds_changed`. -/
def CredsChanged (payload : MailAccountUpdateRequest) : Prop :=
  Submitted payload.password ∨ Submitted payload.smtpPassword

instance (payload : MailAccountUpdateRequest) : Decidable (CredsChanged payload) :=
  inferInstanceAs (Decidable (_ ∨ _))

/-- `encrypt_mail_password` of a submitted secret. -/
def sealed (secret : Option Text) (accountId : ℕ) : Option Blob :=
  if Submitted secret then secret.map fun s => encryptMailPassword s accountId else none

/-- The values that `update` resolves for a password account from its payload and the row that it
has read. -/
def resolve (payload : MailAccountUpdateRequest) (acc : MailAccount) : UpdateValues where
  email := orStored payload.email acc.email
  imapHost := orStored payload.imapHost acc.imapHost
  imapPort := payload.imapPort.getD acc.imapPort
  imapSsl := payload.imapSsl.getD acc.imapSsl
  smtpHost := orStored payload.smtpHost acc.smtpHost
  smtpPort := payload.smtpPort.getD acc.smtpPort
  smtpSsl := payload.smtpSsl.getD acc.smtpSsl
  smtpStarttls := payload.smtpStarttls.getD acc.smtpStarttls
  smtpUsername :=
    match payload.smtpUsername with
    | some v => Credentials.normalizeOptionalLogin (some v)
    | none => Credentials.normalizeOptionalLogin acc.smtpUsername
  encryptedPassword := sealed payload.password acc.id
  smtpEncryptedPassword := sealed payload.smtpPassword acc.id
  displayName :=
    if payload.clearDisplayName then some none else payload.displayName.map some

/-- The writes of `update` for a password account without new credentials. -/
def updateSettings (v : UpdateValues) (now : Instant) (a : MailAccount) : MailAccount :=
  { a with
    email := v.email
    imapHost := v.imapHost
    imapPort := v.imapPort
    imapSsl := v.imapSsl
    smtpHost := v.smtpHost
    smtpPort := v.smtpPort
    smtpSsl := v.smtpSsl
    smtpStarttls := v.smtpStarttls
    smtpUsername := v.smtpUsername
    encryptedPassword := v.encryptedPassword <|> a.encryptedPassword
    smtpEncryptedPassword := v.smtpEncryptedPassword <|> a.smtpEncryptedPassword
    displayName := v.displayName.getD a.displayName
    updatedAt := now }

/-- New credentials reset the sync status on top of the other writes. -/
theorem updateCredentials_eq (v : UpdateValues) (now : Instant) (a : MailAccount) :
    updateCredentials v now a = setActive true now (updateSettings v now a) :=
  rfl

/-- The writes of `update` for a password account. -/
def passwordWrites (payload : MailAccountUpdateRequest) (acc : MailAccount) (now : Instant)
    (a : MailAccount) : MailAccount :=
  if CredsChanged payload then updateCredentials (resolve payload acc) now a
  else updateSettings (resolve payload acc) now a

/-- The IMAP and the SMTP password that the probe tries, where the stored secrets that it needs
open. -/
def probePasswords (payload : MailAccountUpdateRequest) (acc : MailAccount) :
    Option (Text × Text) :=
  let imapPwd :=
    if Submitted payload.password then payload.password
    else acc.encryptedPassword.bind fun blob => decryptMailPassword blob acc.id
  imapPwd.bind fun imapPwd =>
    if Submitted payload.smtpPassword then
      payload.smtpPassword.map fun smtpPwd => (imapPwd, smtpPwd)
    else
      match acc.smtpEncryptedPassword with
      | none => some (imapPwd, imapPwd)
      | some blob => (decryptMailPassword blob acc.id).map fun smtpPwd => (imapPwd, smtpPwd)

/-- The probe request. -/
def testPayload (v : UpdateValues) (passwords : Text × Text) : MailAccountTestRequest where
  email := v.email
  password := passwords.1
  imapHost := v.imapHost
  imapPort := v.imapPort
  imapSsl := v.imapSsl
  smtpHost := v.smtpHost
  smtpPort := v.smtpPort
  smtpSsl := v.smtpSsl
  smtpStarttls := v.smtpStarttls
  smtpUsername := v.smtpUsername
  smtpPassword := some passwords.2

/-- What the opening of the stored secrets raises when it fails: there is no stored password, which
an `assert` demands, or a secret does not open. -/
def secretError (acc : MailAccount) : UpdateError :=
  if acc.encryptedPassword = none then .assertionError else .invalidTag

/-- That is no answer of the API. -/
@[simp] theorem secretError_ne_domainError (acc : MailAccount) (d : DomainError) :
    secretError acc ≠ .domainError d := by
  unfold secretError
  split_ifs <;> simp

/-- The login probe of an update with new credentials. A submitted password is not asserted. -/
def probe (servers : MailServers) (payload : MailAccountUpdateRequest) (acc : MailAccount) :
    Except UpdateError Unit :=
  match probePasswords payload acc with
  | none => .error (if Submitted payload.password then .invalidTag else secretError acc)
  | some passwords =>
    let request := testPayload (resolve payload acc) passwords
    if ¬ request.Accepted then .error .schemaError
    else (testCredentials servers request.scrub).mapError UpdateError.ofRaised

/-- `forbidden_changes`: the request would change an OAuth account in more than its name. -/
def ForbiddenChanges (payload : MailAccountUpdateRequest) (acc : MailAccount) : Prop :=
  (payload.email ≠ none ∧ payload.email ≠ some acc.email) ∨ Submitted payload.password ∨
    (payload.imapHost ≠ none ∧ payload.imapHost ≠ some acc.imapHost) ∨
    (payload.imapPort ≠ none ∧ payload.imapPort ≠ some acc.imapPort) ∨
    (payload.imapSsl ≠ none ∧ payload.imapSsl ≠ some acc.imapSsl) ∨
    (payload.smtpHost ≠ none ∧ payload.smtpHost ≠ some acc.smtpHost) ∨
    (payload.smtpPort ≠ none ∧ payload.smtpPort ≠ some acc.smtpPort) ∨
    (payload.smtpSsl ≠ none ∧ payload.smtpSsl ≠ some acc.smtpSsl) ∨
    (payload.smtpStarttls ≠ none ∧ payload.smtpStarttls ≠ some acc.smtpStarttls) ∨
    (payload.smtpUsername ≠ none ∧ payload.smtpUsername ≠ acc.smtpUsername) ∨
    Submitted payload.smtpPassword

instance (payload : MailAccountUpdateRequest) (acc : MailAccount) :
    Decidable (ForbiddenChanges payload acc) :=
  inferInstanceAs (Decidable (_ ∨ _ ∨ _ ∨ _ ∨ _ ∨ _ ∨ _ ∨ _ ∨ _ ∨ _ ∨ _))

/-- The writes of `update`: an OAuth account gets a new name, if any. -/
def accountWrites (payload : MailAccountUpdateRequest) (acc : MailAccount) (now : Instant)
    (a : MailAccount) : MailAccount :=
  match acc.authType with
  | .oauthOutlook =>
    match (resolve payload acc).displayName with
    | none => a
    | some displayName => { a with displayName, updatedAt := now }
  | .password => passwordWrites payload acc now a

/-- The error of a forbidden change. -/
def oauthOnlyDisplayName : DomainError :=
  { errorClass := .validation
    message := "OAuth accounts allow changing only the display name".toList
    field := some "auth_type".toList }

/-- The error of two exclusive switches. -/
def sslAndStarttls : DomainError :=
  { errorClass := .conflict
    message := "smtp_ssl and smtp_starttls are mutually exclusive".toList }

/-- An `UPDATE` of the service. -/
def write (accounts : List MailAccount) (accountId : ℕ) (set : MailAccount → MailAccount) :
    Except UpdateError (List MailAccount) :=
  (updateFields accounts accountId set).mapError UpdateError.refused

/-- `MailAccountService.update`: the table after it. -/
def update (servers : MailServers) (now : Instant) (accounts : List MailAccount) (accountId : ℕ)
    (payload : MailAccountUpdateRequest) : Except UpdateError (List MailAccount) :=
  match getById accounts accountId with
  | none => .error (.domainError notFoundError)
  | some acc =>
    match acc.authType with
    | .oauthOutlook =>
      if ForbiddenChanges payload acc then .error (.domainError oauthOnlyDisplayName)
      else if (resolve payload acc).displayName = none then .ok accounts
      else write accounts accountId (accountWrites payload acc now)
    | .password =>
      let v := resolve payload acc
      if v.smtpSsl ∧ v.smtpStarttls then .error (.domainError sslAndStarttls)
      else if CredsChanged payload then
        match probe servers payload acc with
        | .error e => .error e
        | .ok () => write accounts accountId (accountWrites payload acc now)
      else write accounts accountId (accountWrites payload acc now)

/-- `MailAccountService.set_active`: the table after it. -/
def setActiveOn (now : Instant) (accounts : List MailAccount) (accountId : ℕ) (isActive : Bool) :
    Except UpdateError (List MailAccount) :=
  match getById accounts accountId with
  | none => .error (.domainError notFoundError)
  | some _ => write accounts accountId (setActive isActive now)

/-! ## What a successful call has written -/

@[simp] theorem accountWrites_id (payload : MailAccountUpdateRequest) (acc : MailAccount)
    (now : Instant) (a : MailAccount) : (accountWrites payload acc now a).id = a.id := by
  cases hauth : acc.authType with
  | oauthOutlook =>
    simp only [accountWrites, hauth]
    split <;> rfl
  | password =>
    simp only [accountWrites, hauth, passwordWrites]
    split_ifs <;> rfl

/-- An update hits no row if there is none. -/
theorem updateWhereId_of_getById_eq_none {accounts : List MailAccount} {accountId : ℕ}
    (h : getById accounts accountId = none) (set : MailAccount → MailAccount) :
    updateWhereId accounts accountId set = accounts := by
  rw [getById, List.find?_eq_none] at h
  rw [updateWhereId, List.map_congr_left (g := id), List.map_id]
  intro a ha
  exact if_neg (by simpa using h a ha)

/-- A write that is not refused is done. -/
theorem write_eq_ok {accounts accounts' : List MailAccount} {accountId : ℕ}
    {set : MailAccount → MailAccount} (h : write accounts accountId set = .ok accounts') :
    accounts' = updateWhereId accounts accountId set := by
  unfold write updateFields at h
  split at h
  · next hnone =>
    rw [updateWhereId_of_getById_eq_none hnone]
    exact (Except.ok.inj h).symm
  · split_ifs at h <;> cases h
    rfl

/-- **A successful update** has probed new credentials of a password account, and has written the
values of the row it read.

**Proof sketch.** Along the branches of the function. For an OAuth account the forbidden changes
have been refused before the name is written, and a request without a name writes nothing, which is
the same table. For a password account the probe stands before the write, if there are new
credentials, and must have succeeded. -/
theorem update_eq_ok {servers : MailServers} {now : Instant} {accounts accounts' : List MailAccount}
    {accountId : ℕ} {payload : MailAccountUpdateRequest}
    (h : update servers now accounts accountId payload = .ok accounts') :
    ∃ acc, getById accounts accountId = some acc ∧
      (acc.authType = .oauthOutlook → ¬ ForbiddenChanges payload acc) ∧
      (acc.authType = .password → CredsChanged payload → probe servers payload acc = .ok ()) ∧
      accounts' = updateWhereId accounts accountId (accountWrites payload acc now) := by
  unfold update at h
  split at h
  · cases h
  · next acc hacc =>
    refine ⟨acc, hacc, ?_⟩
    cases hauth : acc.authType with
    | oauthOutlook =>
      simp only [hauth] at h
      split_ifs at h with hforbidden hname
      · refine ⟨fun _ => hforbidden, fun h => (by cases h), ?_⟩
        have hid (a : MailAccount) : accountWrites payload acc now a = a := by
          simp only [accountWrites, hauth, hname]
        rw [updateWhereId]
        simpa [hid] using (Except.ok.inj h).symm
      · exact ⟨fun _ => hforbidden, fun h => (by cases h), write_eq_ok h⟩
    | password =>
      refine ⟨fun h => (by cases h), fun _ hcreds => ?_, ?_⟩
      · simp only [hauth] at h
        split_ifs at h
        split at h
        · cases h
        · assumption
      · simp only [hauth] at h
        split_ifs at h
        · split at h
          · cases h
          · exact write_eq_ok h
        · exact write_eq_ok h

/-- A successful switch has written the flag. -/
theorem setActiveOn_eq_ok {now : Instant} {accounts accounts' : List MailAccount} {accountId : ℕ}
    {isActive : Bool} (h : setActiveOn now accounts accountId isActive = .ok accounts') :
    accounts' = updateWhereId accounts accountId (setActive isActive now) := by
  unfold setActiveOn at h
  split at h
  · cases h
  · exact write_eq_ok h

end MailAccountService

/-! ## The external service -/

namespace ExternalMailboxService

open MailAccountService

/-- What the service meets: the mail servers, the clock, and the technical user of the CRM. -/
structure Env where
  servers : MailServers
  now : Instant
  crmServiceUser : Option ℕ

/-- The error without the technical user. -/
def crmServiceMissing : DomainError :=
  { errorClass := .dependencyUnavailable
    message := "crm-service technical user is not provisioned".toList }

/-- The first half of `update`: the account fields. -/
def updateAccount (env : Env) (accounts : List MailAccount) (accountId : ℕ)
    (payload : ExternalMailboxUpdateRequest) : Except UpdateError (List MailAccount) :=
  if payload.HasAccountFields then
    MailAccountService.update env.servers env.now accounts accountId (.ofExternal payload)
  else .ok accounts

/-- The second half of `update`: the switch, or the check that an empty request needs. A missing
`is_active` counts as false. -/
def updateActive (env : Env) (accounts : List MailAccount) (accountId : ℕ)
    (payload : ExternalMailboxUpdateRequest) : Except UpdateError (List MailAccount) :=
  if payload.setIsActive then
    setActiveOn env.now accounts accountId (payload.isActive.getD false)
  else if ¬ payload.HasAccountFields ∧ getById accounts accountId = none then
    .error (.domainError notFoundError)
  else .ok accounts

/-- `ExternalMailboxService.update`: the table after it, and the row that is answered. -/
def update (env : Env) (accounts : List MailAccount) (accountId : ℕ)
    (payload : ExternalMailboxUpdateRequest) :
    Except UpdateError (List MailAccount × MailAccount) :=
  if env.crmServiceUser = none then .error (.domainError crmServiceMissing)
  else
    match updateAccount env accounts accountId payload with
    | .error e => .error e
    | .ok accounts =>
      match updateActive env accounts accountId payload with
      | .error e => .error e
      | .ok accounts =>
        match getById accounts accountId with
        | none => .error (.domainError notFoundError)
        | some acc => .ok (accounts, acc)

/-- All the writes of a request to the row that it has read. -/
def rowWrites (env : Env) (payload : ExternalMailboxUpdateRequest) (acc : MailAccount)
    (a : MailAccount) : MailAccount :=
  let a' :=
    if payload.HasAccountFields then accountWrites (.ofExternal payload) acc env.now a else a
  if payload.setIsActive then setActive (payload.isActive.getD false) env.now a' else a'

@[simp] theorem rowWrites_id (env : Env) (payload : ExternalMailboxUpdateRequest)
    (acc a : MailAccount) : (rowWrites env payload acc a).id = a.id := by
  unfold rowWrites
  split_ifs <;> simp

/-- **A successful request** has written its values to the row it read, and answers that row.

**Proof sketch.** A request that succeeds has passed the update of the fields, the update of the
active flag and the last read. The first writes the values of the row that it has read, or nothing
when there are no such fields; the second sets the flag of the same row. The two updates by id are
one, and the last read answers its row. -/
theorem update_eq_ok {env : Env} {accounts accounts' : List MailAccount} {accountId : ℕ}
    {payload : ExternalMailboxUpdateRequest} {after : MailAccount}
    (h : update env accounts accountId payload = .ok (accounts', after)) :
    ∃ before, getById accounts accountId = some before ∧
      (payload.HasAccountFields → before.authType = .oauthOutlook →
        ¬ ForbiddenChanges (.ofExternal payload) before) ∧
      accounts' = updateWhereId accounts accountId (rowWrites env payload before) ∧
      after = rowWrites env payload before before := by
  unfold update at h
  split_ifs at h
  split at h
  · cases h
  · next mid hmid =>
    split at h
    · cases h
    · next last hlast =>
      split at h
      · cases h
      · next acc hacc =>
        obtain ⟨rfl, rfl⟩ := Prod.mk.inj (Except.ok.inj h)
        -- the row before the switch
        obtain ⟨before, hbefore, hallowed, hfields⟩ : ∃ before,
            getById accounts accountId = some before ∧
            (payload.HasAccountFields → before.authType = .oauthOutlook →
              ¬ ForbiddenChanges (.ofExternal payload) before) ∧
            mid = updateWhereId accounts accountId fun a =>
              if payload.HasAccountFields then accountWrites (.ofExternal payload) before env.now a
              else a := by
          unfold updateAccount at hmid
          by_cases hhas : payload.HasAccountFields
          · rw [if_pos hhas] at hmid
            obtain ⟨before, hbefore, hallowed, -, hwritten⟩ := MailAccountService.update_eq_ok hmid
            refine ⟨before, hbefore, fun _ => hallowed, ?_⟩
            simpa only [if_pos hhas] using hwritten
          · rw [if_neg hhas] at hmid
            obtain rfl := Except.ok.inj hmid
            have hsame : updateWhereId accounts accountId (fun a => a) = accounts := by
              rw [updateWhereId]
              simp
            cases hget : getById accounts accountId with
            | none =>
              unfold updateActive setActiveOn at hlast
              rw [hget] at hlast
              split_ifs at hlast with hactive hempty
              exact absurd ⟨hhas, rfl⟩ hempty
            | some before =>
              refine ⟨before, rfl, fun h => absurd h hhas, ?_⟩
              simp only [if_neg hhas, hsame]
        have hid : ∀ a : MailAccount, (if payload.HasAccountFields then
            accountWrites (.ofExternal payload) before env.now a else a).id = a.id := by
          intro a
          split_ifs <;> simp
        have hwritten : last = updateWhereId accounts accountId (rowWrites env payload before) := by
          unfold updateActive at hlast
          split_ifs at hlast with hactive hempty
          · rw [setActiveOn_eq_ok hlast, hfields, updateWhereId_updateWhereId hid]
            refine congrArg _ (funext fun a => ?_)
            simp only [rowWrites, if_pos hactive]
          · rw [← Except.ok.inj hlast, hfields]
            refine congrArg _ (funext fun a => ?_)
            simp only [rowWrites, if_neg hactive]
        refine ⟨before, hbefore, hallowed, hwritten, ?_⟩
        rw [hwritten, getById_updateWhereId (rowWrites_id env payload before), hbefore] at hacc
        simpa using hacc.symm

/-- The transaction of the router: an exception rolls it back. -/
def patch (env : Env) (accounts : List MailAccount) (accountId : ℕ)
    (payload : ExternalMailboxUpdateRequest) :
    List MailAccount × Except UpdateError MailAccount :=
  match update env accounts accountId payload with
  | .error e => (accounts, .error e)
  | .ok (accounts', acc) => (accounts', .ok acc)

end ExternalMailboxService

end MailAggregator
