import MailAggregator.Accounts.UniqueAddress
import MailAggregator.Accounts.UpdateRace
import MailAggregator.Send.Service
import MailAggregator.Worker.SyncAccount

set_option relaxedAutoImplicit false
set_option autoImplicit false

/-!
# The probe and the use of credentials

A create, an update with new credentials and the test of a stored account each try an IMAP and an
SMTP login. Sync and the sender resolve theirs from the row. The three probes come to their logins
on different ways, through two schemas, the stored secrets and the fallbacks of the SMTP
credentials; what they have tried is what is used.

## Main definitions

* `MailAggregator.MailLogins` — an IMAP and an SMTP login.
* `MailAggregator.Testers.logins` — what `_test_credentials` tries.
* `MailAggregator.SyncCycle.fetchLogin`, `SendService.sendLogin` — what sync and the sender resolve
  from a row; `MailAggregator.MailAccount.Uses` — both at once.
* `MailAggregator.MailAccountService.create`, `MailAccountService.testExistingAccount`.

## Main results

* `MailAggregator.MailAccount.uses_of_opens` — what is used of a row whose secrets open.
* `MailAggregator.MailAccountService.uses_rowWrites` — a probing update, also of a row that has
  changed since it was read.
* `MailAggregator.MailAccountService.probe_tests_what_is_used` — the three probes.
* `MailAggregator.MailAccountService.ProbedAsUsed.admit` — the servers admit what is used of a row
  that has been probed.
-/

namespace MailAggregator

open PyText Testers MailAccountsRepo MailAccountService Credentials

/-! ## Logins -/

/-- A login to an IMAP server. -/
structure ImapLogin where
  host : Text
  port : ℕ
  ssl : Bool
  username : Text
  password : Text
  deriving DecidableEq, Repr

/-- A login to an SMTP server. -/
structure SmtpLogin where
  host : Text
  port : ℕ
  ssl : Bool
  starttls : Bool
  username : Text
  password : Text
  deriving DecidableEq, Repr

/-- The two logins of a mailbox. -/
structure MailLogins where
  imap : ImapLogin
  smtp : SmtpLogin
  deriving DecidableEq, Repr

/-- The servers admit both logins. -/
structure MailServers.Admit (servers : MailServers) (l : MailLogins) : Prop where
  imap : servers.imapLogin l.imap.host l.imap.port l.imap.ssl l.imap.username l.imap.password = .ok
  smtp : servers.smtpLogin l.smtp.host l.smtp.port l.smtp.ssl l.smtp.starttls l.smtp.username
    l.smtp.password = .ok

/-! ## What a probe tries -/

namespace Testers

/-- The logins that `_test_credentials` tries. -/
def logins (r : MailAccountTestRequest) : MailLogins where
  imap :=
    { host := r.imapHost
      port := r.imapPort
      ssl := r.imapSsl
      username := r.email
      password := r.password }
  smtp :=
    { host := r.smtpHost
      port := r.smtpPort
      ssl := r.smtpSsl
      starttls := r.smtpStarttls
      username := (normalizeOptionalLogin r.smtpUsername).getD r.email
      password := (normalizeOptionalSecret r.smtpPassword).getD r.password }

section Probe

variable {servers : MailServers} {r : MailAccountTestRequest}

theorem andThen_eq_ok_iff {first second : Except Raised Unit} :
    andThen first second = .ok () ↔ first = .ok () ∧ second = .ok () := by
  cases first with
  | error e => simp [andThen]
  | ok u => simp [andThen]

theorem eq_ok_of_withDeadline {stage : Stage} {run : Except Raised Unit}
    (h : withDeadline servers stage run = .ok ()) : run = .ok () := by
  unfold withDeadline at h
  split_ifs at h
  split at h
  · cases h
  · exact h

theorem imapLoginResult_eq_ok_iff {login : LoginEnd} :
    imapLoginResult login = .ok () ↔ login = .ok := by
  cases login <;> simp [imapLoginResult]

theorem smtpLoginResult_eq_ok_iff {login : LoginEnd} :
    smtpLoginResult login = .ok () ↔ login = .ok := by
  cases login <;> simp [smtpLoginResult]

/-- **A probe that succeeds** has been admitted with its logins. -/
theorem admit_of_testCredentials (h : testCredentials servers r = .ok ()) :
    servers.Admit (logins r) := by
  obtain ⟨himap, hsmtp⟩ := andThen_eq_ok_iff.mp h
  have himap' := andThen_eq_ok_iff.mp (eq_ok_of_withDeadline himap)
  have hsmtp' := andThen_eq_ok_iff.mp (eq_ok_of_withDeadline hsmtp)
  refine ⟨imapLoginResult_eq_ok_iff.mp himap'.2, ?_⟩
  have hlogin := hsmtp'.2
  split_ifs at hlogin
  exact smtpLoginResult_eq_ok_iff.mp hlogin

/-- The validators of a request change no login. -/
@[simp] theorem logins_scrub (r : MailAccountTestRequest) : logins r.scrub = logins r := by
  simp [logins, MailAccountTestRequest.scrub]

end Probe

end Testers

/-! ## What sync and the sender use -/

/-- The login of `fetch_blocking`, for a password account: the credentials of
`_resolve_credentials`, and the columns of the row. -/
def SyncCycle.fetchLogin (a : MailAccount) : Option ImapLogin :=
  (a.encryptedPassword.bind fun blob => decryptMailPassword blob a.id).map fun password =>
    { host := a.imapHost
      port := a.imapPort
      ssl := a.imapSsl
      username := a.email
      password }

/-- The credentials of a password account resolve if it has a login. -/
theorem SyncCycle.resolveCredentials_ready_iff {a : MailAccount} (hauth : a.authType = .password)
    (env : SyncEnv) : resolveCredentials a env = .ready none ↔ (fetchLogin a).isSome := by
  simp only [resolveCredentials, fetchLogin, hauth]
  cases hblob : a.encryptedPassword with
  | none => simp
  | some blob => cases hopen : decryptMailPassword blob a.id <;> simp [hopen]

namespace SendService

/-- The login of `smtp_send_message`, on the password path. -/
def sendLogin (a : MailAccount) : Except SendError SmtpLogin :=
  (smtpPassword a).map fun password =>
    { host := a.smtpHost
      port := a.smtpPort
      ssl := a.smtpSsl
      starttls := a.smtpStarttls
      username := smtpUser a
      password }

end SendService

/-- What `aiosmtplib.send` is called with for a login. -/
def SmtpLogin.args (l : SmtpLogin) : SmtpArgs where
  hostname := l.host
  port := l.port
  useTls := l.ssl
  startTls := l.starttls
  auth := .login l.username l.password

/-- The SMTP leg of a password account is the guard and the session of its login. -/
theorem SendService.smtpSendMessage_eq {a : MailAccount} (hauth : a.authType = .password)
    (w : SendWorld) (recipients : List Text) :
    smtpSendMessage w a recipients =
      match HostGuard.assertPublicHost w.isProd w.resolver a.smtpHost a.smtpPort with
      | .error e => .refused (.ofGuard e)
      | .ok () =>
        match sendLogin a with
        | .error e => .refused e
        | .ok l => aiosmtplibSend (w.smtp l.args) recipients := by
  have hne : a.authType ≠ .oauthOutlook := by simp [hauth]
  simp only [smtpSendMessage, if_neg hne, sendLogin]
  cases hguard : HostGuard.assertPublicHost w.isProd w.resolver a.smtpHost a.smtpPort with
  | error e => rfl
  | ok _ => cases hsecret : smtpPassword a <;> rfl

namespace MailAccount

/-- **Sync and the sender resolve these logins from a row.** -/
structure Uses (a : MailAccount) (l : MailLogins) : Prop where
  auth : a.authType = .password
  imap : SyncCycle.fetchLogin a = some l.imap
  smtp : SendService.sendLogin a = .ok l.smtp

/-- The secrets of a row open: its password, and its own SMTP password if it has one. -/
structure Opens (a : MailAccount) (password : Text) (own : Option Text) : Prop where
  password : (a.encryptedPassword.bind fun blob => decryptMailPassword blob a.id) = some password
  own : (a.smtpEncryptedPassword.map fun blob => decryptMailPassword blob a.id) = own.map some

end MailAccount

namespace MailAccountService

/-! ## The test of a stored account -/

/-- The IMAP and the SMTP password that the test of a stored account tries, where both stored
secrets open. What else is raised is `secretError`. -/
def storedPasswords (acc : MailAccount) : Option (Text × Text) :=
  (acc.encryptedPassword.bind fun blob => decryptMailPassword blob acc.id).bind fun imapPwd =>
    match acc.smtpEncryptedPassword with
    | none => some (imapPwd, imapPwd)
    | some blob =>
      (decryptMailPassword blob acc.id).map fun stored =>
        (imapPwd, (normalizeOptionalSecret (some stored)).getD imapPwd)

/-- The arguments of `_test_credentials` for a row and two passwords. -/
def storedRequest (acc : MailAccount) (passwords : Text × Text) : MailAccountTestRequest where
  email := acc.email
  password := passwords.1
  imapHost := acc.imapHost
  imapPort := acc.imapPort
  imapSsl := acc.imapSsl
  smtpHost := acc.smtpHost
  smtpPort := acc.smtpPort
  smtpSsl := acc.smtpSsl
  smtpStarttls := acc.smtpStarttls
  smtpUsername := acc.smtpUsername
  smtpPassword := some passwords.2

/-- `_test_existing_account`, over the probe of an OAuth account. -/
def testExistingAccount (servers : MailServers)
    (testOauthAccount : MailAccount → Except UpdateError Unit) (accounts : List MailAccount)
    (accountId : ℕ) : Except UpdateError Unit :=
  match getById accounts accountId with
  | none => .error (.domainError notFoundError)
  | some acc =>
    match acc.authType with
    | .oauthOutlook => testOauthAccount acc
    | .password =>
      match storedPasswords acc with
      | none => .error (secretError acc)
      | some passwords =>
        (testCredentials servers (storedRequest acc passwords)).mapError UpdateError.ofRaised

/-! ## The create -/

/-- `MailAccountCreateRequest`. -/
structure MailAccountCreateRequest extends MailAccountTestRequest where
  displayName : Option Text
  targetUserId : Option ℕ
  accepted : toMailAccountTestRequest.Accepted
  scrubbed : toMailAccountTestRequest.scrub = toMailAccountTestRequest
  displayName_ok : ∀ t ∈ displayName, t ≠ [] ∧ t.length ≤ 100

/-- The validation of the fields of a create. -/
def MailAccountCreateRequest.modelValidate (fields : MailAccountTestRequest)
    (displayName : Option Text) (targetUserId : Option ℕ) : Option MailAccountCreateRequest :=
  if h : fields.Accepted ∧ AtMost 100 displayName then
    some
      { fields.scrub with
        displayName := trimDisplayName displayName
        targetUserId
        accepted := h.1.scrub
        scrubbed := by simp [MailAccountTestRequest.scrub]
        displayName_ok := AtMost.trimDisplayName h.2 }
  else none

/-- `as_test_request`: the request is validated again. -/
def MailAccountCreateRequest.asTestRequest (r : MailAccountCreateRequest) :
    MailAccountTestRequest :=
  r.toMailAccountTestRequest.scrub

/-- The second validation refuses nothing. -/
theorem MailAccountCreateRequest.asTestRequest_accepted (r : MailAccountCreateRequest) :
    r.asTestRequest.Accepted :=
  r.accepted.scrub

/-- Why a create fails. -/
inductive CreateError where
  | domainError (e : DomainError)
  | multipleResultsFound
  | dataError
  /-- An exception of the probe. -/
  | raised (e : Raised)
  deriving DecidableEq, Repr

/-- The exceptions that get out of a probe. -/
def CreateError.ofRaised : Raised → CreateError
  | .domainError e => .domainError e
  | e => .raised e

/-- The error of an address that is taken. -/
def emailAlreadyAdded : DomainError :=
  { errorClass := .conflict
    message := "Email already added".toList
    field := some "email".toList }

/-- What a create meets: the mail servers, the clock, the ids of the users and the caller among
them, the sequence of the ids, and how Python and the database lower a text. -/
structure CreateEnv where
  servers : MailServers
  now : Instant
  users : List ℕ
  userId : ℕ
  nextAccountId : ℕ
  pyLower : Text → Text
  dbLower : Text → Text

/-- `_resolve_target_user_id`, of the scope that sees every mailbox. -/
def resolveTargetUserId (env : CreateEnv) : Option ℕ → Except DomainError ℕ
  | none => .ok env.userId
  | some target => if target ∈ env.users then .ok target else .error notFoundError

/-- `MailAccountService.create`, for an owner: the table after it, and the row. -/
def createFor (env : CreateEnv) (accounts : List MailAccount) (userId : ℕ)
    (payload : MailAccountCreateRequest) : Except CreateError (List MailAccount × MailAccount) :=
  match findByUserEmail env.pyLower env.dbLower accounts userId payload.email with
  | .error .multipleResultsFound => .error .multipleResultsFound
  | .ok (some _) => .error (.domainError emailAlreadyAdded)
  | .ok none =>
    match testCredentials env.servers payload.asTestRequest with
    | .error e => .error (.ofRaised e)
    | .ok () =>
      if userId ∉ env.users then .error (.domainError notFoundError)
      else
        let acc := createdRow env.nextAccountId userId payload.toMailAccountTestRequest
          payload.displayName env.now
        match insertWithId accounts acc with
        | .error .dataError => .error .dataError
        | .error .integrityError => .error (.domainError emailAlreadyAdded)
        | .ok accounts => .ok (accounts, acc)

/-- `MailAccountService.create`. -/
def create (env : CreateEnv) (accounts : List MailAccount) (payload : MailAccountCreateRequest) :
    Except CreateError (List MailAccount × MailAccount) :=
  match resolveTargetUserId env payload.targetUserId with
  | .error e => .error (.domainError e)
  | .ok userId => createFor env accounts userId payload

/-- **A create that succeeds** has probed its request, and has added its row.

**Proof sketch.** A create that succeeds has found its owner and no row with the address, and has
probed the request before the insert. The insert appends the row that is made of the request. -/
theorem create_eq_ok {env : CreateEnv} {accounts accounts' : List MailAccount}
    {payload : MailAccountCreateRequest} {after : MailAccount}
    (h : create env accounts payload = .ok (accounts', after)) :
    testCredentials env.servers payload.asTestRequest = .ok () ∧ accounts' = accounts ++ [after] ∧
      ∃ userId, after = createdRow env.nextAccountId userId payload.toMailAccountTestRequest
        payload.displayName env.now := by
  unfold create at h
  split at h
  · cases h
  · next userId _ =>
    unfold createFor at h
    split at h
    · cases h
    · cases h
    · split at h
      · cases h
      · next hprobe =>
        split_ifs at h
        simp only at h
        split at h
        · cases h
        · cases h
        · next inserted hinsert =>
          obtain ⟨rfl, rfl⟩ := Prod.mk.inj (Except.ok.inj h)
          refine ⟨hprobe, ?_, userId, rfl⟩
          unfold insertWithId at hinsert
          split_ifs at hinsert
          exact (Except.ok.inj hinsert).symm

/-! ## The passwords -/

/-- The fallback is tried where there is no secret, whatever the fallback looks like. -/
@[simp] theorem normalizeOptionalSecret_some_getD (password : Text) :
    (normalizeOptionalSecret (some password)).getD password = password := by
  by_cases habsent : IsAbsent password
  · simp [normalizeOptionalSecret, habsent]
  · simp [normalizeOptionalSecret, habsent]

/-- A secret with the fallback filled in is normalized like the secret. -/
theorem normalizeOptionalSecret_getD (own : Option Text) (password : Text) :
    (normalizeOptionalSecret (some (own.getD password))).getD password =
      (normalizeOptionalSecret own).getD password := by
  cases own with
  | none => exact normalizeOptionalSecret_some_getD password
  | some stored => rfl

/-- The logins of a row do not depend on when its SMTP secret is normalized. -/
theorem logins_storedRequest_normalized (a : MailAccount) (password : Text) (own : Option Text) :
    logins (storedRequest a (password, (normalizeOptionalSecret own).getD password)) =
      logins (storedRequest a (password, own.getD password)) := by
  simp only [logins, storedRequest, normalizeOptionalSecret_getD, normalizeOptionalSecret_idem]

end MailAccountService

/-! ## What is used of a row -/

namespace MailAccount

variable {a : MailAccount} {password : Text} {own : Option Text}

/-- The IMAP password of a row whose secrets open. -/
theorem Opens.imapPassword (h : a.Opens password own) :
    SendService.imapPassword a = .ok password := by
  obtain ⟨blob, hblob, hopen⟩ := Option.bind_eq_some_iff.mp h.password
  exact (SendService.imapPassword_ok_iff a password).mpr ⟨blob, hblob, hopen⟩

/-- The SMTP password of a row whose secrets open. -/
theorem Opens.smtpPassword (h : a.Opens password own) :
    SendService.smtpPassword a = .ok ((normalizeOptionalSecret own).getD password) := by
  have himap := h.imapPassword
  have hown := h.own
  rw [SendService.smtpPassword]
  cases hblob : a.smtpEncryptedPassword with
  | none =>
    rw [hblob, Option.map_none, eq_comm, Option.map_eq_none_iff] at hown
    simpa [hown, normalizeOptionalSecret] using himap
  | some blob =>
    rw [hblob, Option.map_some, eq_comm, Option.map_eq_some_iff] at hown
    obtain ⟨stored, rfl, hopen⟩ := hown
    simp only [← hopen]
    cases hsecret : normalizeOptionalSecret (some stored) with
    | none => exact himap
    | some secret => rfl

/-- **What is used of a row whose secrets open** is what the row and its secrets are tried with. -/
theorem uses_of_opens (hauth : a.authType = .password) (h : a.Opens password own) :
    a.Uses (logins (storedRequest a (password, own.getD password))) where
  auth := hauth
  imap := by
    rw [SyncCycle.fetchLogin, h.password]
    rfl
  smtp := by
    rw [SendService.sendLogin, h.smtpPassword, ← logins_storedRequest_normalized]
    simp only [logins, storedRequest, normalizeOptionalSecret_getD, normalizeOptionalSecret_idem]
    rfl

end MailAccount

namespace MailAccountService

section Uses

variable {a acc : MailAccount} {password : Text} {own : Option Text}

/-- The switch leaves the credentials alone. -/
@[simp] theorem storedRequest_setActive (isActive : Bool) (now : Instant) (a : MailAccount)
    (passwords : Text × Text) :
    storedRequest (setActive isActive now a) passwords = storedRequest a passwords := by
  cases isActive <;> rfl

@[simp] theorem opens_setActive (isActive : Bool) (now : Instant) :
    (setActive isActive now a).Opens password own ↔ a.Opens password own := by
  cases isActive <;> exact ⟨fun h => ⟨h.password, h.own⟩, fun h => ⟨h.password, h.own⟩⟩

@[simp] theorem authType_setActive (isActive : Bool) (now : Instant) :
    (setActive isActive now a).authType = a.authType := by
  cases isActive <;> rfl

/-- The row that an update writes is tried with the probe request of the update. -/
theorem storedRequest_updateSettings (v : UpdateValues) (now : Instant) (a : MailAccount)
    (passwords : Text × Text) :
    storedRequest (updateSettings v now a) passwords = testPayload v passwords :=
  rfl

/-- A submitted secret is sealed for the row. -/
theorem sealed_of_submitted {secret : Option Text} (h : Submitted secret) (accountId : ℕ) :
    ∃ s, secret = some s ∧ sealed secret accountId = some (encryptMailPassword s accountId) := by
  obtain ⟨s, rfl⟩ := Option.ne_none_iff_exists'.mp h.1
  exact ⟨s, rfl, by simp [sealed, h]⟩

/-- **The secrets of a written row open to the passwords of the probe**: the submitted ones have
been sealed for it, and the others are those that the update has read.

**Proof sketch.** For each of the two secrets there are two cases. A submitted one has been sealed
for the account and opens to what was submitted. One that was not submitted is not written, and the
row has the blob that the probe has opened, under the same account id. -/
theorem opens_updateSettings {payload : MailAccountUpdateRequest} {passwords : Text × Text}
    (hprobe : probePasswords payload acc = some passwords) (now : Instant) (hid : a.id = acc.id)
    (hpassword : ¬ Submitted payload.password → a.encryptedPassword = acc.encryptedPassword)
    (hsmtp : ¬ Submitted payload.smtpPassword →
      a.smtpEncryptedPassword = acc.smtpEncryptedPassword) :
    ∃ own, (updateSettings (resolve payload acc) now a).Opens passwords.1 own ∧
      passwords.2 = own.getD passwords.1 := by
  obtain ⟨imapPwd, himap, hrest⟩ := Option.bind_eq_some_iff.mp hprobe
  have hopen : ((updateSettings (resolve payload acc) now a).encryptedPassword.bind fun blob =>
      decryptMailPassword blob a.id) = some imapPwd := by
    by_cases hsubmitted : Submitted payload.password
    · obtain ⟨s, hs, hseal⟩ := sealed_of_submitted hsubmitted acc.id
      rw [if_pos hsubmitted, hs, Option.some.injEq] at himap
      simp [updateSettings, resolve, hseal, hid, himap]
    · rw [if_neg hsubmitted] at himap
      simpa [updateSettings, resolve, sealed, hsubmitted, hpassword hsubmitted, hid] using himap
  by_cases hsubmitted : Submitted payload.smtpPassword
  · obtain ⟨s, hs, hseal⟩ := sealed_of_submitted hsubmitted acc.id
    rw [if_pos hsubmitted, hs, Option.map_some, Option.some.injEq] at hrest
    subst hrest
    refine ⟨some s, ⟨hopen, ?_⟩, rfl⟩
    simp [updateSettings, resolve, hseal, hid]
  · have hkept : (updateSettings (resolve payload acc) now a).smtpEncryptedPassword =
        acc.smtpEncryptedPassword := by
      simp [updateSettings, resolve, sealed, hsubmitted, hsmtp hsubmitted]
    rw [if_neg hsubmitted] at hrest
    cases hown : acc.smtpEncryptedPassword with
    | none =>
      simp only [hown, Option.some.injEq] at hrest
      subst hrest
      refine ⟨none, ⟨hopen, ?_⟩, rfl⟩
      rw [hkept, hown]
      rfl
    | some blob =>
      simp only [hown, Option.map_eq_some_iff] at hrest
      obtain ⟨stored, hstored, rfl⟩ := hrest
      refine ⟨some stored, ⟨hopen, ?_⟩, rfl⟩
      rw [hkept, hown, Option.map_some, Option.map_some, ← hstored, ← hid]
      rfl

/-- **A probing update.** What its probe has tried is used of the row that it writes, also if the
row has changed since it was read, as long as the secrets that the request does not submit have
not. -/
theorem uses_rowWrites {env : ExternalMailboxService.Env} {payload : ExternalMailboxUpdateRequest}
    {passwords : Text × Text} (hauth : acc.authType = .password) (hauth' : a.authType = .password)
    (hcreds : CredsChanged (.ofExternal payload))
    (hprobe : probePasswords (.ofExternal payload) acc = some passwords) (hid : a.id = acc.id)
    (hpassword : ¬ Submitted (MailAccountUpdateRequest.ofExternal payload).password →
      a.encryptedPassword = acc.encryptedPassword)
    (hsmtp : ¬ Submitted (MailAccountUpdateRequest.ofExternal payload).smtpPassword →
      a.smtpEncryptedPassword = acc.smtpEncryptedPassword) :
    (ExternalMailboxService.rowWrites env payload acc a).Uses
      (logins (testPayload (resolve (.ofExternal payload) acc) passwords)) := by
  have hhas := ExternalMailboxService.hasAccountFields_of_credsChanged hcreds
  obtain ⟨own, hopens, hown⟩ := opens_updateSettings hprobe env.now hid hpassword hsmtp
  have hsecond : passwords = (passwords.1, own.getD passwords.1) := by rw [← hown]
  have hwrites : accountWrites (.ofExternal payload) acc env.now a =
      setActive true env.now (updateSettings (resolve (.ofExternal payload) acc) env.now a) := by
    simp only [accountWrites, hauth, passwordWrites, if_pos hcreds, updateCredentials_eq]
  rw [← storedRequest_updateSettings _ env.now a, hsecond]
  have hauth'' : (updateSettings (resolve (.ofExternal payload) acc) env.now a).authType =
      .password := hauth'
  simp only [ExternalMailboxService.rowWrites, if_pos hhas, hwrites]
  split_ifs
  · simpa using MailAccount.uses_of_opens (by simpa using hauth'')
      ((opens_setActive _ env.now).mpr ((opens_setActive true env.now).mpr hopens))
  · simpa using MailAccount.uses_of_opens (by simpa using hauth'')
      ((opens_setActive true env.now).mpr hopens)

/-- An SMTP password of a create is submitted. -/
theorem submitted_smtpPassword (payload : MailAccountCreateRequest) {secret : Text}
    (h : payload.smtpPassword = some secret) : Submitted payload.smtpPassword := by
  have hscrubbed : normalizeOptionalSecret payload.smtpPassword = payload.smtpPassword :=
    congrArg MailAccountTestRequest.smtpPassword payload.scrubbed
  refine ⟨by simp [h], fun hempty => ?_⟩
  rw [hempty] at hscrubbed
  have habsent : IsAbsent [] := Or.inl rfl
  simp [normalizeOptionalSecret, habsent] at hscrubbed

/-- The secrets of the row of a create open to those of its request. -/
theorem opens_createdRow (payload : MailAccountCreateRequest) (accountId userId : ℕ)
    (now : Instant) :
    (createdRow accountId userId payload.toMailAccountTestRequest payload.displayName now).Opens
      payload.password payload.smtpPassword where
  password := by simp [createdRow]
  own := by
    cases hsecret : payload.smtpPassword with
    | none => simp [createdRow, sealed, hsecret]
    | some secret =>
      have hsubmitted := submitted_smtpPassword payload hsecret
      rw [hsecret] at hsubmitted
      simp [createdRow, sealed, hsecret, hsubmitted]

/-- What the probe of a create has tried is used of its row. -/
theorem uses_createdRow (payload : MailAccountCreateRequest) (accountId userId : ℕ)
    (now : Instant) :
    (createdRow accountId userId payload.toMailAccountTestRequest payload.displayName now).Uses
      (logins payload.asTestRequest) := by
  have huses := MailAccount.uses_of_opens rfl (opens_createdRow payload accountId userId now)
  have hlogins : logins (storedRequest
      (createdRow accountId userId payload.toMailAccountTestRequest payload.displayName now)
      (payload.password, payload.smtpPassword.getD payload.password)) =
        logins payload.asTestRequest := by
    rw [MailAccountCreateRequest.asTestRequest, logins_scrub, ← logins_storedRequest_normalized]
    simp only [logins, storedRequest, createdRow, normalizeOptionalSecret_getD,
      normalizeOptionalSecret_idem]
  rwa [hlogins] at huses

/-- The secrets of a stored row open to the passwords of its test. -/
theorem opens_of_storedPasswords {passwords : Text × Text}
    (h : storedPasswords acc = some passwords) :
    ∃ own, acc.Opens passwords.1 own ∧
      passwords.2 = (normalizeOptionalSecret own).getD passwords.1 := by
  obtain ⟨imapPwd, himap, hrest⟩ := Option.bind_eq_some_iff.mp h
  cases hown : acc.smtpEncryptedPassword with
  | none =>
    simp only [hown, Option.some.injEq] at hrest
    subst hrest
    exact ⟨none, ⟨himap, by simp [hown]⟩, rfl⟩
  | some blob =>
    simp only [hown, Option.map_eq_some_iff] at hrest
    obtain ⟨stored, hstored, rfl⟩ := hrest
    exact ⟨some stored, ⟨himap, by simp [hown, hstored]⟩, rfl⟩

/-- What the test of a stored account has tried is used of its row. -/
theorem uses_storedRequest (hauth : acc.authType = .password) {passwords : Text × Text}
    (h : storedPasswords acc = some passwords) :
    acc.Uses (logins (storedRequest acc passwords)) := by
  obtain ⟨own, hopens, hown⟩ := opens_of_storedPasswords h
  have hpair : passwords = (passwords.1, (normalizeOptionalSecret own).getD passwords.1) := by
    rw [← hown]
  rw [hpair, logins_storedRequest_normalized]
  exact MailAccount.uses_of_opens hauth hopens

end Uses

/-! ## The three probes -/

/-- **A probe of a request has succeeded, and what it has tried is used of a row.** -/
structure ProbedAsUsed (servers : MailServers) (r : MailAccountTestRequest) (a : MailAccount) :
    Prop where
  passed : testCredentials servers r = .ok ()
  used : a.Uses (logins r)

/-- The servers admit what is used of a row that has been probed. -/
theorem ProbedAsUsed.admit {servers : MailServers} {r : MailAccountTestRequest} {a : MailAccount}
    (h : ProbedAsUsed servers r a) {l : MailLogins} (hl : a.Uses l) : servers.Admit l := by
  have himap : l.imap = (logins r).imap := Option.some.inj (hl.imap.symm.trans h.used.imap)
  have hsmtp : l.smtp = (logins r).smtp := Except.ok.inj (hl.smtp.symm.trans h.used.smtp)
  have hsame : l = logins r := by
    cases l
    exact congrArg₂ MailLogins.mk himap hsmtp
  rw [hsame]
  exact admit_of_testCredentials h.passed

/-- A probe of an update that succeeds has tried its passwords. -/
theorem probe_eq_ok {servers : MailServers} {payload : MailAccountUpdateRequest}
    {acc : MailAccount} (h : probe servers payload acc = .ok ()) :
    ∃ passwords, probePasswords payload acc = some passwords ∧
      testCredentials servers (testPayload (resolve payload acc) passwords).scrub = .ok () := by
  unfold probe at h
  split at h
  · cases h
  · next passwords hpasswords =>
    refine ⟨passwords, hpasswords, ?_⟩
    simp only at h
    split_ifs at h
    cases htest : testCredentials servers (testPayload (resolve payload acc) passwords).scrub with
    | error e =>
      rw [htest] at h
      cases h
    | ok _ => rfl

/-- A probing update that succeeds has passed its probe. -/
theorem probe_of_update {env : ExternalMailboxService.Env} {accounts accounts' : List MailAccount}
    {accountId : ℕ} {payload : ExternalMailboxUpdateRequest} {before after : MailAccount}
    (hbefore : getById accounts accountId = some before) (hauth : before.authType = .password)
    (hcreds : CredsChanged (.ofExternal payload))
    (h : ExternalMailboxService.update env accounts accountId payload = .ok (accounts', after)) :
    probe env.servers (.ofExternal payload) before = .ok () := by
  have hhas := ExternalMailboxService.hasAccountFields_of_credsChanged hcreds
  unfold ExternalMailboxService.update ExternalMailboxService.updateAccount at h
  split_ifs at h
  split at h
  · cases h
  · next mid hmid =>
    obtain ⟨acc, hacc, -, hprobed, -⟩ := update_eq_ok hmid
    obtain rfl := Option.some.inj (hbefore.symm.trans hacc)
    exact hprobed hauth hcreds

/-- **The probe tests what is used.** A create, an update with new credentials and the test of a
stored password account that succeed have tried the logins that sync and the sender resolve from
the committed row.

**Proof sketch.** The row and its opened secrets make a request of their own, and its logins are
what sync and the sender resolve. The test of a stored account is this request, with the SMTP secret
normalized before. The row that an update writes makes the probe request of the update: a secret
that was submitted has been sealed for the row, and another one is still the stored one, which the
probe has opened. A create seals the passwords of its request. -/
theorem probe_tests_what_is_used :
    (∀ (env : CreateEnv) (accounts accounts' : List MailAccount)
        (payload : MailAccountCreateRequest) (after : MailAccount),
      create env accounts payload = .ok (accounts', after) →
        after ∈ accounts' ∧ ProbedAsUsed env.servers payload.asTestRequest after) ∧
    (∀ (env : ExternalMailboxService.Env) (accounts accounts' : List MailAccount) (accountId : ℕ)
        (payload : ExternalMailboxUpdateRequest) (before after : MailAccount),
      getById accounts accountId = some before → before.authType = .password →
      CredsChanged (.ofExternal payload) →
      ExternalMailboxService.update env accounts accountId payload = .ok (accounts', after) →
        getById accounts' accountId = some after ∧
          ∃ passwords, probePasswords (.ofExternal payload) before = some passwords ∧
            ProbedAsUsed env.servers
              (testPayload (resolve (.ofExternal payload) before) passwords).scrub after) ∧
    (∀ (servers : MailServers) (testOauthAccount : MailAccount → Except UpdateError Unit)
        (accounts : List MailAccount) (accountId : ℕ) (acc : MailAccount),
      getById accounts accountId = some acc → acc.authType = .password →
      testExistingAccount servers testOauthAccount accounts accountId = .ok () →
        ∃ passwords, storedPasswords acc = some passwords ∧
          ProbedAsUsed servers (storedRequest acc passwords) acc) := by
  refine ⟨?_, ?_, ?_⟩
  · intro env accounts accounts' payload after h
    obtain ⟨hpassed, rfl, userId, rfl⟩ := create_eq_ok h
    exact ⟨by simp, hpassed, uses_createdRow payload _ _ _⟩
  · intro env accounts accounts' accountId payload before after hbefore hauth hcreds h
    obtain ⟨passwords, hpasswords, hpassed⟩ :=
      probe_eq_ok (probe_of_update hbefore hauth hcreds h)
    obtain ⟨acc, hacc, -, rfl, rfl⟩ := ExternalMailboxService.update_eq_ok h
    obtain rfl := Option.some.inj (hbefore.symm.trans hacc)
    refine ⟨?_, passwords, hpasswords, hpassed, ?_⟩
    · rw [getById_updateWhereId (ExternalMailboxService.rowWrites_id env payload before), hbefore]
      simp
    · rw [logins_scrub]
      exact uses_rowWrites hauth hauth hcreds hpasswords rfl (fun _ => rfl) (fun _ => rfl)
  · intro servers testOauthAccount accounts accountId acc hacc hauth h
    simp only [testExistingAccount, hacc, hauth] at h
    split at h
    · cases h
    · next passwords hpasswords =>
      refine ⟨passwords, hpasswords, ?_, uses_storedRequest hauth hpasswords⟩
      cases htest : testCredentials servers (storedRequest acc passwords) with
      | error e =>
        rw [htest] at h
        cases h
      | ok _ => rfl

/-! ## A poisoned row -/

/-- A row whose SMTP credentials are the texts of absent values. -/
def poisonedRow : MailAccount :=
  { createdRow 1 1 (Addresses.loginRequest "a@example.com".toList) none 0 with
    smtpUsername := some "None".toList
    smtpEncryptedPassword := some (encryptMailPassword "None".toList 1) }

/-- A new IMAP password. -/
def newPassword : ExternalMailboxUpdateRequest where
  password := some "changed".toList
  isActive := none
  setIsActive := false
  inBounds := by decide

/-- **A poisoned row**: a new IMAP password is tried, and then used, for IMAP and for SMTP. -/
theorem probe_tests_what_is_used_poisoned : ∃ accounts' after,
    ExternalMailboxService.update ExternalMailboxService.openEnv [poisonedRow] 1 newPassword =
      .ok (accounts', after) ∧
    ∃ passwords, probePasswords (.ofExternal newPassword) poisonedRow = some passwords ∧
      ProbedAsUsed ExternalMailboxService.openEnv.servers
        (testPayload (resolve (.ofExternal newPassword) poisonedRow) passwords).scrub after := by
  refine ⟨_, _, rfl, ?_⟩
  exact (probe_tests_what_is_used.2.1 ExternalMailboxService.openEnv [poisonedRow] _ 1 newPassword
    poisonedRow _ rfl rfl (by decide) rfl).2

end MailAccountService

end MailAggregator
