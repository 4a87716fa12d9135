import MailAggregator.Accounts.Probe
import MailAggregator.Accounts.UpdateClosed
import MailAggregator.OAuth.AccessToken

set_option relaxedAutoImplicit false
set_option autoImplicit false

/-!
# What the connection test reports

`MailAccountService.test`, of submitted credentials and of a stored account of either kind, down to
the calls of the client libraries: what the resolver answers, how each IMAP command and each SMTP
call ends, and what the token endpoint replies. The `except` clauses of the four probes and of the
token refresh name some classes of exceptions. Others get out of the operation.

## Main definitions

* `MailAggregator.TestWorld` — what a test meets.
* `MailAggregator.MailAccountService.test` — the operation.
* `MailAggregator.MailAccountService.Reports` — it ends with a result or a domain error.
* `MailAggregator.MailAccountService.TestRaises` — what is met raises something uncaught.

## Main results

* `MailAggregator.Testers.assertPublicHost_servers` — the guard of the probes is that of the other
  connections.
* `MailAggregator.MailAccountService.reports_iff` — exactly when the test reports.
* `MailAggregator.MailAccountService.refused_xoauth2_escapes` — a token that the server refuses.

## Design

The libraries are what they do: a call of theirs ends, or raises an exception of any class. Only
`imaplib` is looked into, as far as it makes exceptions of the answers of the server.
-/

namespace MailAggregator

open PyText Testers MailAccountsRepo MailAccountService

namespace Testers

/-! ## The libraries -/

/-- What a client library raises, by its class. -/
inductive LibraryError where
  | timeoutError
  /-- Another `OSError`: a connection that fails or breaks, a TLS failure. -/
  | osError
  /-- A name or a text that cannot be encoded. -/
  | unicodeError
  /-- `imaplib.IMAP4.error`. -/
  | imap4Error
  /-- `imaplib.IMAP4.abort`. -/
  | imap4Abort
  | smtpAuthenticationError
  /-- Another `SMTPException`. -/
  | smtpException
  | other
  deriving DecidableEq, Repr

/-- The exception, by the `except` clause it meets. -/
def LibraryError.toRaised : LibraryError → Raised
  | timeoutError => .timeoutError
  | osError => .osError
  | smtpAuthenticationError => .smtpAuthenticationError
  | smtpException => .smtpException
  | unicodeError | imap4Error | imap4Abort | other => .other

/-- How `socket.getaddrinfo` ends. -/
inductive ResolverEnd where
  | answers (answers : List Text)
  | gaierror
  | raised (e : LibraryError)

/-- What `_resolve` and the loop of the guard make of it. -/
def resolution : ResolverEnd → Resolution
  | .answers answers =>
    match HostGuard.checkAnswers answers with
    | .ok () => .publicAddresses
    | .error (.invalidHost _) => .privateAddress
    | .error .valueError | .error .unicodeError => .raised .other
  | .gaierror => .unresolvable
  | .raised e => .raised e.toRaised

/-- How the server takes a command of `imaplib`. -/
inductive CommandEnd where
  | ok
  | no
  | bad
  /-- An untagged BYE. -/
  | bye
  /-- The stream ends, or the command cannot be sent. -/
  | eof
  | raised (e : LibraryError)
  deriving DecidableEq, Repr

/-- `IMAP4._simple_command`: whether the server completes the command with OK. -/
def simpleCommand : CommandEnd → Except Raised Bool
  | .ok => .ok true
  | .no => .ok false
  | .bad => .error LibraryError.imap4Error.toRaised
  | .bye | .eof => .error LibraryError.imap4Abort.toRaised
  | .raised e => .error e.toRaised

/-- A command, and what is raised if the server does not complete it with OK. -/
def command (refused : Raised) (c : CommandEnd) : Except Raised Unit :=
  match simpleCommand c with
  | .error e => .error e
  | .ok false => .error refused
  | .ok true => .ok ()

/-- A text that `imaplib` can send. -/
def Ascii (text : Text) : Prop := ∀ c ∈ text, c.toNat < 128

instance (text : Text) : Decidable (Ascii text) :=
  inferInstanceAs (Decidable (∀ c ∈ text, _))

/-- The credentials that `imaplib` can send with LOGIN. -/
def Sendable (l : ImapLogin) : Prop := Ascii l.username ∧ Ascii l.password

instance (l : ImapLogin) : Decidable (Sendable l) :=
  inferInstanceAs (Decidable (_ ∧ _))

/-- How the IMAP server takes a login, and whether this outlasts the `wait_for` of the stage. -/
structure ImapDialogue where
  waitForTimeout : Bool := false
  /-- The constructor of the mailbox, which connects. -/
  opening : Except LibraryError Unit := .ok ()
  /-- LOGIN, or AUTHENTICATE. -/
  login : CommandEnd := .ok
  select : CommandEnd := .ok

/-- How the SMTP server takes a login, and whether this outlasts the `wait_for` of the stage. -/
structure SmtpDialogue where
  waitForTimeout : Bool := false
  connect : Except LibraryError Unit := .ok ()
  starttls : Except LibraryError Unit := .ok ()
  ehlo : Except LibraryError Unit := .ok ()
  /-- The code of the reply to the login. -/
  login : Except LibraryError ℕ := .ok 235

/-- A call of a library. -/
def call {α : Type} (c : Except LibraryError α) : Except Raised Unit :=
  match c with
  | .error e => .error e.toRaised
  | .ok _ => .ok ()

/-- A run under the `wait_for` of its stage. -/
def session (waitForTimeout : Bool) (run : Except Raised Unit) : LoginEnd :=
  if waitForTimeout then .waitForTimeout
  else
    match run with
    | .error e => .raised e
    | .ok () => .ok

/-- `mailbox.login` of `imap-tools`, from the constructor on. -/
def imapLogin (l : ImapLogin) (d : ImapDialogue) : LoginEnd :=
  session d.waitForTimeout
    (andThen (call d.opening)
      (andThen
        (if ¬ Sendable l then .error LibraryError.unicodeError.toRaised
        else command .mailboxLoginError d.login)
        (command .mailboxFolderSelectError d.select)))

/-- `mailbox.xoauth2` of `imap-tools`, from the constructor on. It is `IMAP4.authenticate` that
raises if the server refuses the token. -/
def imapXoauth2 (d : ImapDialogue) : LoginEnd :=
  session d.waitForTimeout
    (andThen (call d.opening)
      (andThen (command LibraryError.imap4Error.toRaised d.login)
        (command .mailboxFolderSelectError d.select)))

/-- The calls of `_smtp_login_probe`. -/
def smtpLogin (starttls : Bool) (d : SmtpDialogue) : LoginEnd :=
  session d.waitForTimeout
    (andThen (call d.connect)
      (andThen (if starttls then call d.starttls else .ok ()) (call d.login)))

/-- AUTH XOAUTH2: any code but 235 is a refusal. -/
def authXoauth2 (reply : Except LibraryError ℕ) : Except Raised Unit :=
  match reply with
  | .error e => .error e.toRaised
  | .ok code =>
    if code ≠ 235 then .error (smtpLoginFailedError "SMTP XOAUTH2 authentication failed")
    else .ok ()

/-- The calls of `_smtp_oauth_probe`. -/
def smtpXoauth2 (starttls : Bool) (d : SmtpDialogue) : LoginEnd :=
  session d.waitForTimeout
    (andThen (call d.connect)
      (andThen (if starttls then call d.starttls else .ok ())
        (andThen (call d.ehlo) (authXoauth2 d.login))))

/-- The `except` clauses of `_imap_oauth_login_blocking`. -/
def imapOauthError : Raised → Raised
  | .mailboxLoginError => imapLoginFailedError "IMAP XOAUTH2 login failed"
  | e => imapLoginError e

/-- The `except` clauses of `_smtp_oauth_probe`. -/
def smtpOauthError : Raised → Raised
  | .smtpAuthenticationError => smtpLoginFailedError "SMTP XOAUTH2 authentication failed"
  | e => smtpLoginError e

/-- What a probe makes of the end of a login. -/
def loginResult (translate : Raised → Raised) (timedOut : Raised) : LoginEnd → Except Raised Unit
  | .ok => .ok ()
  | .raised e => .error (translate e)
  | .waitForTimeout => .error timedOut

/-- What `imap_test_oauth` makes of the end of a login. -/
def imapOauthResult : LoginEnd → Except Raised Unit :=
  loginResult imapOauthError (imapLoginFailedError "IMAP XOAUTH2 login timed out")

/-- What `smtp_test_oauth` makes of the end of a login. -/
def smtpOauthResult : LoginEnd → Except Raised Unit :=
  loginResult smtpOauthError (smtpLoginFailedError "SMTP XOAUTH2 login timed out")

end Testers

/-! ## The operation -/

/-- What a test meets: the resolver, the IMAP and the SMTP server for a login with a password or
with an access token, and what the token refresh meets. -/
structure TestWorld where
  isProd : Bool := true
  resolver : Text → ResolverEnd
  imap : ImapLogin → ImapDialogue
  smtp : SmtpLogin → SmtpDialogue
  imapOauth : (host : Text) → (port : ℕ) → (email accessToken : Text) → ImapDialogue
  smtpOauth : (host : Text) → (port : ℕ) → (starttls : Bool) → (email accessToken : Text) →
    SmtpDialogue
  token : TokenWorld
  /-- The stage in which `MAILBOX_TEST_DEADLINE_SECONDS` runs out. -/
  deadline : Option Stage := none
  /-- The deadline runs out in the stage `oauth_token`. -/
  tokenDeadline : Bool := false

/-- What the probes of a password account see of it. -/
def TestWorld.servers (w : TestWorld) : MailServers where
  isProd := w.isProd
  resolve host := resolution (w.resolver host)
  imapLogin host port ssl username password :=
    let l : ImapLogin := { host, port, ssl, username, password }
    Testers.imapLogin l (w.imap l)
  smtpLogin host port ssl starttls username password :=
    Testers.smtpLogin starttls (w.smtp { host, port, ssl, starttls, username, password })
  deadline := w.deadline

namespace Testers

/-- `imap_test_oauth`. -/
def imapTestOauth (w : TestWorld) (host : Text) (port : ℕ) (email accessToken : Text) :
    Except Raised Unit :=
  andThen (assertPublicHost w.servers host port)
    (imapOauthResult (imapXoauth2 (w.imapOauth host port email accessToken)))

/-- `smtp_test_oauth`. -/
def smtpTestOauth (w : TestWorld) (host : Text) (port : ℕ) (starttls : Bool)
    (email accessToken : Text) : Except Raised Unit :=
  andThen (assertPublicHost w.servers host port)
    (smtpOauthResult (smtpXoauth2 starttls (w.smtpOauth host port starttls email accessToken)))

end Testers

namespace MailAccountService

/-- The error of an account that must be connected again. -/
def reconnectOutlook : DomainError :=
  { errorClass := .oauthReconsentRequired
    message := "Reconnect Outlook to test this account".toList }

/-- The stage `oauth_token` of `_test_oauth_account_inner`; its deadline is attributed to IMAP. -/
def accessToken (w : TestWorld) (acc : MailAccount) : Except UpdateError Text :=
  if w.tokenDeadline then .error (.ofRaised (deadlineError .imap))
  else
    match OutlookTokenService.getValidAccessToken w.token acc with
    | .ok token => .ok token
    | .error .oauthRefreshInvalidError => .error (.domainError reconnectOutlook)
    | .error .invalidTag => .error .invalidTag
    | .error _ => .error (.raised .other)

/-- The two logins of `_test_oauth_account_inner`. -/
def testAccessToken (w : TestWorld) (acc : MailAccount) (token : Text) : Except Raised Unit :=
  andThen
    (withDeadline w.servers .imap (imapTestOauth w acc.imapHost acc.imapPort acc.email token))
    (withDeadline w.servers .smtp
      (smtpTestOauth w acc.smtpHost acc.smtpPort acc.smtpStarttls acc.email token))

/-- `_test_oauth_account`. -/
def testOauthAccount (w : TestWorld) (acc : MailAccount) : Except UpdateError Unit :=
  if acc.oauthNeedsConsent then .error (.domainError reconnectOutlook)
  else
    match accessToken w acc with
    | .error e => .error e
    | .ok token => (testAccessToken w acc token).mapError UpdateError.ofRaised

/-- A request for a test: of submitted credentials, or of a stored account. -/
inductive TestRequest where
  | credentials (r : MailAccountTestRequest)
  | account (accountId : ℕ)

/-- `MailAccountService.test`, for the scope that sees every mailbox. -/
def test (w : TestWorld) (accounts : List MailAccount) : TestRequest → Except UpdateError Unit
  | .credentials r => (testCredentials w.servers r).mapError UpdateError.ofRaised
  | .account accountId => testExistingAccount w.servers (testOauthAccount w) accounts accountId

/-- **A test reports**: it ends with a `TestResult` or a domain error. -/
def Reports (w : TestWorld) (accounts : List MailAccount) (request : TestRequest) : Prop :=
  ∀ e, test w accounts request = .error e → ∃ d, e = .domainError d

end MailAccountService

/-! ## What is uncaught -/

namespace Testers

/-- No `except` clause of the IMAP probes names the class. -/
def ImapUncaught (e : LibraryError) : Prop := e ≠ .timeoutError ∧ e ≠ .osError

/-- No `except` clause of the SMTP probes names the class. -/
def SmtpUncaught (e : LibraryError) : Prop :=
  e ≠ .timeoutError ∧ e ≠ .osError ∧ e ≠ .smtpAuthenticationError ∧ e ≠ .smtpException

/-- A call of a library raises something uncaught. -/
def CallRaises {α : Type} (Uncaught : LibraryError → Prop) (c : Except LibraryError α) : Prop :=
  ∃ e, c = .error e ∧ Uncaught e

/-- The server answers BAD or BYE, or hangs up, or `imaplib` raises something else that is
uncaught. -/
def CommandEnd.Raises : CommandEnd → Prop
  | ok | no => False
  | bad | bye | eof => True
  | raised e => ImapUncaught e

namespace ImapDialogue

/-- The login and the SELECT succeed. -/
def LoginPasses (l : ImapLogin) (d : ImapDialogue) : Prop :=
  ¬ d.waitForTimeout ∧ d.opening = .ok () ∧ (Sendable l ∧ d.login = .ok) ∧ d.select = .ok

/-- The login raises something uncaught. -/
def LoginRaises (l : ImapLogin) (d : ImapDialogue) : Prop :=
  ¬ d.waitForTimeout ∧ (CallRaises ImapUncaught d.opening ∨
    d.opening = .ok () ∧ ((¬ Sendable l ∨ d.login.Raises) ∨
      (Sendable l ∧ d.login = .ok) ∧ d.select.Raises))

/-- The login with a token and the SELECT succeed. -/
def Xoauth2Passes (d : ImapDialogue) : Prop :=
  ¬ d.waitForTimeout ∧ d.opening = .ok () ∧ d.login = .ok ∧ d.select = .ok

/-- The login with a token raises something uncaught; a refusal does. -/
def Xoauth2Raises (d : ImapDialogue) : Prop :=
  ¬ d.waitForTimeout ∧ (CallRaises ImapUncaught d.opening ∨
    d.opening = .ok () ∧ ((d.login = .no ∨ d.login.Raises) ∨
      d.login = .ok ∧ d.select.Raises))

end ImapDialogue

namespace SmtpDialogue

/-- The login succeeds. -/
def LoginPasses (starttls : Bool) (d : SmtpDialogue) : Prop :=
  ¬ d.waitForTimeout ∧ d.connect = .ok () ∧ (starttls → d.starttls = .ok ()) ∧
    ∃ code, d.login = .ok code

/-- The login raises something uncaught. -/
def LoginRaises (starttls : Bool) (d : SmtpDialogue) : Prop :=
  ¬ d.waitForTimeout ∧ (CallRaises SmtpUncaught d.connect ∨
    d.connect = .ok () ∧ ((starttls ∧ CallRaises SmtpUncaught d.starttls) ∨
      (starttls → d.starttls = .ok ()) ∧ CallRaises SmtpUncaught d.login))

/-- The login with a token succeeds. -/
def Xoauth2Passes (starttls : Bool) (d : SmtpDialogue) : Prop :=
  ¬ d.waitForTimeout ∧ d.connect = .ok () ∧ (starttls → d.starttls = .ok ()) ∧
    d.ehlo = .ok () ∧ d.login = .ok 235

/-- The login with a token raises something uncaught. -/
def Xoauth2Raises (starttls : Bool) (d : SmtpDialogue) : Prop :=
  ¬ d.waitForTimeout ∧ (CallRaises SmtpUncaught d.connect ∨
    d.connect = .ok () ∧ ((starttls ∧ CallRaises SmtpUncaught d.starttls) ∨
      (starttls → d.starttls = .ok ()) ∧ (CallRaises SmtpUncaught d.ehlo ∨
        d.ehlo = .ok () ∧ CallRaises SmtpUncaught d.login)))

end SmtpDialogue

section Stages

variable (w : TestWorld) (stage : Stage) (host : Text) (port : ℕ) (P R : Prop)

/-- The guard lets a host pass. -/
def GuardPasses : Prop :=
  host ≠ [] ∧ PortOk (some port) ∧ (w.isProd = false ∨
    ∃ answers, w.resolver host = .answers answers ∧ ∀ a ∈ answers, ¬ HostGuard.Refused a)

/-- The resolver raises something else than `gaierror` and `TimeoutError`, or an answer of it
raises. -/
def GuardRaises : Prop :=
  host ≠ [] ∧ PortOk (some port) ∧ w.isProd = true ∧
    ((∃ e, w.resolver host = .raised e ∧ e ≠ .timeoutError) ∨
      ∃ answers, w.resolver host = .answers answers ∧ HostGuard.RaisesAt answers)

/-- A stage succeeds, if its login does when `P`. -/
def StagePasses : Prop := w.deadline ≠ some stage ∧ GuardPasses w host port ∧ P

/-- A stage raises something uncaught, if its login does when `R`. -/
def StageRaises : Prop :=
  w.deadline ≠ some stage ∧ (GuardRaises w host port ∨ GuardPasses w host port ∧ R)

end Stages

/-- The IMAP stage of a password succeeds. -/
def ImapStagePasses (w : TestWorld) (l : ImapLogin) : Prop :=
  StagePasses w .imap l.host l.port ((w.imap l).LoginPasses l)

/-- The IMAP stage of a password raises something uncaught. -/
def ImapStageRaises (w : TestWorld) (l : ImapLogin) : Prop :=
  StageRaises w .imap l.host l.port ((w.imap l).LoginRaises l)

/-- The SMTP stage of a password raises something uncaught. -/
def SmtpStageRaises (w : TestWorld) (l : SmtpLogin) : Prop :=
  StageRaises w .smtp l.host l.port (¬ (l.ssl ∧ l.starttls) ∧ (w.smtp l).LoginRaises l.starttls)

/-- **A test of two logins raises something uncaught.** -/
def LoginsRaise (w : TestWorld) (l : MailLogins) : Prop :=
  ImapStageRaises w l.imap ∨ ImapStagePasses w l.imap ∧ SmtpStageRaises w l.smtp

end Testers

namespace MailAccountService

/-- A test of an access token raises something uncaught. -/
def TokenRaises (w : TestWorld) (acc : MailAccount) (token : Text) : Prop :=
  StageRaises w .imap acc.imapHost acc.imapPort
      (w.imapOauth acc.imapHost acc.imapPort acc.email token).Xoauth2Raises ∨
    StagePasses w .imap acc.imapHost acc.imapPort
        (w.imapOauth acc.imapHost acc.imapPort acc.email token).Xoauth2Passes ∧
      StageRaises w .smtp acc.smtpHost acc.smtpPort
        ((w.smtpOauth acc.smtpHost acc.smtpPort acc.smtpStarttls acc.email token).Xoauth2Raises
          acc.smtpStarttls)

/-- **A test of an account raises something uncaught**: a secret of a password account does not
open, or its logins raise; for an account that is connected to Outlook the refresh raises something
else than that consent is needed, or it gives a token and the logins raise. -/
def AccountRaises (w : TestWorld) (acc : MailAccount) : Prop :=
  match acc.authType with
  | .password =>
    ∀ passwords, storedPasswords acc = some passwords →
      LoginsRaise w (logins (storedRequest acc passwords))
  | .oauthOutlook =>
    acc.oauthNeedsConsent = false ∧ w.tokenDeadline = false ∧
      (OutlookTokenService.Raises w.token acc ∨
        ∃ token, OutlookTokenService.Obtains w.token acc token ∧ TokenRaises w acc token)

/-- **What is met raises something uncaught.** -/
def TestRaises (w : TestWorld) (accounts : List MailAccount) : TestRequest → Prop
  | .credentials r => LoginsRaise w (logins r)
  | .account accountId => ∃ acc, getById accounts accountId = some acc ∧ AccountRaises w acc

end MailAccountService

/-! ## How the stages end -/

namespace Testers

section Ends

variable {w : TestWorld} {host : Text} {port : ℕ} {run : Except Raised Unit} {P R P' R' : Prop}
  {f : Raised → Raised} {Uncaught : LibraryError → Prop}

theorem EndsAs.congr (h : EndsAs run P R) (hP : P ↔ P') (hR : R ↔ R') : EndsAs run P' R' :=
  ⟨h.ok_iff.trans hP, h.escapes_iff.trans hR⟩

/-- A check that raises a domain error comes before a run. -/
theorem EndsAs.unless {c : Prop} [Decidable c] (h : EndsAs run P R) (d : DomainError) :
    EndsAs (if c then .error (.domainError d) else run) (¬ c ∧ P) (¬ c ∧ R) := by
  obtain ⟨hok, hescapes⟩ := h
  by_cases hc : c
  · exact ⟨by simp [hc], by simp [hc, Raised.Escapes]⟩
  · exact ⟨by simp [hc, hok], by simp [hc, hescapes]⟩

theorem andThen_mapError (first second : Except Raised Unit) :
    (andThen first second).mapError f = andThen (first.mapError f) (second.mapError f) := by
  cases first with
  | error e => rfl
  | ok u => rfl

/-! ### The clauses -/

theorem escapes_imapLoginError_iff (e : LibraryError) :
    (imapLoginError e.toRaised).Escapes ↔ ImapUncaught e := by
  cases e <;> simp [imapLoginError, LibraryError.toRaised, Raised.Escapes, ImapUncaught,
    imapLoginFailedError]

theorem escapes_imapOauthError_iff (e : LibraryError) :
    (imapOauthError e.toRaised).Escapes ↔ ImapUncaught e := by
  rw [← escapes_imapLoginError_iff]
  cases e <;> rfl

theorem escapes_smtpLoginError_iff (e : LibraryError) :
    (smtpLoginError e.toRaised).Escapes ↔ SmtpUncaught e := by
  cases e <;> simp [smtpLoginError, LibraryError.toRaised, Raised.Escapes, SmtpUncaught,
    smtpLoginFailedError]

theorem escapes_smtpOauthError_iff (e : LibraryError) :
    (smtpOauthError e.toRaised).Escapes ↔ SmtpUncaught e := by
  rw [← escapes_smtpLoginError_iff]
  cases e with
  | smtpAuthenticationError =>
    simp [smtpOauthError, smtpLoginError, LibraryError.toRaised, Raised.Escapes,
      smtpLoginFailedError]
  | _ => rfl

/-! ### Calls and commands -/

/-- A call ends as its exception is translated. -/
theorem call_endsAs (hf : ∀ e : LibraryError, (f e.toRaised).Escapes ↔ Uncaught e) {α : Type}
    (c : Except LibraryError α) :
    EndsAs ((call c).mapError f) (∃ a, c = .ok a) (CallRaises Uncaught c) := by
  cases c with
  | error e =>
    exact ⟨by simp [call, Except.mapError], by simp [call, Except.mapError, CallRaises, hf]⟩
  | ok a => exact ⟨by simp [call, Except.mapError], by simp [call, Except.mapError, CallRaises]⟩

/-- A call that returns nothing. -/
theorem unitCall_endsAs (hf : ∀ e : LibraryError, (f e.toRaised).Escapes ↔ Uncaught e)
    (c : Except LibraryError Unit) :
    EndsAs ((call c).mapError f) (c = .ok ()) (CallRaises Uncaught c) :=
  (call_endsAs hf c).congr ⟨fun ⟨_, h⟩ => h, fun h => ⟨(), h⟩⟩ Iff.rfl

/-- A call that is made under a condition. -/
theorem callIf_endsAs (hf : ∀ e : LibraryError, (f e.toRaised).Escapes ↔ Uncaught e) (b : Bool)
    (c : Except LibraryError Unit) :
    EndsAs ((if b then call c else .ok ()).mapError f) (b → c = .ok ())
      (b ∧ CallRaises Uncaught c) := by
  cases b with
  | false => exact ⟨by simp [Except.mapError], by simp [Except.mapError]⟩
  | true => exact (unitCall_endsAs hf c).congr (by simp) (by simp)

/-- A command ends as the exceptions of `imaplib` and of a refusal are translated. -/
theorem command_endsAs (hf : ∀ e : LibraryError, (f e.toRaised).Escapes ↔ ImapUncaught e)
    (refused : Raised) (c : CommandEnd) :
    EndsAs ((command refused c).mapError f) (c = .ok)
      (c = .no ∧ (f refused).Escapes ∨ c.Raises) := by
  have herror : (f LibraryError.imap4Error.toRaised).Escapes := (hf _).mpr (by simp [ImapUncaught])
  have habort : (f LibraryError.imap4Abort.toRaised).Escapes := (hf _).mpr (by simp [ImapUncaught])
  cases c with
  | ok => exact ⟨by simp [command, simpleCommand, Except.mapError],
      by simp [command, simpleCommand, Except.mapError, CommandEnd.Raises]⟩
  | no => exact ⟨by simp [command, simpleCommand, Except.mapError],
      by simp [command, simpleCommand, Except.mapError, CommandEnd.Raises]⟩
  | bad => exact ⟨by simp [command, simpleCommand, Except.mapError],
      by simp [command, simpleCommand, Except.mapError, CommandEnd.Raises, herror]⟩
  | bye => exact ⟨by simp [command, simpleCommand, Except.mapError],
      by simp [command, simpleCommand, Except.mapError, CommandEnd.Raises, habort]⟩
  | eof => exact ⟨by simp [command, simpleCommand, Except.mapError],
      by simp [command, simpleCommand, Except.mapError, CommandEnd.Raises, habort]⟩
  | raised e => exact ⟨by simp [command, simpleCommand, Except.mapError],
      by simp [command, simpleCommand, Except.mapError, CommandEnd.Raises, hf]⟩

/-- A session ends as its run does, unless it outlasts the `wait_for` of its stage. -/
theorem session_endsAs (h : EndsAs (run.mapError f) P R) (b : Bool) (d : DomainError) :
    EndsAs (loginResult f (.domainError d) (session b run)) (¬ b ∧ P) (¬ b ∧ R) := by
  have hsession : loginResult f (.domainError d) (session b run) =
      if b then .error (.domainError d) else run.mapError f := by
    cases b with
    | true => rfl
    | false => cases run <;> rfl
  rw [hsession]
  exact h.unless d

/-! ### The logins -/

theorem imapLoginResult_eq (login : LoginEnd) :
    imapLoginResult login =
      loginResult imapLoginError (imapLoginFailedError "IMAP login timed out") login := by
  cases login <;> rfl

theorem smtpLoginResult_eq (login : LoginEnd) :
    smtpLoginResult login =
      loginResult smtpLoginError (smtpLoginFailedError "SMTP login timed out") login := by
  cases login <;> rfl

/-- `imap_test_login`, after the guard. -/
theorem imapLogin_result_endsAs (l : ImapLogin) (d : ImapDialogue) :
    EndsAs (imapLoginResult (imapLogin l d)) (d.LoginPasses l) (d.LoginRaises l) := by
  have hlogin : EndsAs ((if ¬ Sendable l then .error LibraryError.unicodeError.toRaised
      else command .mailboxLoginError d.login).mapError imapLoginError)
      (Sendable l ∧ d.login = .ok) (¬ Sendable l ∨ d.login.Raises) := by
    by_cases hsendable : Sendable l
    · rw [if_neg (not_not_intro hsendable)]
      refine (command_endsAs escapes_imapLoginError_iff _ _).congr (by simp [hsendable]) ?_
      simp [hsendable, imapLoginError, imapLoginFailedError, Raised.Escapes]
    · rw [if_pos hsendable]
      have hescapes := (escapes_imapLoginError_iff .unicodeError).mpr (by simp [ImapUncaught])
      exact ⟨by simp [Except.mapError, hsendable], by simp [Except.mapError, hsendable, hescapes]⟩
  have hselect : EndsAs ((command .mailboxFolderSelectError d.select).mapError imapLoginError)
      (d.select = .ok) d.select.Raises :=
    (command_endsAs escapes_imapLoginError_iff _ _).congr Iff.rfl
      (by simp [imapLoginError, imapLoginFailedError, Raised.Escapes])
  rw [imapLoginResult_eq]
  refine session_endsAs ?_ d.waitForTimeout _
  rw [andThen_mapError, andThen_mapError]
  exact (unitCall_endsAs escapes_imapLoginError_iff d.opening).andThen (hlogin.andThen hselect)

/-- `imap_test_oauth`, after the guard. -/
theorem imapXoauth2_result_endsAs (d : ImapDialogue) :
    EndsAs (imapOauthResult (imapXoauth2 d)) d.Xoauth2Passes d.Xoauth2Raises := by
  have hlogin : EndsAs ((command LibraryError.imap4Error.toRaised d.login).mapError imapOauthError)
      (d.login = .ok) (d.login = .no ∨ d.login.Raises) := by
    have hescapes := (escapes_imapOauthError_iff .imap4Error).mpr (by simp [ImapUncaught])
    exact (command_endsAs escapes_imapOauthError_iff _ _).congr Iff.rfl (by simp [hescapes])
  have hselect : EndsAs ((command .mailboxFolderSelectError d.select).mapError imapOauthError)
      (d.select = .ok) d.select.Raises :=
    (command_endsAs escapes_imapOauthError_iff _ _).congr Iff.rfl
      (by simp [imapOauthError, imapLoginError, imapLoginFailedError, Raised.Escapes])
  refine session_endsAs ?_ d.waitForTimeout _
  rw [andThen_mapError, andThen_mapError]
  exact (unitCall_endsAs escapes_imapOauthError_iff d.opening).andThen (hlogin.andThen hselect)

/-- `smtp_test_login`, after its checks. -/
theorem smtpLogin_result_endsAs (starttls : Bool) (d : SmtpDialogue) :
    EndsAs (smtpLoginResult (smtpLogin starttls d)) (d.LoginPasses starttls)
      (d.LoginRaises starttls) := by
  rw [smtpLoginResult_eq]
  refine session_endsAs ?_ d.waitForTimeout _
  rw [andThen_mapError, andThen_mapError]
  exact (unitCall_endsAs escapes_smtpLoginError_iff d.connect).andThen
    ((callIf_endsAs escapes_smtpLoginError_iff starttls d.starttls).andThen
      (call_endsAs escapes_smtpLoginError_iff d.login))

/-- `smtp_test_oauth`, after the guard. -/
theorem smtpXoauth2_result_endsAs (starttls : Bool) (d : SmtpDialogue) :
    EndsAs (smtpOauthResult (smtpXoauth2 starttls d)) (d.Xoauth2Passes starttls)
      (d.Xoauth2Raises starttls) := by
  have hauth : EndsAs ((authXoauth2 d.login).mapError smtpOauthError) (d.login = .ok 235)
      (CallRaises SmtpUncaught d.login) := by
    cases hlogin : d.login with
    | error e =>
      exact ⟨by simp [authXoauth2, Except.mapError],
        by simp [authXoauth2, Except.mapError, CallRaises, escapes_smtpOauthError_iff]⟩
    | ok code =>
      by_cases hcode : code = 235
      · exact ⟨by simp [authXoauth2, Except.mapError, hcode],
          by simp [authXoauth2, Except.mapError, hcode, CallRaises]⟩
      · exact ⟨by simp [authXoauth2, Except.mapError, hcode],
          by simp [authXoauth2, Except.mapError, hcode, CallRaises, smtpOauthError, smtpLoginError,
            smtpLoginFailedError, Raised.Escapes]⟩
  refine session_endsAs ?_ d.waitForTimeout _
  rw [andThen_mapError, andThen_mapError, andThen_mapError]
  exact (unitCall_endsAs escapes_smtpOauthError_iff d.connect).andThen
    ((callIf_endsAs escapes_smtpOauthError_iff starttls d.starttls).andThen
      ((unitCall_endsAs escapes_smtpOauthError_iff d.ehlo).andThen hauth))

/-! ### The guard and the stages -/

/-- How a lookup ends, if it fails in no other way than the model of the guard knows. -/
def ResolverEnd.ofLookup : Except HostGuard.ResolveError (List Text) → ResolverEnd
  | .ok found => .answers found
  | .error .gaierror => .gaierror
  | .error .unicodeError => .raised .unicodeError

/-- What the guard raises, by the `except` clause it meets. -/
def guardRaised : HostGuard.GuardError → Raised
  | .invalidHost message => .domainError { errorClass := .invalidHost, message }
  | .valueError | .unicodeError => .other

/-- The guard of the probes is the guard of the other connections.

**Proof sketch.** Both test the host and the port first, with the same bounds, and resolve in
production only. The answers are those of the same lookup, and each error of the host guard is the
one that the probes raise for it. -/
theorem assertPublicHost_servers {resolver : HostGuard.Resolver}
    (hresolver : w.resolver host = .ofLookup (resolver host)) :
    assertPublicHost w.servers host port =
      (HostGuard.assertPublicHost w.isProd resolver host port).mapError guardRaised := by
  have hport : PortOk (some port) ↔ 1 ≤ port ∧ port ≤ 65535 := by simp [PortOk]
  rw [assertPublicHost, HostGuard.assertPublicHost]
  by_cases hhost : host = []
  · rw [if_pos hhost, if_pos hhost]
    rfl
  rw [if_neg hhost, if_neg hhost]
  by_cases hvalid : 1 ≤ port ∧ port ≤ 65535
  · rw [if_neg (not_not_intro (hport.mpr hvalid)), if_neg (not_not_intro hvalid)]
    cases hprod : w.isProd with
    | false => simp [TestWorld.servers, hprod, Except.mapError]
    | true =>
      simp only [TestWorld.servers, hprod, hresolver, not_true_eq_false, if_false,
        Bool.true_eq_false]
      cases hlookup : resolver host with
      | error e => cases e <;> rfl
      | ok answers =>
        cases hcheck : HostGuard.checkAnswers answers with
        | ok u => simp [ResolverEnd.ofLookup, resolution, hcheck, Except.mapError]
        | error e =>
          rcases HostGuard.checkAnswers_error_cases hcheck with rfl | rfl
          · simp [ResolverEnd.ofLookup, resolution, hcheck, Except.mapError, guardRaised,
              invalidHostError]
          · simp [ResolverEnd.ofLookup, resolution, hcheck, Except.mapError, guardRaised]
  · rw [if_pos (mt hport.mp hvalid), if_pos hvalid]
    rfl

/-- The resolver gives public addresses exactly when no answer is refused. -/
theorem resolution_eq_public_iff (r : ResolverEnd) :
    resolution r = .publicAddresses ↔
      ∃ answers, r = .answers answers ∧ ∀ a ∈ answers, ¬ HostGuard.Refused a := by
  cases r with
  | answers answers =>
    simp only [resolution, ResolverEnd.answers.injEq, exists_eq_left',
      ← HostGuard.checkAnswers_ok_iff]
    cases hcheck : HostGuard.checkAnswers answers with
    | ok u => simp
    | error e => cases e <;> simp
  | gaierror => simp [resolution]
  | raised e => simp [resolution]

/-- What gets out of the guard is an exception of the resolver or of an answer. -/
theorem resolution_raises_iff (r : ResolverEnd) :
    (∃ e, resolution r = .raised e ∧ e.Escapes) ↔
      (∃ e, r = .raised e ∧ e ≠ .timeoutError) ∨
        ∃ answers, r = .answers answers ∧ HostGuard.RaisesAt answers := by
  cases r with
  | answers answers =>
    simp only [resolution, ResolverEnd.answers.injEq, exists_eq_left', reduceCtorEq, false_and,
      exists_false, false_or, ← HostGuard.checkAnswers_eq_valueError_iff]
    cases hcheck : HostGuard.checkAnswers answers with
    | ok u => simp
    | error e =>
      rcases HostGuard.checkAnswers_error_cases hcheck with rfl | rfl
      · simp
      · simp [Raised.Escapes]
  | gaierror => simp [resolution]
  | raised e =>
    simp only [resolution, Resolution.raised.injEq, exists_eq_left', ResolverEnd.raised.injEq,
      reduceCtorEq, false_and, exists_false, or_false]
    cases e <;> simp [LibraryError.toRaised, Raised.Escapes]

/-- The guard, of any host and port. -/
theorem guard_endsAs (w : TestWorld) (host : Text) (port : ℕ) :
    EndsAs (assertPublicHost w.servers host port) (GuardPasses w host port)
      (GuardRaises w host port) := by
  by_cases hhost : host = []
  · rw [assertPublicHost, if_pos hhost]
    exact ⟨by simp [GuardPasses, hhost],
      by simp [GuardRaises, hhost, invalidHostError, Raised.Escapes]⟩
  by_cases hport : PortOk (some port)
  · refine (assertPublicHost_endsAs w.servers hhost hport).congr ?_ ?_
    · simp only [HostPasses, GuardPasses, TestWorld.servers, resolution_eq_public_iff, ne_eq, hhost,
        not_false_eq_true, hport, true_and]
    · simp only [HostRaises, GuardRaises, TestWorld.servers, resolution_raises_iff, ne_eq, hhost,
        not_false_eq_true, hport, true_and]
  · rw [assertPublicHost, if_neg hhost, if_pos hport]
    exact ⟨by simp [GuardPasses, hport],
      by simp [GuardRaises, hport, invalidHostError, Raised.Escapes]⟩

/-- A stage: the guard and a login, under the deadline. -/
theorem stage_endsAs (w : TestWorld) (stage : Stage) (host : Text) (port : ℕ)
    (h : EndsAs run P R) :
    EndsAs (withDeadline w.servers stage (andThen (assertPublicHost w.servers host port) run))
      (StagePasses w stage host port P) (StageRaises w stage host port R) :=
  ((guard_endsAs w host port).andThen h).withDeadline stage

/-- **How the test of two logins ends.** -/
theorem testCredentials_escapes_iff (w : TestWorld) (r : MailAccountTestRequest) :
    (∃ e, testCredentials w.servers r = .error e ∧ e.Escapes) ↔ LoginsRaise w (logins r) := by
  have himap := stage_endsAs w .imap r.imapHost r.imapPort
    (imapLogin_result_endsAs (logins r).imap (w.imap (logins r).imap))
  have hsmtp := stage_endsAs w .smtp r.smtpHost r.smtpPort
    ((smtpLogin_result_endsAs r.smtpStarttls (w.smtp (logins r).smtp)).unless
      (c := r.smtpSsl ∧ r.smtpStarttls)
      { errorClass := .smtpLoginFailed
        message := "smtp_ssl and smtp_starttls are mutually exclusive".toList })
  exact (himap.andThen hsmtp).escapes_iff

end Ends

end Testers

/-! ## When the test reports -/

namespace MailAccountService

section Reports

variable {w : TestWorld} {accounts : List MailAccount} {acc : MailAccount}

/-- **How the test of an access token ends.** -/
theorem testAccessToken_escapes_iff (w : TestWorld) (acc : MailAccount) (token : Text) :
    (∃ e, testAccessToken w acc token = .error e ∧ e.Escapes) ↔ TokenRaises w acc token := by
  have himap := stage_endsAs w .imap acc.imapHost acc.imapPort (imapXoauth2_result_endsAs
    (w.imapOauth acc.imapHost acc.imapPort acc.email token))
  have hsmtp := stage_endsAs w .smtp acc.smtpHost acc.smtpPort (smtpXoauth2_result_endsAs
    acc.smtpStarttls (w.smtpOauth acc.smtpHost acc.smtpPort acc.smtpStarttls acc.email token))
  exact (himap.andThen hsmtp).escapes_iff

/-- No `TimeoutError` gets out of the test of an access token. -/
theorem testAccessToken_ne_timeoutError (token : Text) :
    testAccessToken w acc token ≠ .error .timeoutError :=
  andThen_ne_timeoutError (withDeadline_ne_timeoutError .imap _)
    (withDeadline_ne_timeoutError .smtp _)

/-- A run out of which no `TimeoutError` gets raises only domain errors unless something
escapes. -/
theorem only_domainErrors_iff {run : Except Raised Unit} (hrun : run ≠ .error .timeoutError) :
    (∀ e, run.mapError UpdateError.ofRaised = .error e → ∃ d, e = .domainError d) ↔
      ¬ ∃ e, run = .error e ∧ e.Escapes := by
  cases run with
  | ok u => simp [Except.mapError]
  | error e =>
    simp only [Except.mapError, Except.error.injEq, forall_eq', exists_eq_left']
    cases e with
    | domainError d => simp [UpdateError.ofRaised, Raised.Escapes]
    | timeoutError => exact absurd rfl hrun
    | _ => simp [UpdateError.ofRaised, Raised.Escapes]

/-- The test of an account that is connected to Outlook. -/
theorem testOauthAccount_reports_iff (w : TestWorld) (hauth : acc.authType = .oauthOutlook) :
    (∀ e, testOauthAccount w acc = .error e → ∃ d, e = .domainError d) ↔
      ¬ AccountRaises w acc := by
  simp only [AccountRaises, hauth]
  unfold testOauthAccount
  by_cases hconsent : acc.oauthNeedsConsent = true
  · simp [hconsent]
  rw [if_neg hconsent]
  by_cases hdeadline : w.tokenDeadline = true
  · simp [accessToken, hdeadline, deadlineError, imapLoginFailedError, UpdateError.ofRaised]
  have hfails := OutlookTokenService.fails_getValidAccessToken_iff (w := w.token) hauth
  have hobtains := OutlookTokenService.getValidAccessToken_ok_iff (w := w.token) hauth
  rw [Bool.not_eq_true] at hconsent hdeadline
  simp only [hconsent, hdeadline, true_and, ← hfails, ← hobtains, accessToken]
  cases hcall : OutlookTokenService.getValidAccessToken w.token acc with
  | ok token =>
    simp only [OutlookTokenService.not_fails_ok, Except.ok.injEq, exists_eq_left', false_or]
    rw [← testAccessToken_escapes_iff, ← only_domainErrors_iff (testAccessToken_ne_timeoutError _)]
    rfl
  | error e => cases e <;> simp

/-- **Exactly when the test reports**: if and only if nothing that is met raises something
uncaught.

**Proof sketch.** A run ends well, or with a domain error, or something escapes it. One run after
another escapes if the first does, or if it ends well and the second does, and the calls, the
commands, the sessions, the guard, the stages and the tests are such runs. The deadline makes a
domain error of every `TimeoutError`. -/
theorem reports_iff (w : TestWorld) (accounts : List MailAccount) (request : TestRequest) :
    Reports w accounts request ↔ ¬ TestRaises w accounts request := by
  cases request with
  | credentials r =>
    rw [TestRaises, ← testCredentials_escapes_iff]
    exact only_domainErrors_iff testCredentials_ne_timeoutError
  | account accountId =>
    cases hget : getById accounts accountId with
    | none => simp [Reports, TestRaises, test, testExistingAccount, hget]
    | some acc =>
      have hraises : TestRaises w accounts (.account accountId) ↔ AccountRaises w acc := by
        simp [TestRaises, hget]
      rw [hraises]
      simp only [Reports, test, testExistingAccount, hget]
      cases hauth : acc.authType with
      | oauthOutlook => exact testOauthAccount_reports_iff w hauth
      | password =>
        simp only [AccountRaises, hauth]
        cases hpasswords : storedPasswords acc with
        | none => simp
        | some passwords =>
          simp only [Option.some.injEq, forall_eq', ← testCredentials_escapes_iff]
          exact only_domainErrors_iff testCredentials_ne_timeoutError

end Reports

/-! ### A refused token -/

/-- A mailbox that is connected to Outlook, with an access token that is valid for an hour. -/
def outlookMailbox : MailAccount where
  id := 1
  userId := 1
  email := "a@outlook.com".toList
  authType := .oauthOutlook
  imapHost := "outlook.office365.com".toList
  smtpHost := "smtp-mail.outlook.com".toList
  oauthAccessTokenEncrypted := some (encryptMailPassword "token".toList 1)
  oauthAccessTokenExpiresAt := some (seconds 3600)

/-- Servers that take every password, and an IMAP server that takes tokens as it is told. -/
def xoauth2World (login : CommandEnd) : TestWorld where
  resolver _ := .answers ["192.0.2.25".toList]
  imap _ := {}
  smtp _ := {}
  imapOauth _ _ _ _ := { login }
  smtpOauth _ _ _ _ _ := {}
  token :=
    { now := 0
      lock := .notAcquired []
      endpoint := fun _ => .transportError
      answeredAt := 0
      repr := fun _ => [] }

/-- **A token that the server refuses**: `imaplib` raises `IMAP4.error`, which gets out. -/
theorem refused_xoauth2_escapes :
    test (xoauth2World .ok) [outlookMailbox] (.account 1) = .ok () ∧
      test (xoauth2World .no) [outlookMailbox] (.account 1) = .error (.raised .other) ∧
      ¬ ∀ (w : TestWorld) (accounts : List MailAccount) (request : TestRequest),
        (∀ r, request = .credentials r → r.Accepted) → Reports w accounts request := by
  have hescapes : test (xoauth2World .no) [outlookMailbox] (.account 1) =
      .error (.raised .other) := by decide +kernel
  refine ⟨by decide +kernel, hescapes, fun h => ?_⟩
  have hreports := h (xoauth2World .no) [outlookMailbox] (.account 1) fun r hr => by cases hr
  obtain ⟨d, hd⟩ := hreports _ hescapes
  cases hd

end MailAccountService

end MailAggregator
