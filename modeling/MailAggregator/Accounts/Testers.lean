import MailAggregator.Accounts.Schemas

set_option relaxedAutoImplicit false
set_option autoImplicit false

/-!
# Login probes and domain errors

The probe of a set of credentials: the SSRF guard and a login, for IMAP and then for SMTP, under one
deadline. What the libraries raise is an input; which of it becomes a domain error is the code's.

## Main definitions

* `MailAggregator.DomainError` — an error with a documented status.
* `MailAggregator.MailServers` — what the network and the libraries answer.
* `MailAggregator.Testers.testCredentials` — the probe.
-/

namespace MailAggregator

open PyText

/-! ## Domain errors -/

/-- The domain errors that the mailbox update and the connection test can meet. -/
inductive DomainErrorClass where
  | notFound
  | conflict
  | validation
  | imapLoginFailed
  | smtpLoginFailed
  | invalidHost
  | dependencyUnavailable
  | oauthReconsentRequired
  deriving DecidableEq, Repr

/-- The HTTP status of an error. -/
def DomainErrorClass.statusCode : DomainErrorClass → ℕ
  | notFound => 404
  | conflict | oauthReconsentRequired => 409
  | validation => 400
  | imapLoginFailed | smtpLoginFailed | invalidHost => 422
  | dependencyUnavailable => 503

/-- The `code` of an error. -/
def DomainErrorClass.code : DomainErrorClass → Text
  | notFound => "not_found".toList
  | conflict => "conflict".toList
  | validation => "validation_error".toList
  | imapLoginFailed => "imap_login_failed".toList
  | smtpLoginFailed => "smtp_login_failed".toList
  | invalidHost => "invalid_host".toList
  | dependencyUnavailable => "dependency_unavailable".toList
  | oauthReconsentRequired => "oauth_reconsent_required".toList

/-- `DomainError`. -/
structure DomainError where
  errorClass : DomainErrorClass
  message : Text
  field : Option Text := none
  deriving DecidableEq, Repr

/-- `NotFoundError()`: without a message, the code is the message. -/
def notFoundError : DomainError :=
  { errorClass := .notFound, message := DomainErrorClass.notFound.code }

namespace Testers

/-! ## What the libraries raise -/

/-- An exception in the course of a probe, by the `except` clause it meets. -/
inductive Raised where
  | domainError (e : DomainError)
  | mailboxLoginError
  | mailboxFolderSelectError
  | smtpAuthenticationError
  | smtpException
  | timeoutError
  | osError
  /-- An exception of any other class. -/
  | other
  deriving DecidableEq, Repr

/-- How a login ends: the library raises or not, or the `wait_for` of the stage runs out. -/
inductive LoginEnd where
  | ok
  | raised (e : Raised)
  | waitForTimeout
  deriving DecidableEq, Repr

/-- The answer of the resolver. -/
inductive Resolution where
  | publicAddresses
  | privateAddress
  | unresolvable
  | raised (e : Raised)
  deriving DecidableEq, Repr

/-- `ProbeStageName`. -/
inductive Stage where
  | imap
  | smtp
  deriving DecidableEq, Repr

end Testers

open Testers

/-- The network, as a probe meets it. -/
structure MailServers where
  isProd : Bool := true
  resolve : Text → Resolution
  imapLogin : (host : Text) → (port : ℕ) → (ssl : Bool) → (username password : Text) → LoginEnd
  smtpLogin : (host : Text) → (port : ℕ) → (ssl starttls : Bool) → (username password : Text) →
    LoginEnd
  /-- The stage in which `MAILBOX_TEST_DEADLINE_SECONDS` runs out. -/
  deadline : Option Stage := none

namespace Testers

section Probe

variable (servers : MailServers)

/-- An `InvalidHostError`. -/
def invalidHostError (message : String) : Raised :=
  .domainError { errorClass := .invalidHost, message := message.toList }

/-- An `IMAPLoginFailedError`. -/
def imapLoginFailedError (message : String) : Raised :=
  .domainError { errorClass := .imapLoginFailed, message := message.toList }

/-- An `SMTPLoginFailedError`. -/
def smtpLoginFailedError (message : String) : Raised :=
  .domainError { errorClass := .smtpLoginFailed, message := message.toList }

/-- `assert_public_host`. -/
def assertPublicHost (host : Text) (port : ℕ) : Except Raised Unit :=
  if host = [] then .error (invalidHostError "host must be a non-empty string")
  else if ¬ PortOk (some port) then .error (invalidHostError "port must be in 1..65535")
  else if ¬ servers.isProd then .ok ()
  else
    match servers.resolve host with
    | .publicAddresses => .ok ()
    | .privateAddress =>
      .error (invalidHostError "Host resolves to a private/internal address")
    | .unresolvable => .error (invalidHostError "Could not resolve host")
    | .raised e => .error e

/-- The `except` clauses of `_imap_login_blocking`. -/
def imapLoginError : Raised → Raised
  | .mailboxLoginError => imapLoginFailedError "IMAP login failed"
  | .mailboxFolderSelectError => imapLoginFailedError "Cannot select INBOX"
  | .timeoutError | .osError => imapLoginFailedError "Could not connect to IMAP server"
  | e => e

/-- What `imap_test_login` makes of the end of a login. -/
def imapLoginResult : LoginEnd → Except Raised Unit
  | .ok => .ok ()
  | .raised e => .error (imapLoginError e)
  | .waitForTimeout => .error (imapLoginFailedError "IMAP login timed out")

/-- One step after another; an exception of the first ends both. -/
def andThen (first second : Except Raised Unit) : Except Raised Unit :=
  match first with
  | .error e => .error e
  | .ok () => second

/-- `imap_test_login`. -/
def imapTestLogin (host : Text) (port : ℕ) (ssl : Bool) (username password : Text) :
    Except Raised Unit :=
  andThen (assertPublicHost servers host port)
    (imapLoginResult (servers.imapLogin host port ssl username password))

/-- The `except` clauses of `_smtp_login_probe`. -/
def smtpLoginError : Raised → Raised
  | .smtpAuthenticationError => smtpLoginFailedError "SMTP authentication failed"
  | .smtpException | .timeoutError | .osError =>
    smtpLoginFailedError "Could not connect to SMTP server"
  | e => e

/-- What `smtp_test_login` makes of the end of a login. -/
def smtpLoginResult : LoginEnd → Except Raised Unit
  | .ok => .ok ()
  | .raised e => .error (smtpLoginError e)
  | .waitForTimeout => .error (smtpLoginFailedError "SMTP login timed out")

/-- `smtp_test_login`. -/
def smtpTestLogin (host : Text) (port : ℕ) (ssl starttls : Bool) (username password : Text) :
    Except Raised Unit :=
  andThen (assertPublicHost servers host port)
    (if ssl ∧ starttls then
      .error (smtpLoginFailedError "smtp_ssl and smtp_starttls are mutually exclusive")
    else smtpLoginResult (servers.smtpLogin host port ssl starttls username password))

/-- `_deadline_error`. -/
def deadlineError : Stage → Raised
  | .imap => imapLoginFailedError "IMAP connection test timed out"
  | .smtp => smtpLoginFailedError "SMTP connection test timed out"

/-- A stage under the deadline: whatever `TimeoutError` gets out of it counts as the deadline. -/
def withDeadline (stage : Stage) (run : Except Raised Unit) : Except Raised Unit :=
  if servers.deadline = some stage then .error (deadlineError stage)
  else
    match run with
    | .error .timeoutError => .error (deadlineError stage)
    | r => r

/-- `_test_credentials`, of an accepted request. Without SMTP credentials the address and the IMAP
password are used. -/
def testCredentials (r : MailAccountTestRequest) : Except Raised Unit :=
  andThen
    (withDeadline servers .imap
      (imapTestLogin servers r.imapHost r.imapPort r.imapSsl r.email r.password))
    (withDeadline servers .smtp
      (smtpTestLogin servers r.smtpHost r.smtpPort r.smtpSsl r.smtpStarttls
        ((Credentials.normalizeOptionalLogin r.smtpUsername).getD r.email)
        ((Credentials.normalizeOptionalSecret r.smtpPassword).getD r.password)))

end Probe

end Testers

end MailAggregator
