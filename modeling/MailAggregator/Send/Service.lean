import MailAggregator.Accounts.Schemas
import MailAggregator.OAuth.AccessToken
import MailAggregator.Send.Mime
import MailAggregator.Shared.HostGuard

set_option relaxedAutoImplicit false
set_option autoImplicit false

/-!
# Sending from a mailbox

`send_from_mailbox`: the token of an OAuth account, the message, the SMTP transaction, and the
append to the Sent folder. What the network and the libraries do is an input; which of their
exceptions become a documented error is the code's.

## Main definitions

* `MailAggregator.SmtpSession` — how an SMTP server treats a session.
* `MailAggregator.SendWorld` — what a send meets.
* `MailAggregator.SendService.smtpSendMessage`, `SendService.sendTransport`,
  `SendService.sendFromMailbox`.

## Main results

* `MailAggregator.SendService.sendTransport_delivered` — only the SMTP transaction delivers.
* `MailAggregator.SendService.sendTransport_result` — the append has no say in how a send ends.
-/

namespace MailAggregator

open PyText HostGuard

/-! ## The SMTP library -/

/-- An exception of the SMTP library, by the `except` clause it meets. -/
inductive SmtpRaised where
  | smtpException
  | timeoutError
  | osError
  /-- An exception of any other class. -/
  | other
  deriving DecidableEq, Repr

/-- How an SMTP server treats a session. -/
inductive SmtpSession where
  /-- The session breaks before the server has accepted a message. -/
  | failed (e : SmtpRaised)
  /-- `AUTH` is answered with another code than 235. -/
  | authRefused
  /-- The server gives a verdict on each recipient and takes the message for the accepted ones;
  `late` is what is raised after that. -/
  | served (verdict : Text → Bool) (late : Option SmtpRaised)

/-- What a transaction delivers, and how the call of the library ends: with the refused recipients,
or with an exception. -/
structure SmtpDelivery where
  delivered : List Text
  ended : Except SmtpRaised (List Text)

/-- `SMTP.sendmail`: the message goes to the accepted recipients, and the refused ones are returned.
If all are refused, `SMTPRecipientsRefused` is raised. -/
def sendmail (verdict : Text → Bool) (late : Option SmtpRaised) (recipients : List Text) :
    SmtpDelivery :=
  if ∀ r ∈ recipients, verdict r = false then ⟨[], .error .smtpException⟩
  else
    { delivered := recipients.filter verdict
      ended :=
        match late with
        | none => .ok (recipients.filter fun r => !verdict r)
        | some e => .error e }

/-- How a client authenticates. -/
inductive SmtpAuth where
  | login (username password : Text)
  | xoauth2 (email accessToken : Text)
  deriving DecidableEq, Repr

/-- The server a client connects to, and how. -/
structure SmtpArgs where
  hostname : Text
  port : ℕ
  useTls : Bool
  startTls : Bool
  auth : SmtpAuth
  deriving DecidableEq, Repr

/-- The IMAP server that an append goes to, and how. -/
structure AppendArgs where
  host : Text
  port : ℕ
  ssl : Bool
  auth : SmtpAuth
  deriving DecidableEq, Repr

/-! ## Errors -/

/-- What a send raises. -/
inductive SendError where
  | notFoundError
  | oauthReconsentRequiredError
  | smtpSendFailedError (message : Text)
  | invalidHostError (message : Text)
  | tokenError (e : TokenError)
  | valueError
  | unicodeError
  | invalidTag
  | assertionError
  | other
  deriving DecidableEq, Repr

/-- An exception of a header assignment. -/
def SendError.ofHeader : Mime.HeaderError → SendError
  | .valueError => .valueError
  | .other => .other

/-- The errors that are documented: 404, 409, 502 and 422. -/
def SendError.Documented : SendError → Prop
  | notFoundError | oauthReconsentRequiredError | smtpSendFailedError _ | invalidHostError _ => True
  | _ => False

/-- An exception of the host guard. -/
def SendError.ofGuard : GuardError → SendError
  | .invalidHost message => .invalidHostError message
  | .valueError => .valueError
  | .unicodeError => .unicodeError

/-- The `except` clauses around the SMTP library. -/
def SendError.ofSmtp : SmtpRaised → SendError
  | .smtpException | .timeoutError | .osError => .smtpSendFailedError "SMTP send failed".toList
  | .other => .other

/-- What a send meets. -/
structure SendWorld where
  isProd : Bool := true
  accounts : List MailAccount
  /-- The call of the token service in `_send_transport`, and the one in `smtp_send_message`. -/
  firstToken : TokenWorld
  secondToken : TokenWorld
  resolver : Resolver
  /-- What `generate_message_id` gives. -/
  messageId : Text
  /-- What the assignment of a header of the message does. -/
  store : Mime.HeaderStore
  smtp : SmtpArgs → SmtpSession
  /-- The lookup of the IMAP host before the append. -/
  appendResolver : Resolver
  /-- The append ends without an exception. -/
  append : AppendArgs → Bool

/-- How a step of a send ends, and to whom it has delivered the message. -/
structure Sending (α : Type) where
  delivered : List Text
  result : Except SendError α

/-- A step that ends before anything is delivered. -/
def Sending.refused {α : Type} (e : SendError) : Sending α := ⟨[], .error e⟩

namespace SendService

/-! ## The SMTP leg -/

/-- The IMAP password of an account, with the assertion that there is one. -/
def imapPassword (a : MailAccount) : Except SendError Text :=
  match a.encryptedPassword with
  | none => .error .assertionError
  | some blob =>
    match decryptMailPassword blob a.id with
    | none => .error .invalidTag
    | some password => .ok password

/-- The SMTP password of an account: its own, or else the IMAP password. -/
def smtpPassword (a : MailAccount) : Except SendError Text :=
  match a.smtpEncryptedPassword with
  | none => imapPassword a
  | some blob =>
    match decryptMailPassword blob a.id with
    | none => .error .invalidTag
    | some stored =>
      match Credentials.normalizeOptionalSecret (some stored) with
      | some password => .ok password
      | none => imapPassword a

/-- The SMTP login of an account. -/
def smtpUser (a : MailAccount) : Text :=
  (Credentials.normalizeOptionalLogin a.smtpUsername).getD a.email

/-- What `aiosmtplib.send` is called with on the password path. -/
def passwordArgs (a : MailAccount) (password : Text) : SmtpArgs where
  hostname := a.smtpHost
  port := a.smtpPort
  useTls := a.smtpSsl
  startTls := a.smtpStarttls
  auth := .login (smtpUser a) password

/-- What the client of `_smtp_send_oauth` is made of. -/
def oauthArgs (a : MailAccount) (accessToken : Text) : SmtpArgs where
  hostname := a.smtpHost
  port := a.smtpPort
  useTls := false
  startTls := a.smtpStarttls
  auth := .xoauth2 a.email accessToken

/-- The end of a call of the library. The refused recipients that it returns are not looked at. -/
def afterSendmail (d : SmtpDelivery) : Sending Unit where
  delivered := d.delivered
  result :=
    match d.ended with
    | .ok _ => .ok ()
    | .error e => .error (.ofSmtp e)

/-- `_smtp_send_oauth`. -/
def smtpSendOauth (session : SmtpSession) (recipients : List Text) : Sending Unit :=
  match session with
  | .failed e => .refused (.ofSmtp e)
  | .authRefused => .refused (.smtpSendFailedError "SMTP XOAUTH2 authentication failed".toList)
  | .served verdict late => afterSendmail (sendmail verdict late recipients)

/-- The call of `aiosmtplib.send` and its `except` clauses. -/
def aiosmtplibSend (session : SmtpSession) (recipients : List Text) : Sending Unit :=
  match session with
  | .failed e => .refused (.ofSmtp e)
  | .authRefused => .refused (.ofSmtp .smtpException)
  | .served verdict late => afterSendmail (sendmail verdict late recipients)

/-- `smtp_send_message`. -/
def smtpSendMessage (w : SendWorld) (a : MailAccount) (recipients : List Text) : Sending Unit :=
  match assertPublicHost w.isProd w.resolver a.smtpHost a.smtpPort with
  | .error e => .refused (.ofGuard e)
  | .ok () =>
    if a.authType = .oauthOutlook then
      if a.oauthNeedsConsent then .refused .oauthReconsentRequiredError
      else
        match OutlookTokenService.getValidAccessToken w.secondToken a with
        | .error e => .refused (.tokenError e)
        | .ok accessToken => smtpSendOauth (w.smtp (oauthArgs a accessToken)) recipients
    else
      match smtpPassword a with
      | .error e => .refused e
      | .ok password => aiosmtplibSend (w.smtp (passwordArgs a password)) recipients

/-! ## The append to the Sent folder -/

/-- The append: whether it is done. Every exception on the way is caught. -/
def appendToSent (w : SendWorld) (a : MailAccount) (accessToken : Option Text) : Bool :=
  match assertPublicHost w.isProd w.appendResolver a.imapHost a.imapPort with
  | .error _ => false
  | .ok () =>
    if a.authType = .oauthOutlook then
      match accessToken with
      | none => false
      | some token => w.append ⟨a.imapHost, a.imapPort, true, .xoauth2 a.email token⟩
    else
      match imapPassword a with
      | .error _ => false
      | .ok password => w.append ⟨a.imapHost, a.imapPort, a.imapSsl, .login a.email password⟩

/-! ## The whole send -/

/-- `_TransportResult`. -/
structure TransportResult where
  smtpMessageId : Text
  appended : Bool
  deriving DecidableEq, Repr

/-- The access token that `_send_transport` begins with, for an OAuth account. -/
def transportToken (w : SendWorld) (a : MailAccount) : Except SendError (Option Text) :=
  if a.authType = .oauthOutlook then
    if a.oauthNeedsConsent then .error .oauthReconsentRequiredError
    else
      match OutlookTokenService.getValidAccessToken w.firstToken a with
      | .error e => .error (.tokenError e)
      | .ok accessToken => .ok (some accessToken)
  else .ok none

/-- `_send_transport`. -/
def sendTransport (w : SendWorld) (a : MailAccount) (r : SendRequest) : Sending TransportResult :=
  match transportToken w a with
  | .error e => .refused e
  | .ok accessToken =>
    match Mime.buildMime w.store a.email w.messageId r with
    | .error e => .refused (.ofHeader e)
    | .ok _ =>
      match smtpSendMessage w a r.recipients with
      | ⟨delivered, .error e⟩ => ⟨delivered, .error e⟩
      | ⟨delivered, .ok ()⟩ => ⟨delivered, .ok ⟨w.messageId, appendToSent w a accessToken⟩⟩

/-- `send_from_mailbox`. -/
def sendFromMailbox (w : SendWorld) (mailAccountId : ℕ) (r : SendRequest) : Sending Text :=
  match MailAccountsRepo.getById w.accounts mailAccountId with
  | none => .refused .notFoundError
  | some a =>
    match sendTransport w a r with
    | ⟨delivered, .error e⟩ => ⟨delivered, .error e⟩
    | ⟨delivered, .ok result⟩ => ⟨delivered, .ok result.smtpMessageId⟩

/-! ## The SMTP password -/

/-- The SMTP password that a row gives: its own one if that opens and is not blank, or else the IMAP
password. -/
inductive SmtpSecret (a : MailAccount) (password : Text) : Prop
  | own {blob : Blob} {stored : Text} (hblob : a.smtpEncryptedPassword = some blob)
      (hopen : decryptMailPassword blob a.id = some stored)
      (hsecret : Credentials.normalizeOptionalSecret (some stored) = some password)
  | fallback {blob : Blob}
      (hblank : ∀ own ∈ a.smtpEncryptedPassword, ∃ stored,
        decryptMailPassword own a.id = some stored ∧
          Credentials.normalizeOptionalSecret (some stored) = none)
      (hblob : a.encryptedPassword = some blob)
      (hopen : decryptMailPassword blob a.id = some password)

theorem imapPassword_ok_iff (a : MailAccount) (password : Text) :
    imapPassword a = .ok password ↔
      ∃ blob, a.encryptedPassword = some blob ∧ decryptMailPassword blob a.id = some password := by
  rw [imapPassword]
  cases hblob : a.encryptedPassword with
  | none => simp
  | some blob => cases hopen : decryptMailPassword blob a.id <;> simp [hopen]

/-- **When a row gives an SMTP password.**

**Proof sketch.** A row with an SMTP secret of its own gives that secret, if it opens and is not
blank, and otherwise the IMAP password; a row without one gives the IMAP password. These are the
constructors of `SmtpSecret`. -/
theorem smtpPassword_ok_iff (a : MailAccount) (password : Text) :
    smtpPassword a = .ok password ↔ SmtpSecret a password := by
  rw [smtpPassword]
  constructor
  · intro h
    cases hown : a.smtpEncryptedPassword with
    | none =>
      rw [hown] at h
      obtain ⟨blob, hblob, hopen⟩ := (imapPassword_ok_iff a password).mp h
      exact .fallback (by simp [hown]) hblob hopen
    | some own =>
      rw [hown] at h
      cases hstored : decryptMailPassword own a.id with
      | none => simp only [hstored] at h; cases h
      | some stored =>
        simp only [hstored] at h
        cases hsecret : Credentials.normalizeOptionalSecret (some stored) with
        | none =>
          rw [hsecret] at h
          obtain ⟨blob, hblob, hopen⟩ := (imapPassword_ok_iff a password).mp h
          exact .fallback (by simp [hown, hstored, hsecret]) hblob hopen
        | some secret =>
          rw [hsecret] at h
          cases h
          exact .own hown hstored hsecret
  · intro h
    cases h with
    | own hblob hopen hsecret => simp only [hblob, hopen, hsecret]
    | fallback hblank hblob hopen =>
      have himap := (imapPassword_ok_iff a password).mpr ⟨_, hblob, hopen⟩
      cases hown : a.smtpEncryptedPassword with
      | none => exact himap
      | some own =>
        obtain ⟨stored, hstored, hnone⟩ := hblank own hown
        simp only [hstored, hnone]
        exact himap

/-! ## The session that a send reaches -/

/-- The account is an OAuth account that needs consent. -/
def NeedsConsent (a : MailAccount) : Prop :=
  a.authType = .oauthOutlook ∧ a.oauthNeedsConsent = true

/-- The guard accepts the SMTP host. -/
def GuardAccepts (w : SendWorld) (a : MailAccount) : Prop :=
  assertPublicHost w.isProd w.resolver a.smtpHost a.smtpPort = .ok ()

/-- **The session that the SMTP leg comes to**, on the two paths. -/
inductive Reaches (w : SendWorld) (a : MailAccount) : SmtpSession → Prop
  | xoauth2 {accessToken : Text} (hguard : GuardAccepts w a) (hauth : a.authType = .oauthOutlook)
      (hconsent : a.oauthNeedsConsent = false)
      (htoken : OutlookTokenService.Obtains w.secondToken a accessToken) :
      Reaches w a (w.smtp (oauthArgs a accessToken))
  | login {password : Text} (hguard : GuardAccepts w a) (hauth : a.authType ≠ .oauthOutlook)
      (hsecret : SmtpSecret a password) : Reaches w a (w.smtp (passwordArgs a password))

variable {w : SendWorld} {a : MailAccount}

/-- **What the SMTP leg does in the session it comes to.** -/
theorem smtpSendMessage_of_reaches (recipients : List Text) {session : SmtpSession}
    (h : Reaches w a session) :
    smtpSendMessage w a recipients = smtpSendOauth session recipients ∨
      smtpSendMessage w a recipients = aiosmtplibSend session recipients := by
  cases h with
  | xoauth2 hguard hauth hconsent htoken =>
    refine Or.inl ?_
    have hok := (OutlookTokenService.getValidAccessToken_ok_iff hauth _).mpr htoken
    have haccepts : assertPublicHost w.isProd w.resolver a.smtpHost a.smtpPort = .ok () := hguard
    simp only [smtpSendMessage, haccepts, if_pos hauth, hconsent, hok]
    rfl
  | login hguard hauth hsecret =>
    refine Or.inr ?_
    have hok := (smtpPassword_ok_iff a _).mpr hsecret
    have haccepts : assertPublicHost w.isProd w.resolver a.smtpHost a.smtpPort = .ok () := hguard
    simp only [smtpSendMessage, haccepts, if_neg hauth, hok]

/-- A transaction with a verdict on each recipient ends in the same way on both paths. -/
theorem smtpSendMessage_of_served (recipients : List Text) {verdict : Text → Bool}
    {late : Option SmtpRaised} (h : Reaches w a (.served verdict late)) :
    smtpSendMessage w a recipients = afterSendmail (sendmail verdict late recipients) := by
  rcases smtpSendMessage_of_reaches recipients h with heq | heq
  · exact heq
  · exact heq

/-- A session that fails delivers nothing. -/
theorem smtpSendMessage_of_failed (recipients : List Text) {e : SmtpRaised}
    (h : Reaches w a (.failed e)) :
    smtpSendMessage w a recipients = .refused (.ofSmtp e) := by
  rcases smtpSendMessage_of_reaches recipients h with heq | heq
  · exact heq
  · exact heq

/-- A session that refuses the login is a documented failure. -/
theorem smtpSendMessage_of_authRefused (recipients : List Text) (h : Reaches w a .authRefused) :
    ∃ message, smtpSendMessage w a recipients = .refused (.smtpSendFailedError message) := by
  rcases smtpSendMessage_of_reaches recipients h with heq | heq
  · exact ⟨_, heq⟩
  · exact ⟨_, heq⟩

/-- **What keeps the SMTP leg from a session.** -/
inductive Stopped (w : SendWorld) (a : MailAccount) : SendError → Prop
  | guard {e : GuardError}
      (hguard : assertPublicHost w.isProd w.resolver a.smtpHost a.smtpPort = .error e) :
      Stopped w a (.ofGuard e)
  | consent (hguard : GuardAccepts w a) (hneeds : NeedsConsent a) :
      Stopped w a .oauthReconsentRequiredError
  | token {e : TokenError} (hguard : GuardAccepts w a) (hauth : a.authType = .oauthOutlook)
      (hnone : ∀ accessToken, ¬ OutlookTokenService.Obtains w.secondToken a accessToken) :
      Stopped w a (.tokenError e)
  | secret {e : SendError} (hguard : GuardAccepts w a) (hauth : a.authType ≠ .oauthOutlook)
      (hnone : ∀ password, ¬ SmtpSecret a password) (he : e = .assertionError ∨ e = .invalidTag) :
      Stopped w a e

theorem imapPassword_error_cases {e : SendError} (h : imapPassword a = .error e) :
    e = .assertionError ∨ e = .invalidTag := by
  rw [imapPassword] at h
  cases hblob : a.encryptedPassword with
  | none => rw [hblob] at h; cases h; exact Or.inl rfl
  | some blob =>
    rw [hblob] at h
    cases hopen : decryptMailPassword blob a.id with
    | none => simp only [hopen] at h; cases h; exact Or.inr rfl
    | some password => simp only [hopen] at h; cases h

theorem smtpPassword_error_cases {e : SendError} (h : smtpPassword a = .error e) :
    e = .assertionError ∨ e = .invalidTag := by
  rw [smtpPassword] at h
  cases hown : a.smtpEncryptedPassword with
  | none => rw [hown] at h; exact imapPassword_error_cases h
  | some own =>
    rw [hown] at h
    cases hstored : decryptMailPassword own a.id with
    | none => simp only [hstored] at h; cases h; exact Or.inr rfl
    | some stored =>
      simp only [hstored] at h
      cases hsecret : Credentials.normalizeOptionalSecret (some stored) with
      | none => rw [hsecret] at h; exact imapPassword_error_cases h
      | some secret => rw [hsecret] at h; cases h

/-- **The SMTP leg comes to a session, or is stopped before it and delivers nothing.**

**Proof sketch.** Along the branches of the leg: the guard, the consent, the token or the stored
secret. Each of them either stops the leg with an error, before anything is sent, or lets it come to
the session that belongs to the kind of the account. -/
theorem reaches_or_stopped (w : SendWorld) (a : MailAccount) (recipients : List Text) :
    (∃ session, Reaches w a session) ∨
      ∃ e, Stopped w a e ∧ smtpSendMessage w a recipients = .refused e := by
  rw [smtpSendMessage]
  cases hguard : assertPublicHost w.isProd w.resolver a.smtpHost a.smtpPort with
  | error e => exact Or.inr ⟨_, .guard hguard, rfl⟩
  | ok u =>
    by_cases hauth : a.authType = .oauthOutlook
    · simp only [if_pos hauth]
      cases hconsent : a.oauthNeedsConsent with
      | true => exact Or.inr ⟨_, .consent hguard ⟨hauth, hconsent⟩, rfl⟩
      | false =>
        cases htoken : OutlookTokenService.getValidAccessToken w.secondToken a with
        | ok accessToken =>
          have hobtains :=
            (OutlookTokenService.getValidAccessToken_ok_iff hauth accessToken).mp htoken
          exact Or.inl ⟨_, .xoauth2 hguard hauth hconsent hobtains⟩
        | error e =>
          refine Or.inr ⟨_, .token hguard hauth fun accessToken hobtains => ?_, rfl⟩
          rw [(OutlookTokenService.getValidAccessToken_ok_iff hauth accessToken).mpr hobtains]
            at htoken
          cases htoken
    · simp only [if_neg hauth]
      cases hsecret : smtpPassword a with
      | ok password =>
        exact Or.inl ⟨_, .login hguard hauth ((smtpPassword_ok_iff a password).mp hsecret)⟩
      | error e =>
        refine Or.inr ⟨_, .secret hguard hauth (fun password h => ?_)
          (smtpPassword_error_cases hsecret), rfl⟩
        rw [(smtpPassword_ok_iff a password).mpr h] at hsecret
        cases hsecret

/-! ## What a send comes to -/

/-- An OAuth account that needs no consent has an access token to begin with. -/
def TokenReady (w : SendWorld) (a : MailAccount) : Prop :=
  a.authType = .oauthOutlook → a.oauthNeedsConsent = false →
    ∃ accessToken, OutlookTokenService.Obtains w.firstToken a accessToken

/-- Each header of the message can be assigned. -/
def Headable (w : SendWorld) (a : MailAccount) (r : SendRequest) : Prop :=
  ∀ header ∈ Mime.headers a.email w.messageId r, Mime.Assignable w.store header

/-- **What a send that comes to the SMTP leg has behind it.** -/
structure Prepared (w : SendWorld) (a : MailAccount) (r : SendRequest) : Prop where
  consent : ¬ NeedsConsent a
  token : TokenReady w a
  headers : Headable w a r

theorem transportToken_ok_iff (w : SendWorld) (a : MailAccount) :
    (∃ accessToken, transportToken w a = .ok accessToken) ↔ ¬ NeedsConsent a ∧ TokenReady w a := by
  rw [transportToken, NeedsConsent, TokenReady]
  by_cases hauth : a.authType = .oauthOutlook
  · rw [if_pos hauth]
    cases hconsent : a.oauthNeedsConsent with
    | true => simp [hauth]
    | false =>
      simp only [Bool.false_eq_true, if_false, hauth, and_false, not_false_eq_true, true_and,
        forall_const, ← OutlookTokenService.getValidAccessToken_ok_iff hauth]
      cases OutlookTokenService.getValidAccessToken w.firstToken a <;> simp
  · simp [hauth]

/-- **Only the SMTP leg delivers**: after the preparation, a send delivers what the leg does. -/
theorem sendTransport_delivered {r : SendRequest} (h : Prepared w a r) :
    (sendTransport w a r).delivered = (smtpSendMessage w a r.recipients).delivered := by
  obtain ⟨accessToken, htoken⟩ := (transportToken_ok_iff w a).mpr ⟨h.consent, h.token⟩
  obtain ⟨msg, hmsg⟩ := (Mime.buildMime_ok_iff a.email w.messageId r).mpr h.headers
  simp only [sendTransport, htoken, hmsg]
  rcases smtpSendMessage w a r.recipients with ⟨delivered, e | u⟩
  · rfl
  · rfl

/-- **The append has no say in how a send ends**: after the preparation, a send ends as the SMTP leg
does. -/
theorem sendTransport_result {r : SendRequest} (h : Prepared w a r) :
    (sendTransport w a r).result.map TransportResult.smtpMessageId =
      (smtpSendMessage w a r.recipients).result.map fun _ => w.messageId := by
  obtain ⟨accessToken, htoken⟩ := (transportToken_ok_iff w a).mpr ⟨h.consent, h.token⟩
  obtain ⟨msg, hmsg⟩ := (Mime.buildMime_ok_iff a.email w.messageId r).mpr h.headers
  simp only [sendTransport, htoken, hmsg]
  rcases smtpSendMessage w a r.recipients with ⟨delivered, e | u⟩
  · rfl
  · rfl

end SendService

end MailAggregator
