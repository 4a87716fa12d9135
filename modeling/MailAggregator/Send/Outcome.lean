import MailAggregator.Send.Service

set_option relaxedAutoImplicit false
set_option autoImplicit false

/-!
# How a send ends

A send should end with a Message-ID exactly when the SMTP server took the message, and otherwise
with one of four documented errors; and it should end well only if the server took the message for
every recipient. Neither holds of every send. The errors of the token service, of the cipher and of
the header assignment have no handler, what the library raises after the message was taken turns a
success into an error, and the refused recipients that the library returns are dropped.

## Main definitions

* `MailAggregator.SendService.Closed` — the send ends in a documented way.
* `MailAggregator.SendService.Settled` — what a send meets raises nothing undocumented.
* `MailAggregator.SendService.NoneDropped` — no recipient is dropped.
* `MailAggregator.SendService.Attempt` — the verdicts that a send comes to.

## Main results

* `MailAggregator.SendService.closed_iff`, `MailAggregator.SendService.noneDropped_iff` — exactly
  when a send is closed, and when it drops nobody.
-/

namespace MailAggregator

open PyText HostGuard

namespace SendService

variable {w : SendWorld} {a : MailAccount} {mailAccountId : ℕ} {r : SendRequest}

/-! ## The stages of a send -/

theorem sendFromMailbox_of_none (h : MailAccountsRepo.getById w.accounts mailAccountId = none) :
    sendFromMailbox w mailAccountId r = .refused .notFoundError := by
  rw [sendFromMailbox, h]

theorem sendFromMailbox_of_needsConsent
    (h : MailAccountsRepo.getById w.accounts mailAccountId = some a) (hneeds : NeedsConsent a) :
    sendFromMailbox w mailAccountId r = .refused .oauthReconsentRequiredError := by
  have htoken : transportToken w a = .error .oauthReconsentRequiredError := by
    rw [transportToken, if_pos hneeds.1, if_pos hneeds.2]
  simp only [sendFromMailbox, h, sendTransport, htoken]
  rfl

/-- Without a token to begin with, the error of the token service gets out. -/
theorem sendFromMailbox_of_not_tokenReady
    (h : MailAccountsRepo.getById w.accounts mailAccountId = some a) (hready : ¬ TokenReady w a) :
    ∃ e, sendFromMailbox w mailAccountId r = .refused (.tokenError e) := by
  rw [TokenReady] at hready
  push Not at hready
  obtain ⟨hauth, hconsent, hnone⟩ := hready
  cases htoken : OutlookTokenService.getValidAccessToken w.firstToken a with
  | ok accessToken =>
    exact absurd ((OutlookTokenService.getValidAccessToken_ok_iff hauth accessToken).mp htoken)
      (hnone accessToken)
  | error e =>
    have hfirst : transportToken w a = .error (.tokenError e) := by
      simp only [transportToken, if_pos hauth, hconsent, htoken]
      rfl
    refine ⟨e, ?_⟩
    simp only [sendFromMailbox, h, sendTransport, hfirst]
    rfl

/-- What the assignment of a header raises gets out. -/
theorem sendFromMailbox_of_not_headable
    (h : MailAccountsRepo.getById w.accounts mailAccountId = some a) (hneeds : ¬ NeedsConsent a)
    (hready : TokenReady w a) (hheaders : ¬ Headable w a r) :
    ∃ e, sendFromMailbox w mailAccountId r = .refused (.ofHeader e) := by
  obtain ⟨accessToken, htoken⟩ := (transportToken_ok_iff w a).mpr ⟨hneeds, hready⟩
  cases hmime : Mime.buildMime w.store a.email w.messageId r with
  | ok msg => exact absurd ((Mime.buildMime_ok_iff a.email w.messageId r).mp ⟨msg, hmime⟩) hheaders
  | error e =>
    refine ⟨e, ?_⟩
    simp only [sendFromMailbox, h, sendTransport, htoken, hmime]
    rfl

theorem not_documented_ofHeader (e : Mime.HeaderError) : ¬ (SendError.ofHeader e).Documented := by
  cases e with
  | valueError => exact id
  | other => exact id

/-- After the preparation, a send delivers and ends as the SMTP leg does. -/
theorem sendFromMailbox_of_prepared
    (h : MailAccountsRepo.getById w.accounts mailAccountId = some a) (hprep : Prepared w a r) :
    sendFromMailbox w mailAccountId r =
      ⟨(smtpSendMessage w a r.recipients).delivered,
        (smtpSendMessage w a r.recipients).result.map fun _ => w.messageId⟩ := by
  rw [← sendTransport_delivered hprep, ← sendTransport_result hprep, sendFromMailbox, h]
  rcases hsend : sendTransport w a r with ⟨delivered, e | result⟩
  · simp only [hsend]; rfl
  · simp only [hsend]; rfl

/-! ## The documented outcomes -/

/-- **The send is closed**: an error is a documented one, and there is a Message-ID exactly when the
SMTP server took the message. -/
structure Closed (w : SendWorld) (mailAccountId : ℕ) (r : SendRequest) : Prop where
  documented : ∀ e, (sendFromMailbox w mailAccountId r).result = .error e → e.Documented
  accepted : (sendFromMailbox w mailAccountId r).result = .ok w.messageId ↔
    (sendFromMailbox w mailAccountId r).delivered ≠ []

/-- A session that ends with an exception of the library, or with no exception after the message was
taken. -/
def Conclusive (recipients : List Text) : SmtpSession → Prop
  | .failed e => e ≠ .other
  | .authRefused => True
  | .served verdict late => late = none ∨ ∀ address ∈ recipients, verdict address = false

/-- **What a send meets raises nothing undocumented**: there is a token to begin with, each header
of the message can be assigned, the guard of the SMTP host raises its own error if any, and behind
it is a conclusive session. -/
structure Settled (w : SendWorld) (a : MailAccount) (r : SendRequest) : Prop where
  token : TokenReady w a
  headers : Headable w a r
  guard : ∀ e, assertPublicHost w.isProd w.resolver a.smtpHost a.smtpPort = .error e →
    ∃ message, e = .invalidHost message
  session : GuardAccepts w a → ∃ session, Reaches w a session ∧ Conclusive r.recipients session

/-- A step that ends in a documented way, and well exactly when it has delivered. -/
def ClosedLeg (leg : Sending Unit) : Prop :=
  (∀ e, leg.result = .error e → e.Documented) ∧ (leg.result = .ok () ↔ leg.delivered ≠ [])

theorem closedLeg_refused_iff (e : SendError) : ClosedLeg (.refused e) ↔ e.Documented := by
  simp [ClosedLeg, Sending.refused]

/-- A library call is closed exactly when nothing is raised after the message was taken. -/
theorem closedLeg_afterSendmail_iff (verdict : Text → Bool) (late : Option SmtpRaised)
    (recipients : List Text) :
    ClosedLeg (afterSendmail (sendmail verdict late recipients)) ↔
      late = none ∨ ∀ address ∈ recipients, verdict address = false := by
  rw [sendmail.eq_def]
  by_cases hall : ∀ address ∈ recipients, verdict address = false
  · rw [if_pos hall]
    exact iff_of_true ((closedLeg_refused_iff _).mpr trivial) (Or.inr hall)
  · rw [if_neg hall, or_iff_left hall]
    have hsome : recipients.filter verdict ≠ [] := by
      intro hnil
      refine hall fun address hmem => ?_
      have := List.filter_eq_nil_iff.mp hnil address hmem
      simpa using this
    cases late with
    | none =>
      refine iff_of_true ⟨fun e he => ?_, fun _ => hsome, fun _ => rfl⟩ rfl
      cases he
    | some e =>
      refine iff_of_false (fun h => ?_) (Option.some_ne_none e)
      have hok := h.2.mpr hsome
      cases hok

/-- **The SMTP leg is closed exactly in a conclusive session.** -/
theorem closedLeg_of_reaches (recipients : List Text) {session : SmtpSession}
    (h : Reaches w a session) :
    ClosedLeg (smtpSendMessage w a recipients) ↔ Conclusive recipients session := by
  cases session with
  | failed e =>
    rw [smtpSendMessage_of_failed recipients h, closedLeg_refused_iff]
    cases e <;> simp [SendError.ofSmtp, SendError.Documented, Conclusive]
  | authRefused =>
    obtain ⟨message, hrefused⟩ := smtpSendMessage_of_authRefused recipients h
    rw [hrefused, closedLeg_refused_iff]
    exact iff_of_true trivial trivial
  | served verdict late =>
    rw [smtpSendMessage_of_served recipients h]
    exact closedLeg_afterSendmail_iff verdict late recipients

/-- What stops the leg is documented exactly when it is the guard, with its own error.

**Proof sketch.** By what stops the leg. The guard stops it with an error of its own or with another
one, and only the first is documented. Behind the guard a stop is a token or a secret that is
missing, none of which is documented, and then there is no session either; a missing consent is
excluded. -/
theorem documented_of_stopped (recipients : List Text) {e : SendError} (h : Stopped w a e)
    (hneeds : ¬ NeedsConsent a) :
    e.Documented ↔
      (∀ e, assertPublicHost w.isProd w.resolver a.smtpHost a.smtpPort = .error e →
        ∃ message, e = .invalidHost message) ∧
      (GuardAccepts w a → ∃ session, Reaches w a session ∧ Conclusive recipients session) := by
  cases h with
  | @guard raised hguard =>
    have hnot : ¬ GuardAccepts w a := by
      intro haccepts
      rw [GuardAccepts, hguard] at haccepts
      cases haccepts
    simp only [hnot, false_imp_iff, and_true, hguard, Except.error.injEq, forall_eq']
    cases raised <;> simp [SendError.ofGuard, SendError.Documented]
  | consent hguard hconsent => exact absurd hconsent hneeds
  | token hguard hauth hnone =>
    refine iff_of_false id fun h => ?_
    obtain ⟨session, hreaches, -⟩ := h.2 hguard
    cases hreaches with
    | xoauth2 _ _ _ htoken => exact hnone _ htoken
    | login _ hnot _ => exact hnot hauth
  | secret hguard hauth hnone he =>
    refine iff_of_false ?_ fun h => ?_
    · rcases he with rfl | rfl
      · exact id
      · exact id
    · obtain ⟨session, hreaches, -⟩ := h.2 hguard
      cases hreaches with
      | xoauth2 _ hoauth _ _ => exact hauth hoauth
      | login _ _ hsecret => exact hnone _ hsecret

/-- After the preparation, a send is closed exactly when the SMTP leg is. -/
theorem closed_of_prepared (h : MailAccountsRepo.getById w.accounts mailAccountId = some a)
    (hprep : Prepared w a r) :
    Closed w mailAccountId r ↔ ClosedLeg (smtpSendMessage w a r.recipients) := by
  have hsend := sendFromMailbox_of_prepared h hprep
  have herror (e : SendError) : (sendFromMailbox w mailAccountId r).result = .error e ↔
      (smtpSendMessage w a r.recipients).result = .error e := by
    rw [hsend]
    cases (smtpSendMessage w a r.recipients).result <;> simp [Except.map]
  have hok : (sendFromMailbox w mailAccountId r).result = .ok w.messageId ↔
      (smtpSendMessage w a r.recipients).result = .ok () := by
    rw [hsend]
    cases (smtpSendMessage w a r.recipients).result <;> simp [Except.map]
  have hdelivered : (sendFromMailbox w mailAccountId r).delivered =
      (smtpSendMessage w a r.recipients).delivered := by
    rw [hsend]
  rw [ClosedLeg]
  constructor
  · rintro ⟨hdocumented, haccepted⟩
    simp only [herror, hok, hdelivered] at hdocumented haccepted
    exact ⟨hdocumented, haccepted⟩
  · rintro ⟨hdocumented, haccepted⟩
    constructor
    · simpa only [herror] using hdocumented
    · simpa only [hok, hdelivered] using haccepted

/-- A send that ends before the SMTP leg is closed exactly when its error is documented. -/
theorem closed_of_refused {e : SendError} (h : sendFromMailbox w mailAccountId r = .refused e) :
    Closed w mailAccountId r ↔ e.Documented := by
  constructor
  · intro hclosed
    exact hclosed.documented e (by rw [h]; rfl)
  · intro hdocumented
    refine ⟨fun e' he' => ?_, ?_⟩
    · rw [h] at he'
      cases he'
      exact hdocumented
    · rw [h]
      simp [Sending.refused]

/-- **A send is closed exactly when it meets no undocumented exception**: there is no such account,
or the account needs consent, or what the send meets is settled.

**Proof sketch.** The stages one after another. The first that fails decides: a missing account and
a missing consent are documented, a missing token and a header that is not assigned are not. After
them the send ends as the SMTP leg, which is stopped or comes to a session. -/
theorem closed_iff (w : SendWorld) (mailAccountId : ℕ) (r : SendRequest) :
    Closed w mailAccountId r ↔
      ∀ a, MailAccountsRepo.getById w.accounts mailAccountId = some a →
        ¬ NeedsConsent a → Settled w a r := by
  cases hget : MailAccountsRepo.getById w.accounts mailAccountId with
  | none =>
    refine iff_of_true ((closed_of_refused (sendFromMailbox_of_none hget)).mpr trivial) ?_
    intro a ha
    cases ha
  | some a =>
    simp only [Option.some.injEq, forall_eq']
    by_cases hneeds : NeedsConsent a
    · exact iff_of_true
        ((closed_of_refused (sendFromMailbox_of_needsConsent hget hneeds)).mpr trivial)
        fun h => absurd hneeds h
    · rw [forall_prop_of_true hneeds]
      by_cases hready : TokenReady w a
      · by_cases hheaders : Headable w a r
        · rw [closed_of_prepared hget ⟨hneeds, hready, hheaders⟩]
          rcases reaches_or_stopped w a r.recipients with ⟨session, hreaches⟩ | ⟨e, hstop, heq⟩
          · have haccepts : GuardAccepts w a := by
              cases hreaches with
              | xoauth2 hguard => exact hguard
              | login hguard => exact hguard
            constructor
            · intro hclosed
              refine ⟨hready, hheaders, fun e he => ?_, fun _ =>
                ⟨session, hreaches, (closedLeg_of_reaches r.recipients hreaches).mp hclosed⟩⟩
              rw [GuardAccepts, he] at haccepts
              cases haccepts
            · intro hsettled
              obtain ⟨session', hreaches', hconclusive⟩ := hsettled.session haccepts
              exact (closedLeg_of_reaches r.recipients hreaches').mpr hconclusive
          · rw [heq, closedLeg_refused_iff,
              documented_of_stopped r.recipients hstop hneeds]
            exact ⟨fun h => ⟨hready, hheaders, h.1, h.2⟩, fun h => ⟨h.guard, h.session⟩⟩
        · obtain ⟨e, he⟩ := sendFromMailbox_of_not_headable hget hneeds hready hheaders
          rw [closed_of_refused he]
          exact iff_of_false (not_documented_ofHeader e) fun h => hheaders h.headers
      · obtain ⟨e, he⟩ := sendFromMailbox_of_not_tokenReady (r := r) hget hready
        rw [closed_of_refused he]
        exact iff_of_false id fun h => hready h.token

/-! ## The recipients -/

/-- **The verdicts that a send comes to**: it is prepared, and the server takes the message for the
accepted recipients without an exception after that. -/
def Attempt (w : SendWorld) (mailAccountId : ℕ) (r : SendRequest) (verdict : Text → Bool) : Prop :=
  ∃ a, MailAccountsRepo.getById w.accounts mailAccountId = some a ∧ Prepared w a r ∧
    Reaches w a (.served verdict none)

/-- **No recipient is dropped**: a success means that the server took the message for each of them,
and verdicts that refuse one of them make a send failure. -/
structure NoneDropped (w : SendWorld) (mailAccountId : ℕ) (r : SendRequest) : Prop where
  accepted : ∀ messageId, (sendFromMailbox w mailAccountId r).result = .ok messageId →
    ∀ address ∈ r.recipients, address ∈ (sendFromMailbox w mailAccountId r).delivered
  reported : ∀ verdict, Attempt w mailAccountId r verdict →
    (∃ address ∈ r.recipients, verdict address = false) →
    ∃ message, (sendFromMailbox w mailAccountId r).result = .error (.smtpSendFailedError message)

/-- Verdicts that accept one recipient and refuse another. -/
def Mixed (verdict : Text → Bool) (recipients : List Text) : Prop :=
  (∃ address ∈ recipients, verdict address = true) ∧ ∃ address ∈ recipients, verdict address = false

/-- A send that comes to verdicts ends as the library call does. -/
theorem sendFromMailbox_of_attempt {verdict : Text → Bool}
    (h : Attempt w mailAccountId r verdict) :
    sendFromMailbox w mailAccountId r =
      ⟨(afterSendmail (sendmail verdict none r.recipients)).delivered,
        (afterSendmail (sendmail verdict none r.recipients)).result.map fun _ => w.messageId⟩ := by
  obtain ⟨a, hget, hprep, hreaches⟩ := h
  rw [sendFromMailbox_of_prepared hget hprep, smtpSendMessage_of_served r.recipients hreaches]

/-- Only a send that comes to verdicts without an exception ends well.

**Proof sketch.** The stages one after another: without an account, without consent, without a
token, or with a header that is not assigned, the send ends with an error. So does a leg that is
stopped, and a session that fails, is refused, or serves with a late exception or with no recipient
taken. What is left is an attempt with a verdict that takes one. -/
theorem attempt_of_ok {messageId : Text}
    (h : (sendFromMailbox w mailAccountId r).result = .ok messageId) :
    ∃ verdict, Attempt w mailAccountId r verdict ∧
      ∃ address ∈ r.recipients, verdict address = true := by
  cases hget : MailAccountsRepo.getById w.accounts mailAccountId with
  | none => rw [sendFromMailbox_of_none hget] at h; cases h
  | some a =>
    by_cases hneeds : NeedsConsent a
    · rw [sendFromMailbox_of_needsConsent hget hneeds] at h
      cases h
    · by_cases hready : TokenReady w a
      · by_cases hheaders : Headable w a r
        · have hprep : Prepared w a r := ⟨hneeds, hready, hheaders⟩
          rw [sendFromMailbox_of_prepared hget hprep] at h
          rcases reaches_or_stopped w a r.recipients with ⟨session, hreaches⟩ | ⟨e, -, heq⟩
          · cases session with
            | failed e => rw [smtpSendMessage_of_failed r.recipients hreaches] at h; cases h
            | authRefused =>
              obtain ⟨message, hrefused⟩ :=
                smtpSendMessage_of_authRefused r.recipients hreaches
              rw [hrefused] at h
              cases h
            | served verdict late =>
              rw [smtpSendMessage_of_served r.recipients hreaches, sendmail.eq_def] at h
              by_cases hall : ∀ address ∈ r.recipients, verdict address = false
              · rw [if_pos hall] at h
                cases h
              · rw [if_neg hall] at h
                cases late with
                | some e => cases h
                | none =>
                  push Not at hall
                  obtain ⟨address, hmem, hne⟩ := hall
                  exact ⟨verdict, ⟨a, hget, hprep, hreaches⟩, address, hmem, by simpa using hne⟩
          · rw [heq] at h
            cases h
        · obtain ⟨e, he⟩ := sendFromMailbox_of_not_headable hget hneeds hready hheaders
          rw [he] at h
          cases h
      · obtain ⟨e, he⟩ := sendFromMailbox_of_not_tokenReady (r := r) hget hready
        rw [he] at h
        cases h

/-- A server that takes a recipient does not refuse them all. -/
theorem not_forall_refused {verdict : Text → Bool} {recipients : List Text} {address : Text}
    (hmem : address ∈ recipients) (haccepted : verdict address = true) :
    ¬ ∀ address ∈ recipients, verdict address = false := by
  intro hall
  rw [hall address hmem] at haccepted
  cases haccepted

/-- **A send drops nobody exactly when it comes to no mixed verdicts.**

**Proof sketch.** A send that ends well has come to verdicts, of which at least one takes its
recipient. The result does not name the refused ones, so that none is dropped exactly if the verdict
takes each of them. -/
theorem noneDropped_iff (w : SendWorld) (mailAccountId : ℕ) (r : SendRequest) :
    NoneDropped w mailAccountId r ↔
      ∀ verdict, Attempt w mailAccountId r verdict → ¬ Mixed verdict r.recipients := by
  constructor
  · rintro h verdict hattempt ⟨⟨address, hmem, haccepted⟩, hrefused⟩
    obtain ⟨message, herror⟩ := h.reported verdict hattempt hrefused
    have hsome := not_forall_refused hmem haccepted
    rw [sendFromMailbox_of_attempt hattempt, sendmail, if_neg hsome] at herror
    cases herror
  · intro h
    constructor
    · intro messageId hok address hmem
      obtain ⟨verdict, hattempt, taken, htaken, haccepted⟩ := attempt_of_ok hok
      have hsome := not_forall_refused htaken haccepted
      have htrue : verdict address = true := by
        by_contra hfalse
        exact h verdict hattempt
          ⟨⟨taken, htaken, haccepted⟩, address, hmem, Bool.not_eq_true _ ▸ hfalse⟩
      rw [sendFromMailbox_of_attempt hattempt, sendmail, if_neg hsome]
      exact List.mem_filter.mpr ⟨hmem, htrue⟩
    · intro verdict hattempt hrefused
      have hall : ∀ address ∈ r.recipients, verdict address = false := by
        intro address hmem
        by_contra htrue
        exact h verdict hattempt ⟨⟨address, hmem, Bool.not_eq_false _ ▸ htrue⟩, hrefused⟩
      rw [sendFromMailbox_of_attempt hattempt, sendmail, if_pos hall]
      exact ⟨_, rfl⟩

/-! ## Two sends -/

/-- A request to two recipients. -/
def twoRecipients : SendRequest where
  toAddrs := ["c@x.org".toList]
  cc := some ["d@x.org".toList]
  bodyText := "t".toList

/-- The two recipients, of whom the server refuses the second. -/
def refusesSecond (address : Text) : Bool := address = "c@x.org".toList

/-- An account whose token is stale. -/
def outlookAccount : MailAccount :=
  { id := 1, userId := 1, email := "a@outlook.com".toList, authType := .oauthOutlook,
    oauthRefreshTokenEncrypted := some (encryptMailPassword "R0".toList 1),
    smtpHost := "smtp.office365.com".toList, smtpPort := 587, smtpStarttls := true }

/-- An account with a password. -/
def passwordAccount : MailAccount :=
  { id := 2, userId := 1, email := "b@x.org".toList, smtpHost := "smtp.x.org".toList,
    encryptedPassword := some (encryptMailPassword "p".toList 2) }

/-- The token endpoint does not answer. -/
def silentEndpoint : TokenWorld where
  now := 0
  lock := .acquired 0 (some outlookAccount)
  endpoint := fun _ => .transportError
  answeredAt := 0
  repr := fun _ => []

/-- A server that refuses the second recipient. -/
def choosyServer : SendWorld where
  accounts := [outlookAccount, passwordAccount]
  firstToken := silentEndpoint
  secondToken := silentEndpoint
  resolver := fun _ => .ok ["203.0.113.5".toList]
  messageId := "<1@a>".toList
  store := Mime.lineStore
  smtp := fun _ => .served refusesSecond none
  appendResolver := fun _ => .error .gaierror
  append := fun _ => false

/-- A send of the OAuth account ends with the error of the HTTP library. -/
theorem transport_error_escapes :
    (sendFromMailbox choosyServer 1 twoRecipients).result = .error (.tokenError .httpError) ∧
      ¬ ∀ w mailAccountId r, Closed w mailAccountId r := by
  have herror : (sendFromMailbox choosyServer 1 twoRecipients).result =
      .error (.tokenError .httpError) := rfl
  refine ⟨herror, fun h => ?_⟩
  exact (h choosyServer 1 twoRecipients).documented _ herror

/-- A send of the password account ends well, and the second recipient gets nothing. -/
theorem second_recipient_dropped :
    (sendFromMailbox choosyServer 2 twoRecipients).result = .ok "<1@a>".toList ∧
      (sendFromMailbox choosyServer 2 twoRecipients).delivered = ["c@x.org".toList] ∧
      ¬ ∀ w mailAccountId r, NoneDropped w mailAccountId r := by
  have hguard : assertPublicHost true choosyServer.resolver "smtp.x.org".toList 465 = .ok () := by
    decide
  have hmime : ∃ msg, Mime.buildMime choosyServer.store passwordAccount.email
      choosyServer.messageId twoRecipients = .ok msg := ⟨_, rfl⟩
  have hprep : Prepared choosyServer passwordAccount twoRecipients :=
    ⟨fun h => (nomatch h.1), fun h => (nomatch h), (Mime.buildMime_ok_iff _ _ _).mp hmime⟩
  have hsecret : SmtpSecret passwordAccount "p".toList :=
    .fallback (fun own hown => (nomatch hown)) rfl rfl
  have hattempt : Attempt choosyServer 2 twoRecipients refusesSecond :=
    ⟨passwordAccount, rfl, hprep, .login hguard (by decide) hsecret⟩
  have hsend := sendFromMailbox_of_attempt hattempt
  have hok : (sendFromMailbox choosyServer 2 twoRecipients).result = .ok "<1@a>".toList := by
    rw [hsend]
    rfl
  have hdelivered : (sendFromMailbox choosyServer 2 twoRecipients).delivered =
      ["c@x.org".toList] := by
    rw [hsend]
    decide
  refine ⟨hok, hdelivered, fun h => ?_⟩
  have hmem := (h choosyServer 2 twoRecipients).accepted _ hok "d@x.org".toList (by decide)
  rw [hdelivered] at hmem
  exact absurd hmem (by decide)

end SendService

end MailAggregator
