import MailAggregator.Worker.ConnectRetry
import MailAggregator.Worker.FailOpen

set_option relaxedAutoImplicit false
set_option autoImplicit false

/-!
# What the readers of an error agree on

The class of an error, its prefix and the flag that disables at once are three rule chains over
one table; whether a login is repeated is decided by a fourth. The three chains agree on every
error. The fourth repeats one kind of error that disables the mailbox in the end: an XOAUTH2 login
that fails with a word of a revoked grant.

## Main definitions

* `MailAggregator.ErrorClassify.OutputsAgree` — the three outputs are consistent.
* `MailAggregator.ConnectRetry.CalledFor` — the credentials an account is connected with.
* `MailAggregator.ConnectRetry.RepeatedGrantFailure` — the errors that are repeated and permanent.

## Main results

* `MailAggregator.ErrorClassify.outputsAgree` — the three outputs are consistent on every error.
* `MailAggregator.ConnectRetry.transient_of_retryable_iff` — exactly which repeated errors are
  transient.
-/

namespace MailAggregator

open PyText

namespace ErrorClassify

/-! ## The three outputs -/

variable {source : ErrorSource} {authType : Option AuthType}

/-- **The three outputs are consistent** on an error. -/
structure OutputsAgree (source : ErrorSource) (authType : Option AuthType) : Prop where
  explicit : classify source authType = .permanent ↔ isExplicitPermanent source authType = true
  /-- A permanent error is shown as one of the credentials. -/
  permanent : classify source authType = .permanent →
    errorPrefix source authType = "auth_failed".toList ∨
      errorPrefix source authType = "decrypt_fail".toList
  decryptFail : errorPrefix source authType = "decrypt_fail".toList →
    classify source authType = .permanent
  /-- A rate limit that smells of a login is shown as one, but stays transient. -/
  authFailed : errorPrefix source authType = "auth_failed".toList →
    classify source authType = .permanent ∨ HasAny (normalise source).1 rateLimitSubstrings
  transient : errorPrefix source authType ≠ "auth_failed".toList →
    errorPrefix source authType ≠ "decrypt_fail".toList → classify source authType = .transient

theorem isInstance_append (exc : Option PyException) (ts ts' : List ExcClass) :
    IsInstance exc (ts ++ ts') ↔ IsInstance exc ts ∨ IsInstance exc ts' := by
  simp only [IsInstance, PyException.IsInstance, List.mem_append, or_and_right, exists_or,
    and_or_left]

/-- The prefix that the transient rules choose. -/
def IsTransientPrefix (source : ErrorSource) (shown : Text) : Prop :=
  shown ≠ "decrypt_fail".toList ∧
    (shown = "auth_failed".toList → HasAny (normalise source).1 rateLimitSubstrings)

/-- Where a transient rule matches, the prefix is chosen by such a rule.

**Proof sketch.** The rules are gone through in their order. Only rule 3 chooses `auth_failed`, and
it has seen its marker; where all the tests of the transient rules fail, none of them matches. -/
theorem errorPrefix_of_matchesTransient
    (h : MatchesTransient (normalise source).2 (normalise source).1 authType) :
    IsTransientPrefix source (errorPrefix source authType) := by
  have hother {shown : Text} (hne : shown ≠ "decrypt_fail".toList)
      (hne' : shown ≠ "auth_failed".toList) : IsTransientPrefix source shown :=
    ⟨hne, fun hshown => absurd hshown hne'⟩
  have htimeout : IsTransientPrefix source "timeout".toList := hother (by decide) (by decide)
  have hnetwork : IsTransientPrefix source "network".toList := hother (by decide) (by decide)
  unfold errorPrefix
  simp only
  refine iteInduction (fun _ => htimeout) fun h₁ => ?_
  refine iteInduction (fun _ => hother (by decide) (by decide)) fun h₂ => ?_
  refine iteInduction (fun h₃ => ?_) fun h₃ => ?_
  · -- rule 3 has seen its marker
    exact iteInduction (fun _ => ⟨by decide, fun _ => h₃⟩) fun _ => hnetwork
  refine iteInduction (fun _ => hnetwork) fun h₃b => ?_
  refine iteInduction (fun _ => htimeout) fun h₄ => ?_
  refine iteInduction (fun _ => hnetwork) fun h₅ => ?_
  refine iteInduction (fun _ => hnetwork) fun h₆ => ?_
  refine iteInduction (fun _ => hother (by decide) (by decide)) fun h₇ => ?_
  refine iteInduction (fun _ => hnetwork) fun h₇b => ?_
  -- all tests of the transient rules have failed
  unfold MatchesTransient transientInstanceTypes at h
  rw [isInstance_append, isInstance_append] at h
  rw [not_or] at h₂ h₅
  simp only [h₁, h₂, h₃, h₃b, h₄, h₅, h₆, h₇, h₇b, or_self] at h

/-- The prefix where no transient rule matches: that of the first permanent rule that does. -/
theorem errorPrefix_of_not_matchesTransient
    (h : ¬ MatchesTransient (normalise source).2 (normalise source).1 authType) :
    errorPrefix source authType =
      if HasAny (normalise source).1 authSubstrings ∨
          Contains "invalid_grant".toList (normalise source).1 then "auth_failed".toList
      else if IsInstance (normalise source).2 decryptTypes ∨
          Contains "invalidtag".toList (normalise source).1 ∨
          Contains "decrypt_fail".toList (normalise source).1 then "decrypt_fail".toList
      else "error".toList := by
  unfold MatchesTransient transientInstanceTypes at h
  rw [isInstance_append, isInstance_append] at h
  simp only [not_or] at h
  obtain ⟨⟨⟨h₁, hresolver⟩, hnetwork⟩, h₂, h₃, h₃b, h₄, h₅, h₆, h₇, h₇b⟩ := h
  unfold errorPrefix
  simp only
  rw [if_neg h₁, if_neg (not_or.mpr ⟨hresolver, h₂⟩), if_neg h₃, if_neg h₃b, if_neg h₄,
    if_neg (not_or.mpr ⟨hnetwork, h₅⟩), if_neg h₆, if_neg h₇, if_neg h₇b]

/-- The permanent rules, by the prefix they choose. -/
theorem matchesPermanent_or (exc : Option PyException) (text : Text) :
    MatchesPermanent exc text ↔
      (HasAny text authSubstrings ∨ Contains "invalid_grant".toList text) ∨
        IsInstance exc decryptTypes ∨ Contains "invalidtag".toList text ∨
          Contains "decrypt_fail".toList text :=
  or_assoc.symm

/-- **The three outputs are consistent on every error.**

**Proof sketch.** The transient rules come first in all three chains. Where one of them matches, the
error is transient and not explicit, and the prefix is chosen by such a rule; where none does, all
three are decided by the permanent rules, of which the prefix names the first. -/
theorem outputsAgree (source : ErrorSource) (authType : Option AuthType) :
    OutputsAgree source authType := by
  have hclass : classify source authType =
      if MatchesTransient (normalise source).2 (normalise source).1 authType then .transient
      else if MatchesPermanent (normalise source).2 (normalise source).1 then .permanent
      else .transient := rfl
  by_cases ht : MatchesTransient (normalise source).2 (normalise source).1 authType
  · obtain ⟨hne, hrate⟩ := errorPrefix_of_matchesTransient ht
    rw [if_pos ht] at hclass
    refine ⟨classify_eq_permanent_iff source authType, fun hp => ?_, fun hd => absurd hd hne,
      fun ha => Or.inr (hrate ha), fun _ _ => hclass⟩
    rw [hclass] at hp
    cases hp
  · have hshown := errorPrefix_of_not_matchesTransient ht
    have hexplicit := classify_eq_permanent_iff source authType
    rw [if_neg ht] at hclass
    by_cases hauth : HasAny (normalise source).1 authSubstrings ∨
        Contains "invalid_grant".toList (normalise source).1
    · rw [if_pos hauth] at hshown
      rw [if_pos ((matchesPermanent_or _ _).mpr (Or.inl hauth))] at hclass
      exact ⟨hexplicit, fun _ => Or.inl hshown, fun _ => hclass, fun _ => Or.inl hclass,
        fun hne _ => absurd hshown hne⟩
    rw [if_neg hauth] at hshown
    by_cases hdecrypt : IsInstance (normalise source).2 decryptTypes ∨
        Contains "invalidtag".toList (normalise source).1 ∨
        Contains "decrypt_fail".toList (normalise source).1
    · rw [if_pos hdecrypt] at hshown
      rw [if_pos ((matchesPermanent_or _ _).mpr (Or.inr hdecrypt))] at hclass
      exact ⟨hexplicit, fun _ => Or.inr hshown, fun _ => hclass, fun _ => Or.inl hclass,
        fun _ hne => absurd hshown hne⟩
    · rw [if_neg hdecrypt] at hshown
      rw [if_neg (mt (matchesPermanent_or _ _).mp (not_or.mpr ⟨hauth, hdecrypt⟩))] at hclass
      refine ⟨hexplicit, fun hp => ?_, fun hd => ?_, fun ha => ?_, fun _ _ => hclass⟩
      · rw [hclass] at hp
        cases hp
      · exact absurd (hshown.symm.trans hd) (by decide)
      · exact absurd (hshown.symm.trans ha) (by decide)

/-! ## The rules that see the account -/

/-- Rule 7b is the only one that depends on the account. -/
theorem matchesTransient_iff (exc : Option PyException) (text : Text) (authType : Option AuthType) :
    MatchesTransient exc text authType ↔
      MatchesTransient exc text none ∨ IsOauthImapAuthFlake text authType := by
  have hnone : ¬ IsOauthImapAuthFlake text none := fun h => nomatch h.1
  unfold MatchesTransient
  simp only [hnone, or_false, or_assoc]

theorem classify_exc_eq_transient_iff (exc : PyException) (authType : Option AuthType) :
    classify (.exc exc) authType = .transient ↔
      MatchesTransient (some exc) (normalise (.exc exc)).1 authType ∨
        ¬ MatchesPermanent (some exc) (normalise (.exc exc)).1 := by
  change (if MatchesTransient (some exc) (normalise (.exc exc)).1 authType then ErrorClass.transient
    else if MatchesPermanent (some exc) (normalise (.exc exc)).1 then .permanent
    else .transient) = _ ↔ _
  split_ifs with ht hp
  · simp [ht]
  · simp [ht, hp]
  · simp [hp]

/-- The text of an exception is classified together with the name of its type. -/
theorem contains_normalise {needle : Text} {exc : PyException}
    (h : Contains needle (lower exc.text)) : Contains needle (normalise (.exc exc)).1 := by
  rw [normalise, lower_append]
  exact h.trans (List.suffix_append _ _).isInfix

theorem HasAny.normalise {needles : List Text} {exc : PyException}
    (h : HasAny (lower exc.text) needles) :
    HasAny (ErrorClassify.normalise (.exc exc)).1 needles := by
  obtain ⟨n, hn, hc⟩ := h
  exact ⟨n, hn, contains_normalise hc⟩

theorem HasAny.mono {text : Text} {needles needles' : List Text} (h : HasAny text needles)
    (hsub : needles ⊆ needles') : HasAny text needles' := by
  obtain ⟨n, hn, hc⟩ := h
  exact ⟨n, hsub hn, hc⟩

end ErrorClassify

namespace ConnectRetry

open ErrorClassify SyncCycle

/-! ## The errors that are repeated -/

variable {S : Settings} {account : MailAccount} {w : ConnectWorld} {exc : PyException}

/-- The account that a mailbox is opened for: an OAuth account logs in with an access token, and
both decisions read the same switch. -/
structure CalledFor (S : Settings) (account : MailAccount) (w : ConnectWorld) : Prop where
  accessToken : w.accessToken.isSome = true ↔ account.authType = .oauthOutlook
  switch : w.oauthLoginFailedTransient = S.syncOauthLoginFailedTransient

/-- **A failure of an XOAUTH2 login that is repeated, and permanent**: the login has failed in a way
that is repeated on this path, a word of a revoked grant stands in the error, and no other rule
takes the error as transient. -/
def RepeatedGrantFailure (w : ConnectWorld) (exc : PyException) : Prop :=
  w.oauth = true ∧ exc.IsInstance [.imap4Error, .imap4Abort] ∧
    HasAny (lower exc.text) oauthImapAuthFlakeSubstrings ∧
    ¬ HasAny (lower exc.text) permanentImapSubstringsOauth ∧
    Contains "invalid_grant".toList (normalise (.exc exc)).1 ∧
    ¬ MatchesTransient (some exc) (normalise (.exc exc)).1 none

/-- The classifier is told of an OAuth account exactly where its failed logins are tolerated. -/
theorem CalledFor.classifierAuthType_iff (h : CalledFor S account w) :
    classifierAuthType S account = some .oauthOutlook ↔ w.oauth = true := by
  unfold classifierAuthType ConnectWorld.oauth
  rw [Bool.and_eq_true, h.accessToken, h.switch]
  cases hswitch : S.syncOauthLoginFailedTransient with
  | false => simp
  | true => simp

/-- A connect error that is repeated is transient by its class or its `errno`. -/
theorem matchesTransient_of_connectError (h : isRetryableConnectError exc = true)
    (authType : Option AuthType) :
    MatchesTransient (some exc) (normalise (.exc exc)).1 authType := by
  have herrnos : ∀ n ∈ retryableErrnos, n ∈ networkErrnos := by decide
  unfold isRetryableConnectError at h
  split_ifs at h with htimeout hclass hos
  · obtain ⟨c, hc, hmem⟩ := hclass
    have hsub : [ExcClass.gaierror, .connectionError] ⊆ transientInstanceTypes := by decide
    exact Or.inl ⟨exc, rfl, c, hsub hc, hmem⟩
  · rw [Option.any_eq_true] at h
    obtain ⟨n, hn, hmem⟩ := h
    have herrno : IsNetworkErrno (some exc) :=
      ⟨exc, rfl, hos, n, hn, herrnos n (of_decide_eq_true hmem)⟩
    exact Or.inr (Or.inr (Or.inr (Or.inr (Or.inr (Or.inr (Or.inl herrno))))))

/-- A flake of the server that is repeated on both paths is transient by rule 3 or rule 3b. -/
theorem matchesTransient_of_flake (h : HasAny (lower exc.text) retryableImapSubstrings)
    (authType : Option AuthType) :
    MatchesTransient (some exc) (normalise (.exc exc)).1 authType := by
  have hsub : retryableImapSubstrings ⊆ rateLimitSubstrings ++ imapConnFlakeSubstrings := by
    decide
  rcases (hasAny_append _ _ _).mp (h.normalise.mono hsub) with hrate | hconn
  · exact Or.inr (Or.inr (Or.inl hrate))
  · exact Or.inr (Or.inr (Or.inr (Or.inl hconn)))

theorem isRetryableImapError_iff (oauth : Bool) (exc : PyException) :
    isRetryableImapError oauth exc = true ↔
      exc.IsInstance [.imap4Error, .imap4Abort] ∧
        ¬ HasAny (lower exc.text)
          (if oauth then permanentImapSubstringsOauth else permanentImapSubstringsPassword) ∧
        HasAny (lower exc.text)
          (if oauth then retryableImapSubstringsOauth else retryableImapSubstrings) := by
  unfold isRetryableImapError
  simp only
  split_ifs <;> simp_all

/-- **Which repeated errors are transient**: all but those of a login that fails with a word of a
revoked grant.

**Proof sketch.** A connect error and a flake of both paths match a transient rule whatever the
account is. What is left is a failed XOAUTH2 login, which is rule 7b unless the error has a word of
a revoked grant; such a word is also what makes the error permanent. -/
theorem transient_of_retryable_iff (h : CalledFor S account w) :
    (Retryable w.oauth exc → classify (.exc exc) (classifierAuthType S account) = .transient) ↔
      ¬ RepeatedGrantFailure w exc := by
  rw [classify_exc_eq_transient_iff]
  constructor
  · rintro htransient ⟨hoauth, himap, hflake, hpermanent, hgrant, hother⟩
    have hretryable : Retryable w.oauth exc := by
      refine Or.inr ((isRetryableImapError_iff _ _).mpr ⟨himap, ?_⟩)
      simp only [hoauth, if_true]
      exact ⟨hpermanent, hflake.mono (List.subset_append_right _ _)⟩
    rcases htransient hretryable with ht | hp
    · rcases (matchesTransient_iff _ _ _).mp ht with ht | hrule
      · exact hother ht
      · exact hrule.2.1 hgrant
    · exact hp (Or.inr (Or.inl hgrant))
  · rintro hnot (hconnect | hretryable)
    · exact Or.inl (matchesTransient_of_connectError hconnect _)
    · obtain ⟨himap, hpermanent, hmarker⟩ := (isRetryableImapError_iff _ _).mp hretryable
      cases hoauth : w.oauth with
      | false =>
        simp only [hoauth, Bool.false_eq_true, if_false] at hmarker
        exact Or.inl (matchesTransient_of_flake hmarker _)
      | true =>
        simp only [hoauth, if_true] at hpermanent hmarker
        rcases (hasAny_append _ _ _).mp hmarker with hbase | hflake
        · exact Or.inl (matchesTransient_of_flake hbase _)
        rw [matchesTransient_iff]
        by_cases hother : MatchesTransient (some exc) (normalise (.exc exc)).1 none
        · exact Or.inl (Or.inl hother)
        · -- rule 7b matches, for no word of a revoked grant is there
          have hgrant : ¬ Contains "invalid_grant".toList (normalise (.exc exc)).1 := fun hc =>
            hnot ⟨hoauth, himap, hflake, hpermanent, hc, hother⟩
          exact Or.inl (Or.inr ⟨h.classifierAuthType_iff.mpr hoauth, hgrant, hflake.normalise⟩)

/-- A mailbox that logs in with an access token. -/
def xoauth2Mailbox : MailAccount :=
  { id := 1, userId := 1, email := "a@outlook.com".toList, authType := .oauthOutlook }

/-- A login that the server rejects. -/
def loginRejected (text : Text) : PyException where
  typeName := "error".toList
  text := text
  classes := [.imap4Error]

/-- A server that rejects every login with this text. -/
def rejectingServer (text : Text) : ConnectWorld where
  password := none
  accessToken := some "A0".toList
  opening _ := .ok ()
  login _ := .error (loginRejected text)

theorem calledFor_rejectingServer (text : Text) :
    CalledFor .defaults xoauth2Mailbox (rejectingServer text) :=
  ⟨iff_of_true rfl rfl, rfl⟩

/-- A failed login alone is repeated and transient. -/
theorem transient_of_loginFailed :
    Retryable (rejectingServer "LOGIN failed.".toList).oauth
        (loginRejected "LOGIN failed.".toList) ∧
      classify (.exc (loginRejected "LOGIN failed.".toList))
        (classifierAuthType .defaults xoauth2Mailbox) = .transient := by
  have hretryable : Retryable (rejectingServer "LOGIN failed.".toList).oauth
      (loginRejected "LOGIN failed.".toList) := by decide
  exact ⟨hretryable, (transient_of_retryable_iff (calledFor_rejectingServer _)).mpr
    (fun h => absurd h.2.2.2.2.1 (by decide)) hretryable⟩

/-- A login that the server rejects with a word of a revoked grant is repeated, and disables the
mailbox in the end. -/
theorem retryable_not_transient :
    ¬ ∀ (S : Settings) (account : MailAccount) (w : ConnectWorld) (exc : PyException),
      CalledFor S account w → Retryable w.oauth exc →
        classify (.exc exc) (classifierAuthType S account) = .transient := by
  intro h
  have htransient := h .defaults xoauth2Mailbox
    (rejectingServer "[AUTHENTICATIONFAILED] invalid_grant".toList)
    (loginRejected "[AUTHENTICATIONFAILED] invalid_grant".toList) (calledFor_rejectingServer _)
    (by decide)
  revert htransient
  decide

end ConnectRetry

end MailAggregator
