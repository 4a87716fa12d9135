import MailAggregator.OAuth.AccessToken
import MailAggregator.Worker.ClassifierAgreement
import MailAggregator.Worker.SyncAccount

set_option relaxedAutoImplicit false
set_option autoImplicit false

/-!
# How a failure of the token endpoint is shown

A reply of the token endpoint that is neither a success nor a refusal of the grant becomes an
`OAuthError`. Its code and its message are two texts: the worker puts the code into the detail of
the error, while the classifier reads the message. The marker of the rule for token errors is in the
detail only, so that the error is shown as one that no rule knows.

## Main definitions

* `MailAggregator.OAuthError` — an `OAuthError`, with its code and its message.
* `MailAggregator.TokenClient.raisedOauthError` — the `OAuthError` that `_post` raises.
* `MailAggregator.SyncCycle.RefreshFails` — the replies that a refresh fails with.
* `MailAggregator.SyncCycle.Labelled` — an error that is shown as one of the token endpoint.

## Main results

* `MailAggregator.SyncCycle.resolveCredentials_of_oauthError` — what the worker hands over.
* `MailAggregator.SyncCycle.not_labelled` — no reply is shown as an error of the token endpoint.
-/

namespace MailAggregator

open PyText ErrorClassify

/-- An `OAuthError`: the code that a router reads, and what `str` shows. -/
structure OAuthError where
  code : Text
  message : Text
  deriving DecidableEq, Repr

/-- `OAuthError(code, message)`: the code stands in for a message that is missing or empty. -/
def OAuthError.init (code : Text) : Option Text → OAuthError
  | none | some [] => { code, message := code }
  | some message => { code, message }

/-- The exception as a classifier sees it. -/
def OAuthError.exception (e : OAuthError) : PyException where
  typeName := "OAuthError".toList
  text := e.message
  classes := [.oauthError]

/-- An `OAuthError` is no refusal of the grant. -/
theorem OAuthError.not_refused (e : OAuthError) :
    ¬ e.exception.IsInstance [.oauthRefreshInvalidError] := by
  rintro ⟨c, hc, hmem⟩
  rw [List.mem_singleton.mp hc] at hmem
  exact absurd (List.mem_singleton.mp hmem) (by decide)

/-- `get_valid_access_token` ends with an `OAuthError`. -/
def OAuthError.tokenEnd (e : OAuthError) : SyncCycle.TokenEnd :=
  .raised e.exception e.code e.not_refused

/-- The detail that the worker gives an `OAuthError`. -/
def OAuthError.detail (e : OAuthError) : Text := "oauth_token_error: ".toList ++ e.code

namespace TokenClient

/-- The `OAuthError` that `_post` raises on a reply, if it raises one. -/
def raisedOauthError (repr : Json → Text) : HttpEnd → Option OAuthError
  | .transportError => none
  | .response status body =>
    if status = 200 then none
    else
      match safeTokenError repr body with
      | .error _ => none
      | .ok code =>
        if code = "invalid_grant".toList then none
        else
          some (.init "oauth_exchange_failed".toList
            (some "Token endpoint returned an error".toList))

/-- `_post` raises an `OAuthError` exactly where one is raised, and with its code. -/
theorem post_eq_oauthError_iff (repr : Json → Text) (reply : HttpEnd) (code : Text) :
    post repr reply = .error (.oauthError code) ↔
      ∃ e, raisedOauthError repr reply = some e ∧ e.code = code := by
  cases reply with
  | transportError => simp [post, raisedOauthError]
  | response status body =>
    by_cases hstatus : status = 200
    · simp only [post, raisedOauthError, if_pos hstatus, reduceCtorEq, false_and, exists_false,
        iff_false]
      intro hread
      have hconversion := isConversionError_of_readBody hread
      simp [IsConversionError] at hconversion
    · rw [post, raisedOauthError, if_neg hstatus, if_neg hstatus, statusError]
      rcases safeTokenError_cases repr body with ⟨-, herror⟩ | ⟨-, error, herror⟩
      · simp [herror]
      · rw [herror]
        by_cases hgrant : error = "invalid_grant".toList
        · simp [hgrant]
        · simp only [if_neg hgrant]
          constructor
          · rintro ⟨⟩
            exact ⟨_, rfl, rfl⟩
          · rintro ⟨e, ⟨⟩, rfl⟩
            rfl

end TokenClient

namespace SyncCycle

open TokenClient OutlookTokenService

variable {S : Settings} {now : Instant} {account : MailAccount} {env : SyncEnv} {w : TokenWorld}
  {e : OAuthError}

/-! ## What the worker hands over -/

/-- A refresh that ends with an `OAuthError` is handed to `_handle_sync_error`, with its code in the
detail. -/
theorem resolveCredentials_of_oauthError (hauth : account.authType = .oauthOutlook)
    (hneeds : account.oauthNeedsConsent = false)
    (hstale : cachedAccessToken env.startedAt account = .stale)
    (hrefresh : account.oauthRefreshTokenEncrypted ≠ none) (htoken : env.token = e.tokenEnd) :
    resolveCredentials account env = .failed e.exception e.detail := by
  have hoauth : e.exception.IsInstance [.oauthError] :=
    ⟨.oauthError, List.mem_singleton.mpr rfl, List.mem_singleton.mpr rfl⟩
  unfold resolveCredentials resolveOauthAccessToken
  simp only [hauth, hneeds, hstale, htoken, OAuthError.tokenEnd, if_neg hrefresh, if_pos hoauth]
  rfl

/-! ## How it is shown -/

/-- **The refresh of an account fails with an `OAuthError`**: its refresh token opens, and the
endpoint answers it with a status other than 200 and an error other than a refusal of the grant. -/
inductive RefreshFails (w : TokenWorld) (account : MailAccount) (e : OAuthError) : Prop
  | reply {refreshToken : Text} {status : ℕ} {body : JsonEnd}
      (hopen : storedRefreshToken account = some refreshToken)
      (hreply : w.endpoint (.refreshToken refreshToken) = .response status body)
      (hstatus : status ≠ 200) (hgrant : safeTokenError w.repr body ≠ .ok "invalid_grant".toList)
      (hraised : raisedOauthError w.repr (.response status body) = some e) :
      RefreshFails w account e

/-- **The error is shown as one of the token endpoint**: it is transient, and what is written to
`last_sync_error` starts with the marker. -/
def Labelled (S : Settings) (now : Instant) (account : MailAccount) (exc : PyException)
    (detail : Text) : Prop :=
  (handleSyncError S now account exc detail).1.outcome = .transient ∧
    "oauth_token_error".toList <+: errorText S account exc detail

/-- The one `OAuthError` of the refresh path. -/
def endpointError : OAuthError where
  code := "oauth_exchange_failed".toList
  message := "Token endpoint returned an error".toList

theorem RefreshFails.eq_endpointError (h : RefreshFails w account e) : e = endpointError := by
  obtain ⟨_, _, hstatus, -, hraised⟩ := h
  rw [raisedOauthError, if_neg hstatus] at hraised
  split at hraised
  · cases hraised
  · split_ifs at hraised
    exact (Option.some.inj hraised).symm

theorem RefreshFails.doRefresh (h : RefreshFails w account e) :
    OutlookTokenService.doRefresh w account = .error (.oauthError e.code) := by
  obtain ⟨hopen, hreply, _, _, hraised⟩ := h
  obtain ⟨blob, hblob, hdecrypt⟩ := Option.bind_eq_some_iff.mp hopen
  have hpost := (post_eq_oauthError_iff w.repr _ e.code).mpr ⟨e, hraised, rfl⟩
  simp only [OutlookTokenService.doRefresh, hblob, hdecrypt, hreply, hpost]

/-- No transient rule knows it, whatever the account type is. -/
theorem not_matchesTransient_endpointError (authType : Option AuthType) :
    ¬ MatchesTransient (some endpointError.exception)
      (normalise (.exc endpointError.exception)).1 authType := by
  rw [matchesTransient_iff]
  rintro (hrule | ⟨-, hflake⟩)
  · exact absurd hrule (by decide)
  · exact absurd hflake (by decide)

/-- No permanent rule does. -/
theorem not_matchesPermanent_endpointError :
    ¬ MatchesPermanent (some endpointError.exception)
      (normalise (.exc endpointError.exception)).1 := by
  decide

/-- The text that is shown for it. -/
theorem errorText_endpointError (S : Settings) (account : MailAccount) :
    errorText S account endpointError.exception endpointError.detail =
      "error: oauth_token_error: oauth_exchange_failed".toList := by
  have hpermanent := not_matchesPermanent_endpointError
  rw [matchesPermanent_or, not_or] at hpermanent
  have hshown : errorPrefix (.exc endpointError.exception) (classifierAuthType S account) =
      "error".toList :=
    (@errorPrefix_of_not_matchesTransient (.exc endpointError.exception) _
      (not_matchesTransient_endpointError _)).trans
        ((if_neg hpermanent.1).trans (if_neg hpermanent.2))
  unfold errorText
  rw [hshown]
  decide

/-- The marker stands behind another prefix. -/
theorem not_isPrefix_errorText {S : Settings} {account : MailAccount} :
    ¬ "oauth_token_error".toList <+:
      errorText S account endpointError.exception endpointError.detail := by
  rw [errorText_endpointError]
  decide

/-- **No reply of the token endpoint is shown as one of its errors.** The error is transient, but no
rule knows it.

**Proof sketch.** The exception has one message whatever the reply is, and none of the markers is in
it or in the name of its type; the account type only matters to a rule that needs another marker. So
all rules fail, the class is that of an unknown error and so is its prefix, and the marker stands
behind that prefix. -/
theorem not_labelled (h : RefreshFails w account e) (S : Settings) (now : Instant) :
    OutlookTokenService.doRefresh w account = .error (.oauthError e.code) ∧
      (handleSyncError S now account e.exception e.detail).1.outcome = .transient ∧
      errorText S account e.exception e.detail =
        "error: oauth_token_error: oauth_exchange_failed".toList ∧
      ¬ Labelled S now account e.exception e.detail := by
  have hrefresh := h.doRefresh
  obtain rfl := h.eq_endpointError
  have hshown := errorText_endpointError S account
  have hclass : classify (.exc endpointError.exception) (classifierAuthType S account) =
      .transient :=
    (classify_exc_eq_transient_iff _ _).mpr (Or.inr not_matchesPermanent_endpointError)
  refine ⟨hrefresh, ?_, hshown, not_isPrefix_errorText ∘ And.right⟩
  unfold handleSyncError
  simp only [hclass, if_true]

-- the text that the rule is written for
example : errorPrefix (.text endpointError.detail) none = "oauth_token_error".toList := by decide

/-- An account with a refresh token. -/
def refreshableMailbox : MailAccount :=
  { id := 1, userId := 1, email := "a@outlook.com".toList, authType := .oauthOutlook,
    oauthRefreshTokenEncrypted := some (encryptMailPassword "R0".toList 1) }

/-- The token endpoint is not available. -/
def unavailableEndpoint : TokenWorld where
  now := 0
  lock := .acquired 0 (some refreshableMailbox)
  endpoint _ := .response 503 .valueError
  answeredAt := 0
  repr _ := []

theorem refreshFails_unavailable :
    RefreshFails unavailableEndpoint refreshableMailbox endpointError := by
  have hopen : storedRefreshToken refreshableMailbox = some "R0".toList := by
    simp [storedRefreshToken, refreshableMailbox]
  exact .reply hopen rfl (by decide) (by decide) rfl

/-- An outage of the endpoint is shown as an error that no rule knows. -/
theorem unavailable_not_labelled :
    ¬ Labelled .defaults 0 refreshableMailbox endpointError.exception endpointError.detail :=
  (not_labelled refreshFails_unavailable .defaults 0).2.2.2

/-- The label is missing. -/
theorem not_forall_labelled :
    ¬ ∀ (S : Settings) (now : Instant) (w : TokenWorld) (account : MailAccount) (e : OAuthError),
      RefreshFails w account e → Labelled S now account e.exception e.detail := by
  intro h
  have hlabelled := h .defaults 0 unavailableEndpoint refreshableMailbox endpointError
    refreshFails_unavailable
  exact not_isPrefix_errorText hlabelled.2

end SyncCycle

end MailAggregator
