import MailAggregator.Shared.Models
import MailAggregator.Shared.PyException

set_option relaxedAutoImplicit false
set_option autoImplicit false

/-!
# Error classification of the sync cycle

One table of lower-case substrings decides both the class of an error and the prefix it is shown
with. The transient rules are all tried before the permanent ones, and an error that no rule
matches is transient.

## Main definitions

* `MailAggregator.ErrorClassify.classify` — transient or permanent.
* `MailAggregator.ErrorClassify.errorPrefix` — the prefix of `last_sync_error`.
* `MailAggregator.ErrorClassify.isExplicitPermanent` — the errors that disable at once.

## Main results

* `MailAggregator.ErrorClassify.classify_eq_permanent_iff` — the permanent errors are exactly the
  explicit permanent ones.
-/

namespace MailAggregator

open PyText

namespace ErrorClassify

/-- The class of an error. -/
inductive ErrorClass where
  | transient
  | permanent
  deriving DecidableEq, Repr

/-- What is classified: an exception, or a plain text. -/
inductive ErrorSource where
  | exc (exc : PyException)
  | text (text : Text)

/-! ## The tables -/

/-- `_TIMEOUT_TYPES`. -/
def timeoutTypes : List ExcClass := [.timeoutError]

/-- `_NETWORK_TYPES`. -/
def networkTypes : List ExcClass := [.connectionError, .sslError]

/-- `_DECRYPT_TYPES`. -/
def decryptTypes : List ExcClass := [.invalidTag, .assertionError]

/-- `_TRANSIENT_INSTANCE_TYPES`. -/
def transientInstanceTypes : List ExcClass := timeoutTypes ++ [.gaierror] ++ networkTypes

/-- Rule 2: name resolution. -/
def resolveSubstrings : List Text :=
  ["could not resolve", "name or service not known", "temporary failure in name resolution",
    "nodename nor servname"].map String.toList

/-- Rule 3: rate limits and temporary unavailability. -/
def rateLimitSubstrings : List Text :=
  ["too many", "simultaneous", "try again", "temporarily", "unavailable", "inuse",
    "system error", "rate", "throttl"].map String.toList

/-- Rule 3b: sporadic IMAP connection-state errors. -/
def imapConnFlakeSubstrings : List Text :=
  ["authenticated but not connected", "not connected"].map String.toList

/-- Rule 4: timeouts by their text. -/
def timeoutSubstrings : List Text := ["timed out", "timeout"].map String.toList

/-- Rule 5: network and TLS errors by their text. -/
def networkSubstrings : List Text :=
  ["connection refused", "connection reset", "broken pipe", "network is unreachable",
    "no route to host", "ssl"].map String.toList

/-- Rule 6: `ECONNREFUSED`, `ECONNRESET`, `ETIMEDOUT`, `EHOSTUNREACH`, `ENETUNREACH`, `EPIPE`. -/
def networkErrnos : List ℕ := [111, 104, 110, 113, 101, 32]

/-- Rule 8: authentication and account-state markers. -/
def authSubstrings : List Text :=
  ["authenticationfailed", "invalid credentials", "login failed", "[alert]",
    "account is disabled", "account has been blocked"].map String.toList

/-- Rule 7b: the IMAP authentication errors that are transient on an OAuth account. -/
def oauthImapAuthFlakeSubstrings : List Text :=
  ["login failed", "authenticationfailed"].map String.toList

/-- The markers by which rule 3 chooses its prefix. -/
def authMarkerSubstrings : List Text :=
  ["auth", "login", "credential", "password"].map String.toList

/-- Rule 7: transient errors of the token endpoint. -/
def oauthTransientSubstrings : List Text :=
  ["5xx", "429", "token_network", "network", "timeout", "unexpected",
    "oauth_exchange_failed"].map String.toList

/-! ## The rules -/

/-- `_normalise`: the lower-case text, and the exception if there is one. -/
def normalise : ErrorSource → Text × Option PyException
  | .exc e => (lower (e.typeName ++ ": ".toList ++ e.text), some e)
  | .text t => (lower t, none)

/-- `_has_any`. -/
def HasAny (text : Text) (needles : List Text) : Prop := ∃ n ∈ needles, Contains n text

instance (text : Text) (needles : List Text) : Decidable (HasAny text needles) :=
  inferInstanceAs (Decidable (∃ n ∈ needles, Contains n text))

/-- `isinstance(exc, types)`, where there may be no exception. -/
def IsInstance (exc : Option PyException) (types : List ExcClass) : Prop :=
  ∃ e ∈ exc, e.IsInstance types

instance (exc : Option PyException) (types : List ExcClass) : Decidable (IsInstance exc types) :=
  inferInstanceAs (Decidable (∃ e ∈ exc, e.IsInstance types))

/-- Rule 6: an `OSError` with a transport `errno`. -/
def IsNetworkErrno (exc : Option PyException) : Prop :=
  ∃ e ∈ exc, e.IsInstance [.osError] ∧ ∃ n ∈ e.errno, n ∈ networkErrnos

instance (exc : Option PyException) : Decidable (IsNetworkErrno exc) :=
  inferInstanceAs (Decidable (∃ e ∈ exc, e.IsInstance [.osError] ∧ ∃ n ∈ e.errno,
    n ∈ networkErrnos))

/-- `_is_oauth_transient`. -/
def IsOauthTransient (text : Text) : Prop :=
  HasAny text (["oauth_token_error", "oauth_token_unexpected"].map String.toList) ∧
    HasAny text oauthTransientSubstrings

instance (text : Text) : Decidable (IsOauthTransient text) :=
  inferInstanceAs (Decidable (_ ∧ _))

/-- `_is_oauth_imap_auth_flake`. -/
def IsOauthImapAuthFlake (text : Text) (authType : Option AuthType) : Prop :=
  authType = some .oauthOutlook ∧ ¬ Contains "invalid_grant".toList text ∧
    HasAny text oauthImapAuthFlakeSubstrings

instance (text : Text) (authType : Option AuthType) :
    Decidable (IsOauthImapAuthFlake text authType) :=
  inferInstanceAs (Decidable (_ ∧ _ ∧ _))

/-- `_matches_transient`. -/
def MatchesTransient (exc : Option PyException) (text : Text) (authType : Option AuthType) :
    Prop :=
  IsInstance exc transientInstanceTypes ∨ HasAny text resolveSubstrings ∨
    HasAny text rateLimitSubstrings ∨ HasAny text imapConnFlakeSubstrings ∨
    HasAny text timeoutSubstrings ∨ HasAny text networkSubstrings ∨ IsNetworkErrno exc ∨
    IsOauthTransient text ∨ IsOauthImapAuthFlake text authType

instance (exc : Option PyException) (text : Text) (authType : Option AuthType) :
    Decidable (MatchesTransient exc text authType) :=
  inferInstanceAs (Decidable (_ ∨ _ ∨ _ ∨ _ ∨ _ ∨ _ ∨ _ ∨ _ ∨ _))

/-- `_matches_permanent`. -/
def MatchesPermanent (exc : Option PyException) (text : Text) : Prop :=
  HasAny text authSubstrings ∨ Contains "invalid_grant".toList text ∨
    IsInstance exc decryptTypes ∨ Contains "invalidtag".toList text ∨
    Contains "decrypt_fail".toList text

instance (exc : Option PyException) (text : Text) : Decidable (MatchesPermanent exc text) :=
  inferInstanceAs (Decidable (_ ∨ _ ∨ _ ∨ _ ∨ _))

/-! ## The three outputs -/

/-- `classify`. -/
def classify (source : ErrorSource) (authType : Option AuthType) : ErrorClass :=
  let (text, exc) := normalise source
  if MatchesTransient exc text authType then .transient
  else if MatchesPermanent exc text then .permanent
  else .transient

/-- `error_prefix`. -/
def errorPrefix (source : ErrorSource) (authType : Option AuthType) : Text :=
  let (text, exc) := normalise source
  if IsInstance exc timeoutTypes then "timeout".toList
  else if IsInstance exc [.gaierror] ∨ HasAny text resolveSubstrings then "invalid_host".toList
  else if HasAny text rateLimitSubstrings then
    if HasAny text authMarkerSubstrings then "auth_failed".toList else "network".toList
  else if HasAny text imapConnFlakeSubstrings then "network".toList
  else if HasAny text timeoutSubstrings then "timeout".toList
  else if IsInstance exc networkTypes ∨ HasAny text networkSubstrings then "network".toList
  else if IsNetworkErrno exc then "network".toList
  else if IsOauthTransient text then "oauth_token_error".toList
  else if IsOauthImapAuthFlake text authType then "network".toList
  else if HasAny text authSubstrings ∨ Contains "invalid_grant".toList text then
    "auth_failed".toList
  else if IsInstance exc decryptTypes ∨ Contains "invalidtag".toList text ∨
      Contains "decrypt_fail".toList text then "decrypt_fail".toList
  else "error".toList

/-- `is_explicit_permanent`. -/
def isExplicitPermanent (source : ErrorSource) (authType : Option AuthType) : Bool :=
  let (text, exc) := normalise source
  if MatchesTransient exc text authType then false else MatchesPermanent exc text

/-- **Permanent means explicit**: the errors that are classified permanent are exactly the ones
that disable at once. -/
theorem classify_eq_permanent_iff (source : ErrorSource) (authType : Option AuthType) :
    classify source authType = .permanent ↔ isExplicitPermanent source authType = true := by
  unfold classify isExplicitPermanent
  simp only
  split_ifs with ht hp
  · simp
  · simp [hp]
  · simp [hp]

end ErrorClassify

end MailAggregator
