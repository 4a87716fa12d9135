import MailAggregator.Lib.Transition
import MailAggregator.OAuth.TokenService
import Mathlib.Logic.Function.Basic

set_option relaxedAutoImplicit false
set_option autoImplicit false

/-!
# Concurrent refreshes of one OAuth account

Any number of calls of `get_valid_access_token` on one account, each with a row it has loaded
earlier, a Redis lock that expires, a token endpoint that rotates refresh tokens, and re-links of
the account through the OAuth callback, which take no lock.

## Main definitions

* `MailAggregator.OAuthRefresh.Call` — one call and where it stands.
* `MailAggregator.OAuthRefresh.RefreshState` — the row, the lock, the endpoint and the calls.
* `MailAggregator.OAuthRefresh.refreshSystem` — the transition system.
* `MailAggregator.OAuthRefresh.RefreshStep` — what a step does.
* `MailAggregator.OAuthRefresh.NeedsConsentSound`, `OAuthRefresh.NoTokenLost` — the two promises.

## Design

`version` counts the commits that have written a refresh token to the row, and a call remembers
the version of the row it works with; no step of the code reads it. Neither does one read the
fields under "history".
-/

namespace MailAggregator

open PyText Transition OutlookTokenService

namespace OAuthRefresh

/-- Where a call stands. -/
inductive CallPhase where
  /-- The caller has loaded the row. -/
  | loaded
  /-- The cached access token is stale, and the lock comes next. -/
  | locking
  /-- It did not get the lock, and polls the row until the deadline. -/
  | waiting (deadline : Instant)
  /-- It holds the lock, and reads the row again. -/
  | locked
  /-- `_do_refresh` begins. -/
  | refreshing
  /-- A refresh token is on its way to the endpoint. -/
  | sent (refreshToken : Text)
  /-- The endpoint has issued tokens for the refresh token. -/
  | answered (refreshToken : Text) (tokens : TokenResponse)
  /-- The endpoint has answered `invalid_grant`. -/
  | refused (refreshToken : Text)
  /-- The call is over, but for the release of the lock. -/
  | releasing
  deriving DecidableEq, Repr

/-- One call of `get_valid_access_token`: the row it works with, and the token of the lock it has
acquired. `version` is history: the version of that row. -/
structure Call where
  account : MailAccount
  version : ℕ
  lockToken : Option ℕ
  phase : CallPhase
  deriving DecidableEq, Repr

/-- What is left of a call that has returned or raised: the release of the lock, if it has it. -/
def Call.finished (call : Call) : Option Call :=
  call.lockToken.map fun _ => { call with phase := .releasing }

/-- A commit of a refreshed pair: the refresh token it was issued for, and the one the row held
just before. -/
structure RefreshCommit where
  issuedFor : Text
  stored : Option Text
  deriving DecidableEq, Repr

/-- A commit that set `oauth_needs_consent`: the refresh token in the row, and those the endpoint
had rejected by then. -/
structure ConsentMark where
  stored : Option Text
  rejected : List Text
  deriving DecidableEq, Repr

/-- The row, the lock, the endpoint, the calls and the history. -/
structure RefreshState where
  now : Instant
  account : MailAccount
  version : ℕ
  /-- The key `oauth_refresh_lock:{id}`: its value and its expiry. -/
  lock : Option (ℕ × Instant)
  nextLockToken : ℕ
  calls : ℕ → Option Call
  /-- Exchanged authorization codes whose tokens are not committed yet. -/
  relinks : List (Text × TokenResponse)
  /-- The refresh tokens the endpoint has issued. -/
  issued : List Text
  /-- The refresh tokens the endpoint does not accept any more. -/
  superseded : List Text
  /-- History: the refresh tokens the endpoint has answered `invalid_grant` to. -/
  rejected : List Text
  /-- History. -/
  refreshCommits : List RefreshCommit
  /-- History. -/
  consentMarks : List ConsentMark

/-- The steps. -/
inductive RefreshLabel where
  | tick (d : ℕ)
  /-- A caller loads the row. -/
  | load (c : ℕ)
  /-- The cached access token of the loaded row is looked at. -/
  | start (c : ℕ)
  /-- `_try_acquire_lock`, with Redis there or not. -/
  | tryLock (c : ℕ) (available : Bool)
  /-- One round of `_await_refreshed_token`. -/
  | poll (c : ℕ)
  /-- The second look, under the lock. -/
  | recheck (c : ℕ)
  | send (c : ℕ)
  /-- The endpoint accepts the refresh token and issues tokens. -/
  | accept (c : ℕ) (tokens : TokenResponse)
  /-- The endpoint answers `invalid_grant`. -/
  | reject (c : ℕ)
  /-- `_persist_refresh`. -/
  | persist (c : ℕ)
  /-- `_mark_needs_consent`. -/
  | mark (c : ℕ)
  /-- `_release_lock`, with Redis there or not. -/
  | release (c : ℕ) (available : Bool)
  /-- A call raises, or is cancelled, wherever it stands. -/
  | abort (c : ℕ)
  /-- The process of a call dies, wherever it stands. -/
  | crash (c : ℕ)
  /-- The endpoint issues tokens for an authorization code. -/
  | exchange (refreshToken : Text) (tokens : TokenResponse)
  /-- The callback commits the tokens of an exchange. -/
  | relinkCommit (refreshToken : Text) (tokens : TokenResponse)
  /-- The endpoint stops accepting a refresh token. -/
  | revoke (refreshToken : Text)

namespace RefreshState

/-- The state with another record of a call. -/
def setCall (s : RefreshState) (c : ℕ) (call : Call) : RefreshState :=
  { s with calls := Function.update s.calls c (some call) }

/-- The state without a call. -/
def endCall (s : RefreshState) (c : ℕ) : RefreshState :=
  { s with calls := Function.update s.calls c none }

/-- The end of a call that returns or raises: one that has the lock still has to release it. -/
def finish (s : RefreshState) (c : ℕ) (call : Call) : RefreshState :=
  { s with calls := Function.update s.calls c call.finished }

/-- The key of the lock exists. -/
def LockHeld (s : RefreshState) : Prop := ∃ l ∈ s.lock, s.now < l.2

instance (s : RefreshState) : Decidable s.LockHeld :=
  inferInstanceAs (Decidable (∃ l ∈ s.lock, s.now < l.2))

/-- The refresh token in the row. -/
def stored (s : RefreshState) : Option Text := storedRefreshToken s.account

end RefreshState

/-- `SET NX EX`, and what follows. -/
def tryLockStep (s : RefreshState) (c : ℕ) (call : Call) (available : Bool) : RefreshState :=
  if available = true ∧ ¬ s.LockHeld then
    { s.setCall c { call with lockToken := some s.nextLockToken, phase := .locked } with
      lock := some (s.nextLockToken, s.now + seconds oauthRefreshLockTtlSeconds)
      nextLockToken := s.nextLockToken + 1 }
  else
    let deadline := s.now + seconds refreshLockWaitTotalSeconds
    s.setCall c { call with phase := .waiting deadline }

/-- One round of the wait: a fresh token or a needed consent ends the call, and at the deadline it
refreshes with the row it came with. -/
def pollStep (s : RefreshState) (c : ℕ) (call : Call) (deadline : Instant) : RefreshState :=
  if s.account.oauthNeedsConsent then s.finish c call
  else
    match cachedAccessToken s.now s.account with
    | .fresh _ | .invalidTag => s.finish c call
    | .stale => if deadline ≤ s.now then s.setCall c { call with phase := .refreshing } else s

/-- The second look: under the lock the call goes on with the row as it is now. -/
def recheckStep (s : RefreshState) (c : ℕ) (call : Call) : RefreshState :=
  if s.account.oauthNeedsConsent then s.finish c call
  else
    match cachedAccessToken s.now s.account with
    | .fresh _ | .invalidTag => s.finish c call
    | .stale =>
      s.setCall c { call with account := s.account, version := s.version, phase := .refreshing }

/-- The endpoint rotates: a new refresh token supersedes the one it was issued for. -/
def acceptStep (s : RefreshState) (c : ℕ) (call : Call) (refreshToken : Text)
    (tokens : TokenResponse) : RefreshState :=
  { s.setCall c { call with phase := .answered refreshToken tokens } with
    issued := tokens.refreshToken.toList ++ s.issued
    superseded := if tokens.refreshToken = none then s.superseded
      else refreshToken :: s.superseded }

/-- The commit of the refreshed tokens. -/
def persistStep (s : RefreshState) (c : ℕ) (call : Call) (refreshToken : Text)
    (tokens : TokenResponse) : RefreshState :=
  { s.finish c call with
    account := persistRefresh s.now tokens s.account
    version := if writesRefreshToken tokens then s.version + 1 else s.version
    refreshCommits := ⟨refreshToken, s.stored⟩ :: s.refreshCommits }

/-- The commit of the needed consent. -/
def markStep (s : RefreshState) (c : ℕ) (call : Call) : RefreshState :=
  { s.finish c call with
    account := MailAccountsRepo.markOauthNeedsConsent s.now s.account
    consentMarks := if s.account.oauthNeedsConsent then s.consentMarks
      else ⟨s.stored, s.rejected⟩ :: s.consentMarks }

/-- The release: the key is deleted if it still has the token of the call. -/
def releaseStep (s : RefreshState) (c : ℕ) (token : ℕ) (available : Bool) : RefreshState :=
  if available = true ∧ ∃ l ∈ s.lock, l.1 = token then { s.endCall c with lock := none }
  else s.endCall c

/-- The state after a step, where it is enabled. -/
def refreshNext (s : RefreshState) : RefreshLabel → Option RefreshState
  | .tick d => some { s with now := s.now + d }
  | .load c =>
    match s.calls c with
    | none => some (s.setCall c ⟨s.account, s.version, none, .loaded⟩)
    | some _ => none
  | .start c =>
    match s.calls c with
    | some ⟨account, version, token, .loaded⟩ =>
      let call : Call := ⟨account, version, token, .loaded⟩
      match cachedAccessToken s.now account, account.oauthRefreshTokenEncrypted with
      | .stale, some _ => some (s.setCall c { call with phase := .locking })
      | _, _ => some (s.finish c call)
    | _ => none
  | .tryLock c available =>
    match s.calls c with
    | some ⟨account, version, token, .locking⟩ =>
      some (tryLockStep s c ⟨account, version, token, .locking⟩ available)
    | _ => none
  | .poll c =>
    match s.calls c with
    | some ⟨account, version, token, .waiting deadline⟩ =>
      some (pollStep s c ⟨account, version, token, .waiting deadline⟩ deadline)
    | _ => none
  | .recheck c =>
    match s.calls c with
    | some ⟨account, version, token, .locked⟩ =>
      some (recheckStep s c ⟨account, version, token, .locked⟩)
    | _ => none
  | .send c =>
    match s.calls c with
    | some ⟨account, version, token, .refreshing⟩ =>
      match storedRefreshToken account with
      | some r => some (s.setCall c ⟨account, version, token, .sent r⟩)
      | none => some (s.finish c ⟨account, version, token, .refreshing⟩)
    | _ => none
  | .accept c tokens =>
    match s.calls c with
    | some ⟨account, version, token, .sent r⟩ =>
      if r ∉ s.superseded ∧ ∀ t ∈ tokens.refreshToken, t ∉ s.issued then
        some (acceptStep s c ⟨account, version, token, .sent r⟩ r tokens)
      else none
    | _ => none
  | .reject c =>
    match s.calls c with
    | some ⟨account, version, token, .sent r⟩ =>
      if r ∈ s.superseded then
        some { s.setCall c ⟨account, version, token, .refused r⟩ with
          rejected := r :: s.rejected }
      else none
    | _ => none
  | .persist c =>
    match s.calls c with
    | some ⟨account, version, token, .answered r tokens⟩ =>
      some (persistStep s c ⟨account, version, token, .answered r tokens⟩ r tokens)
    | _ => none
  | .mark c =>
    match s.calls c with
    | some ⟨account, version, token, .refused r⟩ =>
      some (markStep s c ⟨account, version, token, .refused r⟩)
    | _ => none
  | .release c available =>
    match s.calls c with
    | some ⟨_, _, some token, .releasing⟩ => some (releaseStep s c token available)
    | _ => none
  | .abort c =>
    match s.calls c with
    | some call => some (s.finish c call)
    | none => none
  | .crash c => some (s.endCall c)
  | .exchange r tokens =>
    if r ≠ [] ∧ r ∉ s.issued then
      some { s with relinks := (r, tokens) :: s.relinks, issued := r :: s.issued }
    else none
  | .relinkCommit r tokens =>
    if (r, tokens) ∈ s.relinks then
      some { s with
        account := OutlookOAuthService.relink s.now tokens r s.account
        version := s.version + 1
        relinks := s.relinks.erase (r, tokens) }
    else none
  | .revoke r => some { s with superseded := r :: s.superseded }

/-- Any account, before the first call. -/
structure RefreshState.Initial (s : RefreshState) : Prop where
  lock_lt : ∀ l ∈ s.lock, l.1 < s.nextLockToken
  calls : ∀ c, s.calls c = none
  relinks : s.relinks = []
  rejected : s.rejected = []
  refreshCommits : s.refreshCommits = []
  consentMarks : s.consentMarks = []

/-- The calls, the endpoint and the re-links. -/
def refreshSystem : System RefreshState RefreshLabel where
  init := RefreshState.Initial
  next := refreshNext

/-! ## What a step does -/

/-- **What a step does**, by what it does to the call whose step it is. -/
inductive RefreshStep (s : RefreshState) : RefreshLabel → RefreshState → Prop
  | tick (d : ℕ) : RefreshStep s (.tick d) { s with now := s.now + d }
  | load (c : ℕ) : RefreshStep s (.load c) (s.setCall c ⟨s.account, s.version, none, .loaded⟩)
  /-- A call returns or raises. -/
  | finish (l : RefreshLabel) (c : ℕ) (call : Call) (hc : s.calls c = some call) :
    RefreshStep s l (s.finish c call)
  /-- A call comes to the lock, or begins to wait for it. -/
  | wait (l : RefreshLabel) (c : ℕ) (call : Call) (phase : CallPhase) (hc : s.calls c = some call)
    (hphase : phase = .locking ∨ ∃ deadline, phase = .waiting deadline) :
    RefreshStep s l (s.setCall c { call with phase := phase })
  | acquire (c : ℕ) (call : Call) (available : Bool) (hfree : ¬ s.LockHeld)
    (hc : s.calls c = some call) :
    RefreshStep s (.tryLock c available)
      { s.setCall c { call with lockToken := some s.nextLockToken, phase := .locked } with
        lock := some (s.nextLockToken, s.now + seconds oauthRefreshLockTtlSeconds)
        nextLockToken := s.nextLockToken + 1 }
  /-- A round of the wait that finds nothing. -/
  | idle (c : ℕ) : RefreshStep s (.poll c) s
  /-- The wait has run into its deadline. -/
  | fallBack (c : ℕ) (call : Call) (deadline : Instant) (hc : s.calls c = some call)
    (hphase : call.phase = .waiting deadline) (hdeadline : deadline ≤ s.now)
    (hconsent : ¬ s.account.oauthNeedsConsent = true)
    (hstale : cachedAccessToken s.now s.account = .stale) :
    RefreshStep s (.poll c) (s.setCall c { call with phase := .refreshing })
  | reread (c : ℕ) (call : Call) (hc : s.calls c = some call) (hphase : call.phase = .locked) :
    RefreshStep s (.recheck c)
      (s.setCall c
        { call with account := s.account, version := s.version, phase := .refreshing })
  | send (c : ℕ) (call : Call) (r : Text) (hc : s.calls c = some call)
    (hphase : call.phase = .refreshing) (hr : storedRefreshToken call.account = some r) :
    RefreshStep s (.send c) (s.setCall c { call with phase := .sent r })
  | accept (c : ℕ) (call : Call) (r : Text) (tokens : TokenResponse) (hc : s.calls c = some call)
    (hphase : call.phase = .sent r) :
    RefreshStep s (.accept c tokens) (acceptStep s c call r tokens)
  | reject (c : ℕ) (call : Call) (r : Text) (hc : s.calls c = some call)
    (hphase : call.phase = .sent r) :
    RefreshStep s (.reject c)
      { s.setCall c { call with phase := .refused r } with rejected := r :: s.rejected }
  | persist (c : ℕ) (call : Call) (r : Text) (tokens : TokenResponse) (hc : s.calls c = some call)
    (hphase : call.phase = .answered r tokens) :
    RefreshStep s (.persist c) (persistStep s c call r tokens)
  | mark (c : ℕ) (call : Call) (r : Text) (hc : s.calls c = some call)
    (hphase : call.phase = .refused r) : RefreshStep s (.mark c) (markStep s c call)
  | release (c n : ℕ) (call : Call) (available : Bool) (hc : s.calls c = some call)
    (hphase : call.phase = .releasing) (hn : call.lockToken = some n)
    (howner : ∃ l ∈ s.lock, l.1 = n) :
    RefreshStep s (.release c available) { s.endCall c with lock := none }
  /-- A call ends without a word to Redis, or without one that arrives. -/
  | leave (l : RefreshLabel) (c : ℕ) : RefreshStep s l (s.endCall c)
  | exchange (r : Text) (tokens : TokenResponse) :
    RefreshStep s (.exchange r tokens)
      { s with relinks := (r, tokens) :: s.relinks, issued := r :: s.issued }
  | relinkCommit (r : Text) (tokens : TokenResponse) :
    RefreshStep s (.relinkCommit r tokens)
      { s with
        account := OutlookOAuthService.relink s.now tokens r s.account
        version := s.version + 1
        relinks := s.relinks.erase (r, tokens) }
  | revoke (r : Text) : RefreshStep s (.revoke r) { s with superseded := r :: s.superseded }

section Step

variable {s t : RefreshState} {c : ℕ} {call : Call}

theorem refreshStep_tryLock (hc : s.calls c = some call) (available : Bool) :
    RefreshStep s (.tryLock c available) (tryLockStep s c call available) := by
  unfold tryLockStep
  split_ifs with hfree
  · exact .acquire c call available hfree.2 hc
  · exact .wait _ c call _ hc (Or.inr ⟨_, rfl⟩)

theorem refreshStep_poll {deadline : Instant} (hc : s.calls c = some call)
    (hphase : call.phase = .waiting deadline) :
    RefreshStep s (.poll c) (pollStep s c call deadline) := by
  unfold pollStep
  split_ifs with hconsent hdeadline
  · exact .finish _ c call hc
  · split
    · exact .finish _ c call hc
    · exact .finish _ c call hc
    · next hstale => exact .fallBack c call deadline hc hphase hdeadline hconsent hstale
  · split
    · exact .finish _ c call hc
    · exact .finish _ c call hc
    · exact .idle c

theorem refreshStep_recheck (hc : s.calls c = some call) (hphase : call.phase = .locked) :
    RefreshStep s (.recheck c) (recheckStep s c call) := by
  unfold recheckStep
  split_ifs
  · exact .finish _ c call hc
  · split
    · exact .finish _ c call hc
    · exact .finish _ c call hc
    · exact .reread c call hc hphase

theorem refreshStep_release {n : ℕ} (hc : s.calls c = some call) (hphase : call.phase = .releasing)
    (hn : call.lockToken = some n) (available : Bool) :
    RefreshStep s (.release c available) (releaseStep s c n available) := by
  unfold releaseStep
  split_ifs with howner
  · exact .release c n call available hc hphase hn howner.2
  · exact .leave _ c

/-- **Every step is one of these.**

**Proof sketch.** By cases on the label. The transition function matches the phase that the label
needs; where the call is in it, the result is by definition the state of one constructor, and in
every other phase the step is not enabled. The labels whose result depends on the lock or on the row
that is read have a lemma of their own. -/
theorem refreshStep_of_next {l : RefreshLabel} (ht : refreshNext s l = some t) :
    RefreshStep s l t := by
  cases l with
  | tick d =>
    obtain rfl := Option.some.inj ht
    exact .tick d
  | load c =>
    simp only [refreshNext] at ht
    split at ht
    · obtain rfl := Option.some.inj ht
      exact .load c
    · cases ht
  | start c =>
    simp only [refreshNext] at ht
    split at ht
    · next account version token hcall =>
      split at ht
      · obtain rfl := Option.some.inj ht
        exact .wait _ c _ _ hcall (Or.inl rfl)
      · obtain rfl := Option.some.inj ht
        exact .finish _ c _ hcall
    · cases ht
  | tryLock c available =>
    simp only [refreshNext] at ht
    split at ht
    · next account version token hcall =>
      obtain rfl := Option.some.inj ht
      exact refreshStep_tryLock hcall available
    · cases ht
  | poll c =>
    simp only [refreshNext] at ht
    split at ht
    · next account version token deadline hcall =>
      obtain rfl := Option.some.inj ht
      exact refreshStep_poll hcall rfl
    · cases ht
  | recheck c =>
    simp only [refreshNext] at ht
    split at ht
    · next account version token hcall =>
      obtain rfl := Option.some.inj ht
      exact refreshStep_recheck hcall rfl
    · cases ht
  | send c =>
    simp only [refreshNext] at ht
    split at ht
    · next account version token hcall =>
      split at ht
      · next r hr =>
        obtain rfl := Option.some.inj ht
        exact .send c _ r hcall rfl hr
      · obtain rfl := Option.some.inj ht
        exact .finish _ c _ hcall
    · cases ht
  | accept c tokens =>
    simp only [refreshNext] at ht
    split at ht
    · next account version token r hcall =>
      split_ifs at ht
      obtain rfl := Option.some.inj ht
      exact .accept c _ r tokens hcall rfl
    · cases ht
  | reject c =>
    simp only [refreshNext] at ht
    split at ht
    · next account version token r hcall =>
      split_ifs at ht
      obtain rfl := Option.some.inj ht
      exact .reject c _ r hcall rfl
    · cases ht
  | persist c =>
    simp only [refreshNext] at ht
    split at ht
    · next account version token r tokens hcall =>
      obtain rfl := Option.some.inj ht
      exact .persist c _ r tokens hcall rfl
    · cases ht
  | mark c =>
    simp only [refreshNext] at ht
    split at ht
    · next account version token r hcall =>
      obtain rfl := Option.some.inj ht
      exact .mark c _ r hcall rfl
    · cases ht
  | release c available =>
    simp only [refreshNext] at ht
    split at ht
    · next account version token hcall =>
      obtain rfl := Option.some.inj ht
      exact refreshStep_release hcall rfl rfl available
    · cases ht
  | abort c =>
    simp only [refreshNext] at ht
    split at ht
    · next call hcall =>
      obtain rfl := Option.some.inj ht
      exact .finish _ c call hcall
    · cases ht
  | crash c =>
    obtain rfl := Option.some.inj ht
    exact .leave _ c
  | exchange r tokens =>
    simp only [refreshNext] at ht
    split_ifs at ht
    obtain rfl := Option.some.inj ht
    exact .exchange r tokens
  | relinkCommit r tokens =>
    simp only [refreshNext] at ht
    split_ifs at ht
    obtain rfl := Option.some.inj ht
    exact .relinkCommit r tokens
  | revoke r =>
    obtain rfl := Option.some.inj ht
    exact .revoke r

end Step

/-! ## The promises -/

/-- **Needs-consent is sound**: whenever `oauth_needs_consent` became true, the refresh token in the
row was one that the endpoint had rejected. -/
def NeedsConsentSound (s : RefreshState) : Prop :=
  ∀ m ∈ s.consentMarks, ∃ r ∈ m.rejected, m.stored = some r

/-- **No refresh token is lost**: whenever a refreshed pair was committed, the row held the refresh
token it had been issued for. -/
def NoTokenLost (s : RefreshState) : Prop :=
  ∀ m ∈ s.refreshCommits, m.stored = some m.issuedFor

end OAuthRefresh

end MailAggregator
