import MailAggregator.OAuth.TokenService
import MailAggregator.Worker.Breaker

set_option relaxedAutoImplicit false
set_option autoImplicit false

/-!
# The attempt of one account

`sync_one_account` from the credentials to the recorded outcome: every place where it can raise,
which `except` clause the exception meets, and what is written to the row of the account.

## Main definitions

* `MailAggregator.SyncCycle.SyncEnv` — what an attempt meets outside its own code.
* `MailAggregator.SyncCycle.resolveCredentials` — how the credentials resolve.
* `MailAggregator.SyncCycle.syncOneAccount` — the attempt.
* `MailAggregator.SyncCycle.HandsOver` — the attempt hands an exception to `handleSyncError`.

## Main results

* `MailAggregator.SyncCycle.syncOneAccount_of_handsOver` — what is handed over decides the rest
  of the attempt.
* `MailAggregator.SyncCycle.syncOneAccount_cases` — the ends of an attempt.
-/

namespace MailAggregator

open PyText ErrorClassify

namespace SyncCycle

/-! ## The environment -/

/-- How `get_valid_access_token` ends where the cached token is stale. -/
inductive TokenEnd where
  /-- An access token, with the tokens that this attempt stored if it refreshed. -/
  | token (persisted : Option (Instant × TokenResponse))
  /-- `OAuthRefreshInvalidError` of the token endpoint: the service has marked the row. -/
  | refused
  /-- `OAuthRefreshInvalidError` because the row, read again, carries the mark of a peer. -/
  | refusedByPeer
  /-- A stored token does not decrypt. -/
  | invalidTag
  /-- Any other exception. The code is read if it is an `OAuthError`. -/
  | raised (exc : PyException) (code : Text)
      (not_refused : ¬ exc.IsInstance [.oauthRefreshInvalidError])

/-- What an attempt meets: the clock when it starts and when it records its outcome, and how each
thing it calls ends. -/
structure SyncEnv where
  startedAt : Instant := 0
  now : Instant := 0
  token : TokenEnd := .token none
  /-- The exception of `assert_public_host_async`, with the `message` of an
  `InvalidHostError`. -/
  host : Option (PyException × Text) := none
  /-- `fetch_blocking` under its deadline: `uidnext` and `uidvalidity` of the box. -/
  fetch : Except PyException (Option ℕ × ℕ) := .ok (none, 0)
  /-- The transactions of the messages and of `mark_sync_success`: the inserted messages and the
  conflicts. -/
  store : Except PyException (ℕ × ℕ) := .ok (0, 0)
  /-- The exception of a write to `last_sync_error`, where it fails. -/
  record : Option PyException := none

/-- The token service found the mark of a peer in the row it read again. -/
def SyncEnv.seesPeer (env : SyncEnv) : Bool :=
  match env.token with
  | .refusedByPeer => true
  | _ => false

/-! ## The credentials -/

/-- The exception of a failed `assert`. -/
def assertionError (text : Text) : PyException where
  typeName := "AssertionError".toList
  text := text
  classes := [.assertionError]

/-- How `_resolve_credentials` ends. -/
inductive CredentialsEnd where
  /-- A password or an access token. -/
  | ready (persisted : Option (Instant × TokenResponse))
  /-- The account waits for consent: it gets the marker and is skipped. -/
  | needsConsent
  /-- The refresh token is refused: the account is skipped, and marked unless it already is. -/
  | refused (marks : Bool)
  /-- A failure that is handed to `_handle_sync_error`. -/
  | failed (exc : PyException) (detail : Text)

/-- `_resolve_oauth_access_token`, with the parts of `get_valid_access_token` before the lock. -/
def resolveOauthAccessToken (account : MailAccount) (env : SyncEnv) : CredentialsEnd :=
  match OutlookTokenService.cachedAccessToken env.startedAt account with
  | .fresh _ => .ready none
  | .invalidTag => .failed invalidTag "oauth_token_unexpected: InvalidTag".toList
  | .stale =>
    -- "missing refresh token": the service raises and marks nothing
    if account.oauthRefreshTokenEncrypted = none then .refused false
    else
      match env.token with
      | .token persisted => .ready persisted
      | .refused => .refused true
      | .refusedByPeer => .refused false
      | .invalidTag => .failed invalidTag "oauth_token_unexpected: InvalidTag".toList
      | .raised exc code _ =>
        if exc.IsInstance [.oauthError] then .failed exc ("oauth_token_error: ".toList ++ code)
        else .failed exc ("oauth_token_unexpected: ".toList ++ exc.typeName)

/-- `_resolve_credentials`. -/
def resolveCredentials (account : MailAccount) (env : SyncEnv) : CredentialsEnd :=
  match account.authType with
  | .oauthOutlook =>
    if account.oauthNeedsConsent then .needsConsent else resolveOauthAccessToken account env
  | .password =>
    match account.encryptedPassword with
    | none => .failed (assertionError []) "decrypt_fail".toList
    | some blob =>
      match decryptMailPassword blob account.id with
      | none => .failed invalidTag "decrypt_fail".toList
      | some _ => .ready none

/-! ## The attempt -/

/-- The write of refreshed tokens, if there was a refresh. -/
def tokenWrites (account : MailAccount) (persisted : Option (Instant × TokenResponse)) :
    List (Instant × RowWrite) :=
  persisted.toList.map fun p =>
    (p.1, .oauthTokens (OutlookTokenService.refreshValues account.id p.1 p.2))

theorem tokenWrites_not_success (account : MailAccount)
    (persisted : Option (Instant × TokenResponse)) :
    ∀ w ∈ tokenWrites account persisted, ¬ w.2.IsSuccess := by
  intro w hw
  obtain ⟨p, _, rfl⟩ := List.mem_map.mp hw
  exact id

/-- An attempt that an exception leaves. -/
def Attempt.escaped (account : MailAccount) (writes : List (Instant × RowWrite))
    (exc : PyException) : Attempt account where
  writes := writes
  result := .error exc
  result_accountId := fun _ h => by cases h
  result_of_success := fun _ _ _ _ h => by cases h

/-- An attempt that returns the outcome `ok`. -/
def Attempt.okay (account : MailAccount) (newCount conflictCount : ℕ)
    (writes : List (Instant × RowWrite)) : Attempt account where
  writes := writes
  result := .ok
    { accountId := account.id, userId := account.userId, newCount, conflictCount, outcome := .ok }
  result_accountId := by
    rintro r hr
    obtain rfl := Except.ok.inj hr
    rfl
  result_of_success := by
    rintro w _ _ r hr
    obtain rfl := Except.ok.inj hr
    rfl

/-- The attempt from the call of `_handle_sync_error` on: an exception of the write it makes
leaves the attempt. -/
def handled (S : Settings) (account : MailAccount) (env : SyncEnv) (exc : PyException)
    (detail : Text) (persisted : Option (Instant × TokenResponse)) :
    Attempt account :=
  match env.record, (handleSyncError S env.now account exc detail).2 with
  | some recordExc, _ :: _ => .escaped account (tokenWrites account persisted) recordExc
  | _, _ =>
    failedAttempt S env.now account exc detail (tokenWrites account persisted)
      (tokenWrites_not_success account persisted)

/-- The text of an exception of the fetch, on one line. -/
def fetchDetail (exc : PyException) : Text :=
  replaceChar '\n' ' ' (replaceChar '\r' ' ' exc.text)

/-- `sync_one_account`. -/
def syncOneAccount (S : Settings) (account : MailAccount) (env : SyncEnv) : Attempt account :=
  match resolveCredentials account env with
  | .needsConsent =>
    match env.record with
    | some recordExc => .escaped account [] recordExc
    | none => .okay account 0 0 [(env.now, .needsConsentError)]
  | .refused marks => .okay account 0 0 (if marks then [(env.now, .needsConsent)] else [])
  | .failed exc detail => handled S account env exc detail none
  | .ready persisted =>
    match env.host with
    | some (exc, message) =>
      if exc.IsInstance [.invalidHostError] then handled S account env exc message persisted
      else .escaped account (tokenWrites account persisted) exc
    | none =>
      match env.fetch with
      | .error exc => handled S account env exc (fetchDetail exc) persisted
      | .ok (uidnext, uidvalidity) =>
        match env.store with
        | .error exc => .escaped account (tokenWrites account persisted) exc
        | .ok (newCount, conflictCount) =>
          .okay account newCount conflictCount
            (tokenWrites account persisted ++ [(env.now, .syncSuccess uidnext (some uidvalidity))])

/-! ## What is handed over -/

/-- The attempt hands an exception to `_handle_sync_error`, with a detail text. -/
inductive HandsOver (account : MailAccount) (env : SyncEnv) (exc : PyException) (detail : Text) :
    Option (Instant × TokenResponse) → Prop
  | credentials (h : resolveCredentials account env = .failed exc detail) :
      HandsOver account env exc detail none
  | host {persisted : Option (Instant × TokenResponse)}
      (h : resolveCredentials account env = .ready persisted) (hh : env.host = some (exc, detail))
      (hexc : exc.IsInstance [.invalidHostError]) : HandsOver account env exc detail persisted
  | fetch {persisted : Option (Instant × TokenResponse)}
      (h : resolveCredentials account env = .ready persisted) (hh : env.host = none)
      (hf : env.fetch = .error exc) (hd : detail = fetchDetail exc) :
      HandsOver account env exc detail persisted

/-- The ends of an attempt. -/
inductive AttemptEnd (S : Settings) (account : MailAccount) (env : SyncEnv) : Attempt account → Prop
  | escaped (exc : PyException) (persisted : Option (Instant × TokenResponse)) :
      AttemptEnd S account env (.escaped account (tokenWrites account persisted) exc)
  | failed (exc : PyException) (detail : Text) (persisted : Option (Instant × TokenResponse)) :
      AttemptEnd S account env (failedAttempt S env.now account exc detail
        (tokenWrites account persisted) (tokenWrites_not_success account persisted))
  | needsConsent (h : account.oauthNeedsConsent = true) :
      AttemptEnd S account env (.okay account 0 0 [(env.now, .needsConsentError)])
  | refused (marks : Bool) (h : resolveCredentials account env = .refused marks) :
      AttemptEnd S account env
        (.okay account 0 0 (if marks then [(env.now, .needsConsent)] else []))
  | synced (persisted : Option (Instant × TokenResponse)) (uidnext : Option ℕ)
      (uidvalidity newCount conflictCount : ℕ)
      (h : account.authType = .oauthOutlook → account.oauthNeedsConsent = false) :
      AttemptEnd S account env (.okay account newCount conflictCount
        (tokenWrites account persisted ++ [(env.now, .syncSuccess uidnext (some uidvalidity))]))

section Ends

variable {S : Settings} {account : MailAccount} {env : SyncEnv} {exc : PyException} {detail : Text}
  {persisted : Option (Instant × TokenResponse)}

/-- What is handed over decides the rest of the attempt. -/
theorem syncOneAccount_of_handsOver (h : HandsOver account env exc detail persisted) :
    syncOneAccount S account env = handled S account env exc detail persisted := by
  unfold syncOneAccount
  cases h with
  | credentials h => rw [h]
  | host h hh hexc =>
    rw [h]
    simp only [hh, if_pos hexc]
  | fetch h hh hf hd =>
    rw [h]
    simp only [hh, hf, hd]

/-- Where the error can be recorded, an attempt that is handed over returns what
`_handle_sync_error` returns. -/
theorem handled_of_record (h : env.record = none) :
    handled S account env exc detail persisted =
      failedAttempt S env.now account exc detail (tokenWrites account persisted)
        (tokenWrites_not_success account persisted) := by
  unfold handled
  rw [h]

/-- A write of the error that fails leaves the attempt. -/
theorem handled_of_record_fails {recordExc : PyException} (h : env.record = some recordExc)
    (hw : (handleSyncError S env.now account exc detail).2 ≠ []) :
    handled S account env exc detail persisted =
      .escaped account (tokenWrites account persisted) recordExc := by
  unfold handled
  rw [h]
  cases hws : (handleSyncError S env.now account exc detail).2 with
  | nil => exact absurd hws hw
  | cons w ws => rfl

/-- What is handed over is recorded, or the exception of its write leaves the attempt. -/
theorem handled_cases :
    AttemptEnd S account env (handled S account env exc detail persisted) := by
  unfold handled
  split
  · exact .escaped _ persisted
  · exact .failed exc detail persisted

/-- A failed attempt shows its error, or it is a transient one soon after a success. -/
theorem handleSyncError_writes_cases (S : Settings) (now : Instant) (account : MailAccount)
    (exc : PyException) (detail : Text) :
    (handleSyncError S now account exc detail).2 = [] ∧
        shouldSuppressTransient S now account.lastSyncedAt = true ∨
      (handleSyncError S now account exc detail).2 =
        [(now, .transientError (errorText S account exc detail))] := by
  unfold handleSyncError
  simp only
  split_ifs with _ hsuppress
  · exact Or.inl ⟨rfl, hsuppress⟩
  · exact Or.inr rfl
  · exact Or.inr rfl

/-- The flag of the row, as it was loaded, is looked at first. -/
theorem needsConsent_of_resolveCredentials (h : resolveCredentials account env = .needsConsent) :
    account.oauthNeedsConsent = true := by
  unfold resolveCredentials at h
  cases hauth : account.authType with
  | oauthOutlook =>
    simp only [hauth] at h
    split_ifs at h with hneeds
    · exact hneeds
    · unfold resolveOauthAccessToken at h
      repeat' first | cases h | split at h
  | password =>
    simp only [hauth] at h
    repeat' first | cases h | split at h

/-- A skip without a mark: the refresh token is missing, or a peer has set the mark.

**Proof sketch.** Only an OAuth account that is not waiting for consent comes to the refresh. It is
skipped without a mark if it has no refresh token, or if the refresh finds that another worker has
set the mark. -/
theorem refused_cases (h : resolveCredentials account env = .refused false) :
    account.authType = .oauthOutlook ∧ account.oauthNeedsConsent = false ∧
      (account.oauthRefreshTokenEncrypted = none ∨ env.token = .refusedByPeer) := by
  unfold resolveCredentials at h
  cases hauth : account.authType with
  | oauthOutlook =>
    simp only [hauth] at h
    split_ifs at h with hneeds
    refine ⟨rfl, eq_false_of_ne_true hneeds, ?_⟩
    unfold resolveOauthAccessToken at h
    split at h
    · cases h
    · cases h
    · split_ifs at h with hrefresh
      · exact Or.inl hrefresh
      · right
        cases htoken : env.token with
        | refusedByPeer => rfl
        | raised exc code hnot =>
          simp only [htoken] at h
          split_ifs at h
        | token _ => simp [htoken] at h
        | refused => simp [htoken] at h
        | invalidTag => simp [htoken] at h
  | password =>
    simp only [hauth] at h
    repeat' first | cases h | split at h

/-- An account that waits for consent gets no credentials. -/
theorem needsConsent_of_ready (hauth : account.authType = .oauthOutlook)
    (h : resolveCredentials account env = .ready persisted) :
    account.oauthNeedsConsent = false := by
  unfold resolveCredentials at h
  rw [hauth] at h
  simp only at h
  split_ifs at h with hneeds
  exact eq_false_of_ne_true hneeds

/-- **The ends of an attempt**, one for each way through `sync_one_account`.

**Proof sketch.** Along the branches of the function: the credentials, the host check, the fetch,
the storing. Each `return` and each exception that is not caught is one constructor; the errors that
are handed over share one. -/
theorem syncOneAccount_cases (S : Settings) (account : MailAccount) (env : SyncEnv) :
    AttemptEnd S account env (syncOneAccount S account env) := by
  unfold syncOneAccount
  cases hcred : resolveCredentials account env with
  | needsConsent =>
    cases env.record with
    | some recordExc => exact .escaped recordExc none
    | none => exact .needsConsent (needsConsent_of_resolveCredentials hcred)
  | refused marks => exact .refused marks hcred
  | failed exc detail => exact handled_cases
  | ready persisted =>
    simp only
    cases env.host with
    | some host =>
      simp only
      split_ifs
      · exact handled_cases
      · exact .escaped host.1 persisted
    | none =>
      cases env.fetch with
      | error exc => exact handled_cases
      | ok box =>
        cases env.store with
        | error exc => exact .escaped exc persisted
        | ok counts =>
          refine .synced persisted box.1 box.2 counts.1 counts.2 fun hauth => ?_
          exact needsConsent_of_ready hauth hcred

end Ends

/-- A mailbox with a password that decrypts. -/
def passwordMailbox : MailAccount :=
  { id := 1, userId := 1, email := "a@example.com".toList,
    encryptedPassword := some (encryptMailPassword "secret".toList 1) }

end SyncCycle

end MailAggregator
