import MailAggregator.Worker.SyncCycle

set_option relaxedAutoImplicit false
set_option autoImplicit false

/-!
# The two-phase circuit breaker

What one pass over a batch of accounts does to the failure counts and the active flags, for any
outcomes of phase 1 and any prior rows.

## Main definitions

* `MailAggregator.SyncCycle.IsPermanent` — an account of the batch ended with a permanent
  outcome.
* `MailAggregator.SyncCycle.IsHandledPermanent` — and the outcome comes from
  `handleSyncError`.

## Main results

* `MailAggregator.SyncCycle.runForAccounts_spec` — a tripped breaker changes nothing in phase 2;
  otherwise each permanent account is counted once, and disabled if its error was classified.
* `MailAggregator.SyncCycle.stamped_account_stays_active` — a row that already carries the
  disable stamp is not disabled.
-/

namespace MailAggregator

open PyText ErrorClassify

namespace SyncCycle

/-! ## Phase 1 -/

@[simp] theorem RowWrite.apply_id (now : Instant) (w : RowWrite) (a : MailAccount) :
    (w.apply now a).id = a.id := by
  cases w with
  | needsConsentError =>
    simp only [RowWrite.apply, MailAccountsRepo.markOauthNeedsConsentError]
    split_ifs <;> rfl
  | _ => rfl

/-- No write of an attempt touches the active flag or the disable stamp, or counts a failure. -/
theorem RowWrite.apply_bookkeeping (now : Instant) (w : RowWrite) (a : MailAccount) :
    (w.apply now a).isActive = a.isActive ∧
      (w.apply now a).disabledAlertSentAt = a.disabledAlertSentAt ∧
      (w.apply now a).consecutiveFailures ≤ a.consecutiveFailures ∧
      (¬ w.IsSuccess → (w.apply now a).consecutiveFailures = a.consecutiveFailures) := by
  cases w with
  | syncSuccess uidnext uidvalidity =>
    exact ⟨rfl, rfl, Nat.zero_le _, fun h => absurd trivial h⟩
  | transientError error => exact ⟨rfl, rfl, le_rfl, fun _ => rfl⟩
  | needsConsent => exact ⟨rfl, rfl, le_rfl, fun _ => rfl⟩
  | needsConsentError =>
    simp only [RowWrite.apply, MailAccountsRepo.markOauthNeedsConsentError]
    split_ifs <;> exact ⟨rfl, rfl, le_rfl, fun _ => rfl⟩
  | oauthTokens values => exact ⟨rfl, rfl, le_rfl, fun _ => rfl⟩

/-- The writes of an attempt in their order. -/
def applyWrites (writes : List (Instant × RowWrite)) (a : MailAccount) : MailAccount :=
  writes.foldl (fun a w => w.2.apply w.1 a) a

theorem applyWrites_bookkeeping (writes : List (Instant × RowWrite)) (a : MailAccount) :
    (applyWrites writes a).id = a.id ∧ (applyWrites writes a).isActive = a.isActive ∧
      (applyWrites writes a).disabledAlertSentAt = a.disabledAlertSentAt ∧
      (applyWrites writes a).consecutiveFailures ≤ a.consecutiveFailures ∧
      ((∀ w ∈ writes, ¬ w.2.IsSuccess) →
        (applyWrites writes a).consecutiveFailures = a.consecutiveFailures) := by
  induction writes generalizing a with
  | nil => exact ⟨rfl, rfl, rfl, le_rfl, fun _ => rfl⟩
  | cons w writes ih =>
    obtain ⟨hid, hact, hst, hle, heq⟩ := ih (w.2.apply w.1 a)
    obtain ⟨wact, wst, wle, weq⟩ := w.2.apply_bookkeeping w.1 a
    rw [applyWrites, List.foldl_cons, ← applyWrites]
    refine ⟨hid.trans (w.2.apply_id w.1 a), hact.trans wact, hst.trans wst, hle.trans wle, ?_⟩
    intro hns
    rw [heq fun x hx => hns x (List.mem_cons_of_mem w hx), weq (hns w List.mem_cons_self)]

variable {account : MailAccount}

/-- Phase 1 leaves the active flag and the disable stamp of a row alone, and counts no
failure. -/
theorem Attempt.row_bookkeeping (now : Instant) (att : Attempt account) (a : MailAccount) :
    (att.row now a).id = a.id ∧ (att.row now a).isActive = a.isActive ∧
      (att.row now a).disabledAlertSentAt = a.disabledAlertSentAt ∧
      (att.row now a).consecutiveFailures ≤ a.consecutiveFailures := by
  obtain ⟨hid, hact, hst, hle, _⟩ := applyWrites_bookkeeping att.writes a
  unfold Attempt.row
  cases att.result with
  | ok r => exact ⟨hid, hact, hst, hle⟩
  | error exc => exact ⟨hid, hact, hst, hle⟩

/-- Phase 1 leaves the failure count of a permanent account alone. -/
theorem Attempt.row_consecutiveFailures (now : Instant) (att : Attempt account) {r : AccountResult}
    (hr : att.result = .ok r) (hp : r.outcome = .permanent) (a : MailAccount) :
    (att.row now a).consecutiveFailures = a.consecutiveFailures := by
  have hns : ∀ w ∈ att.writes, ¬ w.2.IsSuccess := fun w hw hs => by
    have := att.result_of_success w hw hs r hr
    rw [hp] at this
    cases this
  have heq := (applyWrites_bookkeeping att.writes a).2.2.2.2 hns
  unfold Attempt.row
  rw [hr]
  exact heq

/-! ## Phase 2 -/

/-- In a table with distinct ids, phase 2 is one update for each permanent result. -/
theorem foldl_applyPermanent {S : Settings} {now : Instant} (permanent : List AccountResult)
    {table : List MailAccount} (hn : (table.map MailAccount.id).Nodup) :
    permanent.foldl (applyPermanent S now) table =
      MailAccountsRepo.updateAll AccountResult.accountId (permanentRow S now) permanent table := by
  induction permanent generalizing table with
  | nil => rfl
  | cons r permanent ih =>
    rw [List.foldl_cons, applyPermanent_eq hn, MailAccountsRepo.updateAll, List.foldl_cons,
      ← MailAccountsRepo.updateAll]
    exact ih ((MailAccountsRepo.map_id_updateWhereId (permanentRow_id S now r)).symm ▸ hn)

section Pass

variable (accounts : List MailAccount) (attempt : (a : MailAccount) → Attempt a)

/-- The results that phase 1 collects. -/
def results : List AccountResult := accounts.filterMap fun a => (attempt a).result.toOption

/-- The permanent results, on which phase 2 acts. -/
def permanentResults : List AccountResult :=
  (results accounts attempt).filter fun r => r.outcome = .permanent

/-- The account `i` of the batch ended with a permanent outcome. -/
def IsPermanent (i : ℕ) : Prop :=
  ∃ a ∈ accounts, a.id = i ∧ ∃ r, (attempt a).result = .ok r ∧ r.outcome = .permanent

/-- The account `i` of the batch ended with a permanent outcome that `handleSyncError` made. -/
def IsHandledPermanent (S : Settings) (i : ℕ) : Prop :=
  ∃ a ∈ accounts, a.id = i ∧ ∃ now exc detail,
    (attempt a).result = .ok (handleSyncError S now a exc detail).1 ∧
      (handleSyncError S now a exc detail).1.outcome = .permanent

variable {accounts attempt}

theorem mem_permanentResults {r : AccountResult} :
    r ∈ permanentResults accounts attempt ↔
      r.outcome = .permanent ∧ ∃ a ∈ accounts, (attempt a).result = .ok r := by
  have htoOption : ∀ a, (attempt a).result.toOption = some r ↔ (attempt a).result = .ok r := by
    intro a
    cases (attempt a).result <;> simp [Except.toOption]
  simp [permanentResults, results, htoOption, and_comm]

/-- The permanent results are about different accounts. -/
theorem permanentResults_nodup (hn : (accounts.map MailAccount.id).Nodup) :
    ((permanentResults accounts attempt).map AccountResult.accountId).Nodup := by
  have hsub : ((results accounts attempt).map AccountResult.accountId).Sublist
      (accounts.map MailAccount.id) := by
    clear hn
    rw [results]
    induction accounts with
    | nil => exact List.Sublist.slnil
    | cons a accounts ih =>
      rw [List.filterMap_cons, List.map_cons]
      cases hr : (attempt a).result with
      | error e => exact ih.cons _
      | ok r =>
        rw [← (attempt a).result_accountId r hr]
        exact ih.cons_cons _
  exact hn.sublist ((List.filter_sublist.map _).trans hsub)

theorem mem_permanentResults_accountId {i : ℕ} :
    i ∈ (permanentResults accounts attempt).map AccountResult.accountId ↔
      IsPermanent accounts attempt i := by
  rw [List.mem_map]
  constructor
  · rintro ⟨r, hr, rfl⟩
    obtain ⟨hp, a, ha, hres⟩ := mem_permanentResults.mp hr
    exact ⟨a, ha, ((attempt a).result_accountId r hres).symm, r, hres, hp⟩
  · rintro ⟨a, ha, rfl, r, hres, hp⟩
    exact ⟨r, mem_permanentResults.mpr ⟨hp, a, ha, hres⟩, (attempt a).result_accountId r hres⟩

/-! ## The pass -/

variable (S : Settings) (fdiv : ℕ → ℕ → ℚ) (now : Instant) {table : List MailAccount}

/-- Phase 1 keeps each row, its active flag and its stamp, counts no failure, and leaves the
count of a permanent account alone.

**Proof sketch.** Phase 1 updates the row of each account of the batch by the writes of its attempt.
None of these touches the flag or the stamp; the count is only ever reset, and that is by a success,
which an attempt with a permanent outcome has not recorded. -/
theorem getById_afterPhaseOne (hn : (accounts.map MailAccount.id).Nodup) {i : ℕ}
    {before : MailAccount} (hb : MailAccountsRepo.getById table i = some before) :
    ∃ mid, MailAccountsRepo.getById
        (runForAccounts S fdiv now table accounts attempt).afterPhaseOne i = some mid ∧
      mid.isActive = before.isActive ∧ mid.disabledAlertSentAt = before.disabledAlertSentAt ∧
      mid.consecutiveFailures ≤ before.consecutiveFailures ∧
      (IsPermanent accounts attempt i →
        mid.consecutiveFailures = before.consecutiveFailures) := by
  have hid : ∀ a b, ((attempt a).row now b).id = b.id :=
    fun a b => ((attempt a).row_bookkeeping now b).1
  show ∃ mid, MailAccountsRepo.getById (MailAccountsRepo.updateAll MailAccount.id
    (fun a => (attempt a).row now) accounts table) i = some mid ∧ _
  by_cases hi : i ∈ accounts.map MailAccount.id
  · obtain ⟨a, ha, rfl⟩ := List.mem_map.mp hi
    have hget := MailAccountsRepo.getById_updateAll_of_mem hid hn ha table
    rw [hb, Option.map_some] at hget
    obtain ⟨_, hact, hst, hle⟩ := (attempt a).row_bookkeeping now before
    refine ⟨_, hget, hact, hst, hle, ?_⟩
    rintro ⟨a', ha', hid', r, hr, hp⟩
    obtain rfl : a' = a := List.inj_on_of_nodup_map hn ha' ha hid'
    exact (attempt a').row_consecutiveFailures now hr hp before
  · have hget := MailAccountsRepo.getById_updateAll_of_not_mem hid hi table
    rw [hb] at hget
    refine ⟨before, hget, rfl, rfl, le_rfl, ?_⟩
    rintro ⟨a, ha, rfl, _⟩
    exact absurd (List.mem_map_of_mem ha) hi

/-- **Phase 2** of a pass whose breaker did not trip: one update of the row of each permanent
account, and of no other row.

**Proof sketch.** The updates of phase 2 are for the permanent accounts, one for each, as the ids of
the accounts are distinct. So the row of an account has the one update of its result, and a row of
no permanent account has none. -/
theorem getById_phaseTwo (hn : (accounts.map MailAccount.id).Nodup)
    (ht : (table.map MailAccount.id).Nodup)
    (htrip : (runForAccounts S fdiv now table accounts attempt).breakerTripped = false)
    {i : ℕ} {mid : MailAccount}
    (hmid : MailAccountsRepo.getById
      (runForAccounts S fdiv now table accounts attempt).afterPhaseOne i = some mid) :
    (¬ IsPermanent accounts attempt i → MailAccountsRepo.getById
        (runForAccounts S fdiv now table accounts attempt).table i = some mid) ∧
      ∀ r ∈ permanentResults accounts attempt, r.accountId = i → MailAccountsRepo.getById
        (runForAccounts S fdiv now table accounts attempt).table i =
          some (permanentRow S now r mid) := by
  have hphase : ((runForAccounts S fdiv now table accounts attempt).afterPhaseOne.map
      MailAccount.id).Nodup := by
    have hid : ∀ a b, ((attempt a).row now b).id = b.id :=
      fun a b => ((attempt a).row_bookkeeping now b).1
    exact (MailAccountsRepo.map_id_updateAll hid accounts table).symm ▸ ht
  have htable : (runForAccounts S fdiv now table accounts attempt).table =
      (permanentResults accounts attempt).foldl (applyPermanent S now)
        (runForAccounts S fdiv now table accounts attempt).afterPhaseOne :=
    if_neg (of_decide_eq_false htrip)
  rw [htable, foldl_applyPermanent _ hphase]
  constructor
  · intro hi
    rw [← mem_permanentResults_accountId] at hi
    rw [MailAccountsRepo.getById_updateAll_of_not_mem (permanentRow_id S now) hi, hmid]
  · rintro r hr rfl
    rw [MailAccountsRepo.getById_updateAll_of_mem (permanentRow_id S now)
      (permanentResults_nodup hn) hr, hmid, Option.map_some]

/-- **The two-phase breaker.** Let a pass run over accounts with distinct ids, with any outcomes
of phase 1 and any prior rows. If the breaker trips, phase 2 changes nothing. If it does not,
the permanent accounts are counted once each, and a permanent account whose outcome was made by
`handleSyncError` is inactive after the pass, provided its row carried no disable stamp. In
either case an account that is not permanent is not counted, and keeps its active flag.

**Proof sketch.** The rows after phase 1 have at most the counts of before, with the same flag and
stamp. If the breaker trips, these are the rows at the end. Otherwise the row of a permanent account
has one more update, which counts it once, and which disables it if the stamp is missing, since an
outcome of `handleSyncError` that is permanent is explicit; every other row stays. -/
theorem runForAccounts_spec (hn : (accounts.map MailAccount.id).Nodup)
    (ht : (table.map MailAccount.id).Nodup) :
    ((runForAccounts S fdiv now table accounts attempt).breakerTripped = true →
      (runForAccounts S fdiv now table accounts attempt).table =
        (runForAccounts S fdiv now table accounts attempt).afterPhaseOne) ∧
    ∀ i before, MailAccountsRepo.getById table i = some before →
      ∃ after, MailAccountsRepo.getById
          (runForAccounts S fdiv now table accounts attempt).table i = some after ∧
        ((runForAccounts S fdiv now table accounts attempt).breakerTripped = true →
          after.consecutiveFailures ≤ before.consecutiveFailures ∧
            after.isActive = before.isActive) ∧
        (¬ IsPermanent accounts attempt i →
          after.consecutiveFailures ≤ before.consecutiveFailures ∧
            after.isActive = before.isActive) ∧
        ((runForAccounts S fdiv now table accounts attempt).breakerTripped = false →
          (IsPermanent accounts attempt i →
            after.consecutiveFailures = before.consecutiveFailures + 1) ∧
          (IsHandledPermanent accounts attempt S i → before.disabledAlertSentAt = none →
            after.isActive = false)) := by
  have htripped : (runForAccounts S fdiv now table accounts attempt).breakerTripped = true →
      (runForAccounts S fdiv now table accounts attempt).table =
        (runForAccounts S fdiv now table accounts attempt).afterPhaseOne :=
    fun h => if_pos (of_decide_eq_true h)
  refine ⟨htripped, fun i before hb => ?_⟩
  obtain ⟨mid, hmid, hact, hst, hle, hperm⟩ := getById_afterPhaseOne S fdiv now hn hb
  cases htrip : (runForAccounts S fdiv now table accounts attempt).breakerTripped with
  | true =>
    rw [htripped htrip]
    exact ⟨mid, hmid, fun _ => ⟨hle, hact⟩, fun _ => ⟨hle, hact⟩, nofun⟩
  | false =>
    obtain ⟨hother, hown⟩ := getById_phaseTwo S fdiv now hn ht htrip hmid
    by_cases hi : IsPermanent accounts attempt i
    · obtain ⟨r, hr, rfl⟩ := List.mem_map.mp (mem_permanentResults_accountId.mpr hi)
      refine ⟨_, hown r hr rfl, nofun, fun h => absurd hi h, fun _ => ⟨fun _ => ?_, ?_⟩⟩
      · rw [permanentRow_consecutiveFailures, hperm hi]
      · rintro ⟨a, ha, haid, now', exc, detail, hres, hp⟩ hstamp
        obtain ⟨_, b, hbmem, hbres⟩ := mem_permanentResults.mp hr
        have hba : b = a := List.inj_on_of_nodup_map hn hbmem ha
          (((attempt b).result_accountId r hbres).symm.trans haid.symm)
        subst hba
        obtain rfl : r = _ := Except.ok.inj (hbres.symm.trans hres)
        exact permanentRow_isActive S now (handleSyncError_permanent hp) (hst.trans hstamp)
    · refine ⟨mid, hother hi, nofun, fun _ => ⟨hle, hact⟩, fun _ => ⟨fun h => absurd h hi, ?_⟩⟩
      rintro ⟨a, ha, haid, _, _, _, hres, hp⟩
      exact absurd ⟨a, ha, haid, _, hres, hp⟩ hi

end Pass

/-! ## One account whose password does not decrypt -/

/-- The exception of a sealed password that does not open. -/
def invalidTag : PyException where
  typeName := "InvalidTag".toList
  text := []
  classes := [.invalidTag]

/-- A mailbox, with or without a disable stamp. -/
def mailboxWithStamp (stamp : Option Instant) : MailAccount :=
  { id := 1, userId := 1, email := "a@example.com".toList, disabledAlertSentAt := stamp }

/-- Every account of the batch fails to decrypt. -/
def decryptFails (account : MailAccount) : Attempt account :=
  failedAttempt .defaults 0 account invalidTag "decrypt_fail".toList [] nofun

/-- A pass over the one mailbox. -/
def onePass (stamp : Option Instant) : PassResult :=
  runForAccounts .defaults (fun p t => p / t) 0 [mailboxWithStamp stamp] [mailboxWithStamp stamp]
    decryptFails

theorem isHandledPermanent_decryptFails (stamp : Option Instant) :
    IsHandledPermanent [mailboxWithStamp stamp] decryptFails .defaults 1 :=
  ⟨mailboxWithStamp stamp, List.mem_singleton.mpr rfl, rfl, 0, invalidTag, "decrypt_fail".toList,
    rfl, handleSyncError_outcome (show classify (.exc invalidTag) (some .password) = .permanent by
      decide)⟩

/-- An active row that already carries the disable stamp fails the guard of the disabling update:
the account is counted and stays active. -/
theorem stamped_account_stays_active :
    ¬ ∀ (S : Settings) (fdiv : ℕ → ℕ → ℚ) (now : Instant) (table accounts : List MailAccount)
      (attempt : (a : MailAccount) → Attempt a),
      (accounts.map MailAccount.id).Nodup → (table.map MailAccount.id).Nodup →
      (runForAccounts S fdiv now table accounts attempt).breakerTripped = false →
      ∀ i before, MailAccountsRepo.getById table i = some before → before.isActive = true →
        IsHandledPermanent accounts attempt S i →
        ∃ after, MailAccountsRepo.getById
          (runForAccounts S fdiv now table accounts attempt).table i = some after ∧
            after.isActive = false := by
  intro h
  have hrow : (MailAccountsRepo.getById (onePass (some 0)).table 1).map MailAccount.isActive =
      some true := by decide
  obtain ⟨after, hget, hact⟩ := h .defaults (fun p t => p / t) 0 [mailboxWithStamp (some 0)]
    [mailboxWithStamp (some 0)] decryptFails (by decide) (by decide) (by decide) 1 _ rfl rfl
    (isHandledPermanent_decryptFails _)
  have : (MailAccountsRepo.getById (onePass (some 0)).table 1).map MailAccount.isActive =
      some false := by rw [← hact]; exact congrArg (Option.map MailAccount.isActive) hget
  rw [hrow] at this
  cases this

/-! ## A batch with a failure, a success and a crash -/

/-- A second mailbox, which has failed twice before. -/
def recoveringMailbox : MailAccount :=
  { id := 2, userId := 1, email := "b@example.com".toList, consecutiveFailures := 2 }

/-- A third mailbox. -/
def crashingMailbox : MailAccount := { id := 3, userId := 2, email := "c@example.com".toList }

/-- The rows of the three mailboxes, none of them with a disable stamp. -/
def mixedBatch : List MailAccount := [mailboxWithStamp none, recoveringMailbox, crashingMailbox]

/-- An attempt that fetches the new messages and records its success. -/
def syncedAttempt (account : MailAccount) : Attempt account where
  writes := [(0, .syncSuccess (some 7) (some 1))]
  result := .ok
    { accountId := account.id, userId := account.userId, newCount := 3, conflictCount := 0,
      outcome := .ok }
  result_accountId := by
    rintro _ hr
    obtain rfl := Except.ok.inj hr
    rfl
  result_of_success := by
    rintro _ _ _ _ hr
    obtain rfl := Except.ok.inj hr
    rfl

/-- An attempt whose runner raises before it has written anything. -/
def crashedAttempt (account : MailAccount) : Attempt account where
  writes := []
  result := .error invalidTag
  result_accountId := nofun
  result_of_success := nofun

/-- The first mailbox does not decrypt, the second is synchronised, the third crashes. -/
def mixedAttempt (account : MailAccount) : Attempt account :=
  if account.id = 1 then decryptFails account
  else if account.id = 2 then syncedAttempt account
  else crashedAttempt account

/-- The pass over the three mailboxes. -/
def mixedPass : PassResult :=
  runForAccounts .defaults (fun p t => p / t) 0 mixedBatch mixedBatch mixedAttempt

/-- Only the first mailbox has a permanent outcome. -/
theorem not_isPermanent_mixedAttempt {i : ℕ} (hi : i ≠ 1) :
    ¬ IsPermanent mixedBatch mixedAttempt i := by
  rintro ⟨a, ha, rfl, r, hr, hp⟩
  rw [mixedAttempt, if_neg hi] at hr
  split_ifs at hr
  · -- the synchronised mailbox returns `ok`
    obtain rfl := Except.ok.inj hr
    cases hp
  · -- the crashed one returns nothing
    cases hr

/-- **Without the stamp.** In a mixed batch the mailbox whose password does not decrypt is counted
once and disabled; the one that was synchronised and the one whose runner crashed are not counted
and stay active. -/
theorem unstamped_account_disabled :
    (∃ after, MailAccountsRepo.getById mixedPass.table 1 = some after ∧
      after.consecutiveFailures = 1 ∧ after.isActive = false) ∧
    (∃ after, MailAccountsRepo.getById mixedPass.table 2 = some after ∧
      after.consecutiveFailures ≤ 2 ∧ after.isActive = true) ∧
    ∃ after, MailAccountsRepo.getById mixedPass.table 3 = some after ∧
      after.consecutiveFailures = 0 ∧ after.isActive = true := by
  obtain ⟨_, hrows⟩ := @runForAccounts_spec mixedBatch mixedAttempt .defaults
    (fun p t => p / t) 0 mixedBatch (by decide) (by decide)
  have hhandled : IsHandledPermanent mixedBatch mixedAttempt .defaults 1 :=
    ⟨mailboxWithStamp none, List.mem_cons_self, rfl, 0, invalidTag, "decrypt_fail".toList, rfl,
      handleSyncError_outcome (show classify (.exc invalidTag) (some .password) = .permanent by
        decide)⟩
  have hperm : IsPermanent mixedBatch mixedAttempt 1 := by
    obtain ⟨a, ha, hid, _, _, _, hres, hp⟩ := hhandled
    exact ⟨a, ha, hid, _, hres, hp⟩
  obtain ⟨first, hfirst, _, _, hspec⟩ := hrows 1 (mailboxWithStamp none) rfl
  obtain ⟨second, hsecond, _, hkept, _⟩ := hrows 2 recoveringMailbox rfl
  obtain ⟨third, hthird, _, hkept', _⟩ := hrows 3 crashingMailbox rfl
  obtain ⟨hcount, hact⟩ := hspec (by decide)
  obtain ⟨hle, hactive⟩ := hkept (not_isPermanent_mixedAttempt (by decide))
  obtain ⟨hle', hactive'⟩ := hkept' (not_isPermanent_mixedAttempt (by decide))
  exact ⟨⟨first, hfirst, hcount hperm, hact hhandled rfl⟩, ⟨second, hsecond, hle, hactive⟩,
    third, hthird, Nat.le_zero.mp hle', hactive'⟩

end SyncCycle

end MailAggregator
