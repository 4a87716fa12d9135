import MailAggregator.Accounts.Service
import MailAggregator.Lib.Transition
import MailAggregator.Worker.Breaker

set_option relaxedAutoImplicit false
set_option autoImplicit false

/-!
# A pass against operator actions

One pass of `_run_for_accounts` loads its accounts once, syncs them, and does its bookkeeping
later, by account id alone and with one transaction for each write. An operator can commit new
credentials or activate an account at any point in between.

## Main definitions

* `MailAggregator.SyncCycle.passSystem` — the pass and the operator as a transition system.
* `MailAggregator.SyncCycle.NoStaleBookkeeping` — the bookkeeping changes no account the operator
  has touched since the pass loaded it.
* `MailAggregator.SyncCycle.KeepsOff` — the condition on a step under which that holds.

## Main results

* `MailAggregator.SyncCycle.noStaleBookkeeping_of_keepsOff` — in runs whose steps meet the
  condition, the bookkeeping keeps off the touched accounts.
* `MailAggregator.SyncCycle.stale_bookkeeping` — in other runs it does not.
* `MailAggregator.SyncCycle.bookkeeping_refines_applyPermanent` — left alone, the bookkeeping
  steps of an account are `applyPermanent`.
-/

namespace MailAggregator

open PyText Transition

namespace SyncCycle

/-- Where a pass stands. -/
inductive PassPhase where
  | idle
  /-- Phase 1: the loaded rows, and the finished attempts, each with its result unless it
  crashed. -/
  | syncing (accounts : List MailAccount) (finished : List (ℕ × Option AccountResult))
  /-- Phase 2: the permanent results still to count, and the account whose disabling update comes
  next. -/
  | bookkeeping (permanent : List AccountResult) (disabling : Option ℕ)

/-- The table, the pass, and the accounts an operator has touched since the pass loaded them. -/
structure PassState where
  table : List MailAccount
  phase : PassPhase
  touched : List ℕ

/-- The steps of the pass and of the operator. -/
inductive PassLabel where
  /-- Load the active accounts, or the active ones among some ids. -/
  | load (accountIds : Option (List ℕ))
  /-- A write of the attempt of an account. -/
  | write (accountId : ℕ) (now : Instant) (w : RowWrite)
  /-- The attempt of an account ends. -/
  | finish (accountId : ℕ) (now : Instant) (result : Except PyException AccountResult)
  /-- The decision about the breaker. -/
  | decide
  /-- `_record_failure` of the next permanent account. -/
  | record (now : Instant)
  /-- `_disable_after_failures` of the account just counted. -/
  | disable (now : Instant)
  /-- An operator commits credentials that passed the probe. -/
  | updateCredentials (accountId : ℕ) (now : Instant) (v : MailAccountService.UpdateValues)
  /-- An operator activates an account. -/
  | activate (accountId : ℕ) (now : Instant)

/-- The loaded accounts of a pass. -/
def loadAccounts (table : List MailAccount) : Option (List ℕ) → List MailAccount
  | none => MailAccountsRepo.listActive table
  | some ids => MailAccountsRepo.listActiveByIds table ids

/-- The results that the finished attempts returned. -/
def returned (finished : List (ℕ × Option AccountResult)) : List AccountResult :=
  finished.filterMap Prod.snd

section System

variable (S : Settings) (fdiv : ℕ → ℕ → ℚ)

/-- The next bookkeeping write: count the account, and see whether it is to be disabled. -/
def recordNext (s : PassState) (now : Instant) (r : AccountResult) (rest : List AccountResult) :
    PassState :=
  let (table', newFailed) := recordFailure now s.table r.accountId r.errorOr false
  { s with
    table := table'
    phase := .bookkeeping rest
      (if r.explicitPermanent = true ∨ S.syncMaxConsecutiveFailures ≤ newFailed then
        some r.accountId else none) }

/-- An operator's update of an account. -/
def operatorUpdate (s : PassState) (accountId : ℕ) (set : MailAccount → MailAccount) :
    PassState :=
  { s with
    table := MailAccountsRepo.updateWhereId s.table accountId set
    touched := accountId :: s.touched }

/-- The state after a step, where it is enabled. -/
def passNext (s : PassState) : PassLabel → Option PassState
  | .load accountIds =>
    match s.phase with
    | .idle | .bookkeeping [] none =>
      some { s with phase := .syncing (loadAccounts s.table accountIds) [], touched := [] }
    | _ => none
  | .write accountId now w =>
    match s.phase with
    | .syncing accounts finished =>
      if accountId ∈ accounts.map MailAccount.id ∧ accountId ∉ finished.map Prod.fst then
        some { s with table := MailAccountsRepo.updateWhereId s.table accountId (w.apply now) }
      else none
    | _ => none
  | .finish accountId now result =>
    match s.phase with
    | .syncing accounts finished =>
      if accountId ∈ accounts.map MailAccount.id ∧ accountId ∉ finished.map Prod.fst then
        match result with
        | .ok r =>
          if r.accountId = accountId then
            some { s with phase := .syncing accounts (finished ++ [(accountId, some r)]) }
          else none
        | .error exc =>
          some { s with
            table := MailAccountsRepo.updateWhereId s.table accountId
              (MailAccountsRepo.markTransientError (crashText exc) now)
            phase := .syncing accounts (finished ++ [(accountId, none)]) }
      else none
    | _ => none
  | .decide =>
    match s.phase with
    | .syncing accounts finished =>
      if ∀ a ∈ accounts, a.id ∈ finished.map Prod.fst then
        let permanent := if BreakerTripped S fdiv (returned finished) then []
          else (returned finished).filter fun r => r.outcome = .permanent
        some { s with phase := .bookkeeping permanent none }
      else none
    | _ => none
  | .record now =>
    match s.phase with
    | .bookkeeping (r :: rest) none => some (recordNext S s now r rest)
    | _ => none
  | .disable now =>
    match s.phase with
    | .bookkeeping rest (some i) =>
      some { s with table := disableAfterFailures now s.table i, phase := .bookkeeping rest none }
    | _ => none
  | .updateCredentials accountId now v =>
    some (operatorUpdate s accountId (MailAccountService.updateCredentials v now))
  | .activate accountId now =>
    some (operatorUpdate s accountId (MailAccountService.setActive true now))

/-- The pass and the operator, from any table with distinct ids. -/
def passSystem : System PassState PassLabel where
  init s := (s.table.map MailAccount.id).Nodup ∧ s.phase = .idle ∧ s.touched = []
  next := passNext S fdiv

/-- A write of phase 2. -/
def PassLabel.IsBookkeeping : PassLabel → Prop
  | .record _ | .disable _ => True
  | _ => False

/-- The next bookkeeping write changes neither the failure count nor the active flag of an
account that an operator has touched since the pass loaded it. -/
def NoStaleBookkeeping (s : PassState) : Prop :=
  ∀ l t, l.IsBookkeeping → passNext S fdiv s l = some t → ∀ i ∈ s.touched, ∀ a,
    MailAccountsRepo.getById s.table i = some a →
      ∃ b, MailAccountsRepo.getById t.table i = some b ∧
        b.consecutiveFailures = a.consecutiveFailures ∧ b.isActive = a.isActive

/-- An account has a bookkeeping write ahead of it. -/
def PassPhase.Pending : PassPhase → ℕ → Prop
  | .bookkeeping permanent disabling, i =>
    i ∈ permanent.map AccountResult.accountId ∨ disabling = some i
  | _, _ => False

instance (p : PassPhase) (i : ℕ) : Decidable (p.Pending i) :=
  match p with
  | .bookkeeping permanent disabling =>
    inferInstanceAs (Decidable (i ∈ permanent.map AccountResult.accountId ∨ disabling = some i))
  | .idle | .syncing _ _ => inferInstanceAs (Decidable False)

/-- The finished attempts of phase 1. -/
def PassPhase.finished : PassPhase → List (ℕ × Option AccountResult)
  | .syncing _ finished => finished
  | _ => []

/-- The condition on a step: the decision trips the breaker or finds no permanent result of a
touched account, and an operator acts on no account that has a bookkeeping write ahead of it. -/
def KeepsOff (s : PassState) : PassLabel → Prop
  | .decide =>
    BreakerTripped S fdiv (returned s.phase.finished) ∨
      ∀ r ∈ returned s.phase.finished, r.outcome = .permanent → r.accountId ∉ s.touched
  | .updateCredentials i _ _ | .activate i _ => ¬ s.phase.Pending i
  | _ => True

instance (s : PassState) (l : PassLabel) : Decidable (KeepsOff S fdiv s l) :=
  match l with
  | .decide =>
    inferInstanceAs (Decidable (BreakerTripped S fdiv (returned s.phase.finished) ∨
      ∀ r ∈ returned s.phase.finished, r.outcome = .permanent → r.accountId ∉ s.touched))
  | .updateCredentials i _ _ | .activate i _ => inferInstanceAs (Decidable (¬ s.phase.Pending i))
  | .load _ | .write _ _ _ | .finish _ _ _ | .record _ | .disable _ =>
    inferInstanceAs (Decidable True)

/-! ## The invariant -/

/-- No account that an operator has touched since the pass loaded it has a bookkeeping write
ahead of it. -/
def TouchedNotPending (s : PassState) : Prop := ∀ i ∈ s.touched, ¬ s.phase.Pending i

variable {S fdiv} {s t : PassState}

/-- The bookkeeping steps: one update of the row of an account that had a write ahead of it.

**Proof sketch.** The count is for the head of the list of permanent results, and the disabling
update for the account that was counted. In both cases the account had a write ahead of it before
the step, and what is ahead after the step was ahead before. -/
theorem bookkeeping_cases {l : PassLabel} (hl : l.IsBookkeeping)
    (h : passNext S fdiv s l = some t) :
    t.touched = s.touched ∧ (∀ i, t.phase.Pending i → s.phase.Pending i) ∧
      ∃ i set, s.phase.Pending i ∧ (∀ a : MailAccount, (set a).id = a.id) ∧
        t.table = MailAccountsRepo.updateWhereId s.table i set := by
  cases l with
  | record now =>
    simp only [passNext] at h
    split at h
    · next r rest hphase =>
      obtain rfl := Option.some.inj h
      refine ⟨rfl, ?_, r.accountId, MailAccountsRepo.markSyncFailure r.errorOr false now, ?_,
        fun _ => rfl, recordFailure_fst _ _ _ _ _⟩
      · rw [hphase]
        rintro i (hi | hi)
        · exact Or.inl (List.mem_cons_of_mem _ hi)
        · split_ifs at hi
          obtain rfl := Option.some.inj hi
          exact Or.inl List.mem_cons_self
      · rw [hphase]
        exact Or.inl List.mem_cons_self
    · cases h
  | disable now =>
    simp only [passNext] at h
    split at h
    · next rest i hphase =>
      obtain rfl := Option.some.inj h
      refine ⟨rfl, ?_, i, _, ?_, MailAccountsRepo.disableAndStampAlert_id now, rfl⟩
      · rw [hphase]
        rintro j (hj | hj)
        · exact Or.inl hj
        · cases hj
      · rw [hphase]
        exact Or.inr rfl
    · cases h
  | load _ => cases hl
  | write _ _ _ => cases hl
  | finish _ _ _ => cases hl
  | decide => cases hl
  | updateCredentials _ _ _ => cases hl
  | activate _ _ => cases hl

/-- The writes ahead of the pass are not for touched accounts, so the next one changes none of
them. -/
theorem TouchedNotPending.noStaleBookkeeping (h : TouchedNotPending s) :
    NoStaleBookkeeping S fdiv s := by
  intro l t hl ht i hi a ha
  obtain ⟨_, _, j, set, hj, hset, htable⟩ := bookkeeping_cases hl ht
  have hne : i ≠ j := fun hij => h i hi (hij ▸ hj)
  refine ⟨a, ?_, rfl, rfl⟩
  rw [htable, MailAccountsRepo.getById_updateWhereId hset, ha, Option.map_some, if_neg hne]

/-- An operator who acts on an account without a write ahead of it keeps the invariant. -/
theorem TouchedNotPending.operator (h : TouchedNotPending s) {i : ℕ}
    (hg : ¬ s.phase.Pending i) (set : MailAccount → MailAccount) :
    TouchedNotPending (operatorUpdate s i set) := by
  intro j hj
  rcases List.mem_cons.mp hj with rfl | hj
  · exact hg
  · exact h j hj

/-- **Every step that meets the condition keeps the invariant.**

**Proof sketch.** By cases on the step. A load forgets what was touched. In phase 1 nothing is
pending. The decision makes the permanent results pending, none of which belongs to a touched
account unless the breaker trips, and then nothing is pending. A bookkeeping write only takes away
from what is pending. An operator touches one more account, which has nothing ahead of it by the
condition. -/
theorem TouchedNotPending.next {l : PassLabel} (h : TouchedNotPending s)
    (hg : KeepsOff S fdiv s l) (ht : passNext S fdiv s l = some t) : TouchedNotPending t := by
  cases l with
  | load accountIds =>
    simp only [passNext] at ht
    split at ht
    · obtain rfl := Option.some.inj ht
      exact nofun
    · obtain rfl := Option.some.inj ht
      exact nofun
    · cases ht
  | write accountId now w =>
    simp only [passNext] at ht
    split at ht
    · split_ifs at ht
      obtain rfl := Option.some.inj ht
      exact h
    · cases ht
  | finish accountId now result =>
    simp only [passNext] at ht
    split at ht
    · split_ifs at ht
      split at ht
      · split_ifs at ht
        obtain rfl := Option.some.inj ht
        exact fun _ _ => id
      · obtain rfl := Option.some.inj ht
        exact fun _ _ => id
    · cases ht
  | decide =>
    simp only [passNext] at ht
    split at ht
    · next accounts finished hphase =>
      simp only [KeepsOff, hphase, PassPhase.finished] at hg
      split_ifs at ht with hall htrip <;> obtain rfl := Option.some.inj ht
      · rintro i _ (hi | hi) <;> cases hi
      · rintro i hi (hp | hp)
        · obtain ⟨r, hr, rfl⟩ := List.mem_map.mp hp
          rw [List.mem_filter, decide_eq_true_eq] at hr
          exact (hg.resolve_left htrip) r hr.1 hr.2 hi
        · cases hp
    · cases ht
  | record now =>
    obtain ⟨htouched, hpend, _⟩ := bookkeeping_cases (l := .record now) trivial ht
    exact fun i hi hp => h i (htouched ▸ hi) (hpend i hp)
  | disable now =>
    obtain ⟨htouched, hpend, _⟩ := bookkeeping_cases (l := .disable now) trivial ht
    exact fun i hi hp => h i (htouched ▸ hi) (hpend i hp)
  | updateCredentials accountId now v =>
    obtain rfl := Option.some.inj ht
    exact h.operator hg _
  | activate accountId now =>
    obtain rfl := Option.some.inj ht
    exact h.operator hg _

/-- **No stale disable.** In every run whose steps meet the condition, the next bookkeeping write
leaves the failure count and the active flag of every touched account alone. -/
theorem noStaleBookkeeping_of_keepsOff
    (h : (passSystem S fdiv).ReachableWhen (KeepsOff S fdiv) s) : NoStaleBookkeeping S fdiv s := by
  have hinv : TouchedNotPending s := h.invariant
    (fun s hs => by rw [TouchedNotPending, hs.2.2]; exact nofun)
    fun _ _ _ hs hg hn => hs.next hg hn
  exact hinv.noStaleBookkeeping

/-- **Refinement.** Without an operator in between, the bookkeeping steps of the next account
do to the table what `applyPermanent` does.

**Proof sketch.** The count is one step. Whether the account is disabled is decided with it, by the
flag of the result or by the count that was written; if so, one more step disables it. These are the
two branches of `applyPermanent`. -/
theorem bookkeeping_refines_applyPermanent {r : AccountResult} {rest : List AccountResult}
    (hphase : s.phase = .bookkeeping (r :: rest) none) (now : Instant) :
    ∃ labels t, (∀ l ∈ labels, l.IsBookkeeping) ∧ (passSystem S fdiv).run s labels = some t ∧
      t.table = applyPermanent S now s.table r ∧ t.phase = .bookkeeping rest none := by
  have hrecord : (passSystem S fdiv).next s (.record now) =
      some (recordNext S s now r rest) := by
    simp only [passSystem, passNext, hphase]
  by_cases hdis : r.explicitPermanent = true ∨ S.syncMaxConsecutiveFailures ≤
      (recordFailure now s.table r.accountId r.errorOr false).2
  · have hnext : (recordNext S s now r rest).phase = .bookkeeping rest (some r.accountId) := by
      simp only [recordNext, if_pos hdis]
    refine ⟨[.record now, .disable now],
      { recordNext S s now r rest with
        table := disableAfterFailures now (recordNext S s now r rest).table r.accountId
        phase := .bookkeeping rest none }, by simp [PassLabel.IsBookkeeping], ?_, ?_, rfl⟩
    · rw [System.run_cons hrecord, System.run_cons]
      · rfl
      · simp only [passSystem, passNext, hnext]
    · simp only [recordNext, applyPermanent]
      rcases hdis with hex | hthr
      · rw [if_pos hex]
      · split_ifs <;> rfl
  · rw [not_or] at hdis
    refine ⟨[.record now], recordNext S s now r rest, by simp [PassLabel.IsBookkeeping], ?_, ?_, ?_⟩
    · rw [System.run_cons hrecord]
      rfl
    · simp only [recordNext, applyPermanent]
      rw [if_neg hdis.1, if_neg hdis.2]
    · simp only [recordNext, if_neg (not_or.mpr hdis)]

end System

/-! ## One account activated during a pass -/

/-- A table with one active mailbox, and no pass. -/
def oneMailbox : PassState where
  table := [mailboxWithStamp none]
  phase := .idle
  touched := []

theorem oneMailbox_init (S : Settings) (fdiv : ℕ → ℕ → ℚ) :
    (passSystem S fdiv).init oneMailbox :=
  ⟨by decide, rfl, rfl⟩

/-- The result of a mailbox whose password does not decrypt. -/
def decryptFailed : AccountResult :=
  (handleSyncError .defaults 0 (mailboxWithStamp none) invalidTag "decrypt_fail".toList).1

/-- An operator activates the mailbox after its attempt has failed and before the decision. -/
def activatedBeforeDecision : List PassLabel :=
  [.load none, .finish 1 0 (.ok decryptFailed), .activate 1 5, .decide]

/-- The next bookkeeping write counts the failure of the old password against the mailbox the
operator has just reset. -/
theorem stale_bookkeeping :
    ¬ ∀ (S : Settings) (fdiv : ℕ → ℕ → ℚ) (s : PassState),
      (passSystem S fdiv).Reachable s → NoStaleBookkeeping S fdiv s := by
  intro h
  obtain ⟨s, t, hrun, hnext, htouched, hbefore, hafter⟩ :
      ∃ s t, (passSystem .defaults (fun p t => p / t)).run oneMailbox activatedBeforeDecision =
          some s ∧
        passNext .defaults (fun p t => p / t) s (.record 6) = some t ∧ 1 ∈ s.touched ∧
        MailAccountsRepo.getById s.table 1 =
          some (MailAccountService.setActive true 5 (mailboxWithStamp none)) ∧
        (MailAccountsRepo.getById t.table 1).map MailAccount.consecutiveFailures = some 1 :=
    ⟨_, _, rfl, rfl, by decide, by decide, by decide⟩
  obtain ⟨b, hb, hcount, _⟩ :=
    h _ _ s (System.Reachable.run (.init (oneMailbox_init _ _)) hrun) (.record 6) t trivial hnext 1
      htouched _ hbefore
  rw [hb, Option.map_some, hcount] at hafter
  cases hafter

/-! ## One of two accounts activated during the bookkeeping -/

/-- A second mailbox. -/
def secondMailbox : MailAccount := { id := 2, userId := 1, email := "b@example.com".toList }

/-- A table with two active mailboxes, and no pass. -/
def twoMailboxes : PassState where
  table := [mailboxWithStamp none, secondMailbox]
  phase := .idle
  touched := []

theorem twoMailboxes_init (S : Settings) (fdiv : ℕ → ℕ → ℚ) :
    (passSystem S fdiv).init twoMailboxes :=
  ⟨by decide, rfl, rfl⟩

/-- The result of the second mailbox, whose password does not decrypt either. -/
def secondFailed : AccountResult :=
  (handleSyncError .defaults 0 secondMailbox invalidTag "decrypt_fail".toList).1

/-- Both attempts fail. The operator activates the first mailbox when the bookkeeping is done with
it and still has the second one ahead. -/
def activatedBetween : List PassLabel :=
  [.load none, .finish 1 0 (.ok decryptFailed), .finish 2 0 (.ok secondFailed), .decide, .record 1,
    .disable 2, .activate 1 5]

/-- **The reset stays.** The bookkeeping write of the second mailbox is pending when the operator
acts on the first one; it counts the second mailbox and leaves the first one active with no
failures. -/
theorem noStaleBookkeeping_activatedBetween :
    ∃ s t, (passSystem .defaults (fun p t => p / t)).run twoMailboxes activatedBetween = some s ∧
      NoStaleBookkeeping .defaults (fun p t => p / t) s ∧
      passNext .defaults (fun p t => p / t) s (.record 6) = some t ∧
      (MailAccountsRepo.getById t.table 2).map MailAccount.consecutiveFailures = some 1 ∧
      ∃ first, MailAccountsRepo.getById t.table 1 = some first ∧
        first.consecutiveFailures = 0 ∧ first.isActive = true := by
  obtain ⟨s, t, hrun, hguarded, hnext, htouched, hbefore, hcounted⟩ : ∃ s t,
      (passSystem .defaults (fun p t => p / t)).run twoMailboxes activatedBetween = some s ∧
        ((passSystem .defaults (fun p t => p / t)).restrict
          (KeepsOff .defaults fun p t => p / t)).run twoMailboxes activatedBetween = some s ∧
        passNext .defaults (fun p t => p / t) s (.record 6) = some t ∧ 1 ∈ s.touched ∧
        (∃ a, MailAccountsRepo.getById s.table 1 = some a ∧ a.consecutiveFailures = 0 ∧
          a.isActive = true) ∧
        (MailAccountsRepo.getById t.table 2).map MailAccount.consecutiveFailures = some 1 :=
    ⟨_, _, rfl, rfl, rfl, by decide, ⟨_, rfl, rfl, rfl⟩, by decide⟩
  have hstale : NoStaleBookkeeping .defaults (fun p t => p / t) s :=
    noStaleBookkeeping_of_keepsOff
      (System.ReachableWhen.run (.init (twoMailboxes_init _ _)) hguarded)
  obtain ⟨a, ha, hcount, hact⟩ := hbefore
  obtain ⟨b, hb, hcount', hact'⟩ := hstale (.record 6) t trivial hnext 1 htouched a ha
  exact ⟨s, t, hrun, hstale, hnext, hcounted, b, hb, hcount'.trans hcount, hact'.trans hact⟩

end SyncCycle

end MailAggregator
