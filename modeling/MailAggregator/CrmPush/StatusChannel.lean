import MailAggregator.Accounts.UpdateFrame
import MailAggregator.Lib.Mirror
import MailAggregator.Lib.Transition
import MailAggregator.OAuth.TokenService
import MailAggregator.Worker.Breaker

set_option relaxedAutoImplicit false
set_option autoImplicit false

/-!
# The status channel of the CRM

The status of a mailbox is mirrored to the CRM. A committed write of the status leaves an event
behind that fires after the commit and carries the account id only; `crm_status_dispatch` reads the
row when it posts, one event after the other, and puts the account back if the post fails.

## Main definitions

* `MailAggregator.CrmStatus.accountToStatus` — the snapshot that is posted.
* `MailAggregator.CrmStatus.StatusWrite` — the committed writes of an account's row, with the events
  that each leaves behind.
* `MailAggregator.CrmStatus.statusSystem` — writes, events and the dispatcher.

## Main results

* `MailAggregator.CrmStatus.accountToStatus_apply` — a write without an event keeps the snapshot.
* `MailAggregator.CrmStatus.lastSnapshot_wins` — when nothing is under way for a mailbox, the CRM
  has acknowledged its current snapshot last.

## Design

The queue and the dispatcher are an instance of `Mirror.Channel`: the queue is pushed and popped at
the same end, and the scheduler runs one tick at a time. The steps of a tick are its `LPOP`, and for
each account the read of the row, the answer to the post, and the push after a failure.
-/

namespace MailAggregator

open PyText MailAccountsRepo MailAccountService Transition

namespace CrmStatus

/-! ## The snapshot -/

/-- The body of the status channel. -/
structure MailboxStatus where
  mailAccountId : ℕ
  isActive : Bool
  lastSyncedAt : Option Instant
  lastSyncError : Option Text
  consecutiveFailures : ℕ
  deriving DecidableEq, Repr

/-- `_account_to_status`. -/
def accountToStatus (acc : MailAccount) : MailboxStatus where
  mailAccountId := acc.id
  isActive := acc.isActive
  lastSyncedAt := acc.lastSyncedAt
  lastSyncError := acc.lastSyncError
  consecutiveFailures := acc.consecutiveFailures

/-- The snapshot that the dispatcher reads for an account. -/
def snapshot (accounts : List MailAccount) (accountId : ℕ) : Option MailboxStatus :=
  (getById accounts accountId).map accountToStatus

/-! ## The writes -/

/-- The committed writes of one account's row. -/
inductive StatusWrite where
  /-- A write of a sync attempt. -/
  | sync (w : SyncCycle.RowWrite)
  /-- `_record_failure`. -/
  | recordFailure (error : Text) (disable : Bool)
  /-- `_disable_after_failures`. -/
  | disableAfterFailures
  /-- `ExternalMailboxService.update`, of the row that it has read. -/
  | patch (env : ExternalMailboxService.Env) (payload : ExternalMailboxUpdateRequest)
    (acc : MailAccount)
  /-- `_create_or_relink`, of an existing account. -/
  | relink (tokens : TokenResponse) (refreshToken : Text)

/-- The row after a write. -/
def StatusWrite.apply (now : Instant) : StatusWrite → MailAccount → MailAccount
  | .sync w => w.apply now
  | .recordFailure error disable => markSyncFailure error disable now
  | .disableAfterFailures => disableAndStampAlert now
  | .patch env payload acc => ExternalMailboxService.rowWrites env payload acc
  | .relink tokens refreshToken => OutlookOAuthService.relink now tokens refreshToken

/-- The events that a write leaves behind, given the row that it hits. Storing tokens leaves none;
the guarded marker leaves one if it was written; an update leaves one for new credentials and one
for the switch. -/
def StatusWrite.events (row : Option MailAccount) : StatusWrite → ℕ
  | .sync (.oauthTokens _) => 0
  | .sync .needsConsentError =>
    if ∃ a ∈ row, a.lastSyncError ≠ some oauthNeedsConsentSyncError then 1 else 0
  | .sync _ => 1
  | .recordFailure _ _ => 1
  | .disableAfterFailures => 1
  | .patch _ payload acc =>
    (if payload.HasAccountFields ∧ acc.authType = .password ∧ CredsChanged (.ofExternal payload)
      then 1 else 0) + (if payload.setIsActive then 1 else 0)
  | .relink _ _ => 0

@[simp] theorem StatusWrite.apply_id (now : Instant) (w : StatusWrite) (a : MailAccount) :
    (w.apply now a).id = a.id := by
  cases w with
  | sync w => exact w.apply_id now a
  | disableAfterFailures => exact disableAndStampAlert_id now a
  | patch env payload acc => exact ExternalMailboxService.rowWrites_id env payload acc a
  | recordFailure error disable => rfl
  | relink tokens refreshToken => rfl

/-- **A write without an event keeps the snapshot.** -/
theorem accountToStatus_apply {now : Instant} {w : StatusWrite} {a : MailAccount}
    (h : w.events (some a) = 0) : accountToStatus (w.apply now a) = accountToStatus a := by
  cases w with
  | sync w =>
    cases w with
    | oauthTokens values => rfl
    | needsConsentError =>
      have hmarked : a.lastSyncError = some oauthNeedsConsentSyncError := by
        by_contra hne
        simp [StatusWrite.events, hne] at h
      simp [StatusWrite.apply, SyncCycle.RowWrite.apply, markOauthNeedsConsentError, hmarked]
    | syncSuccess uidnext uidvalidity => cases h
    | transientError error => cases h
    | needsConsent => cases h
  | recordFailure error disable => cases h
  | disableAfterFailures => cases h
  | relink tokens refreshToken => rfl
  | patch env payload acc =>
    simp only [StatusWrite.events, Nat.add_eq_zero_iff, ite_eq_right_iff, one_ne_zero, imp_false]
      at h
    obtain ⟨hcreds, hswitch⟩ := h
    have hfields : accountToStatus (if payload.HasAccountFields then
        accountWrites (.ofExternal payload) acc env.now a else a) = accountToStatus a := by
      by_cases hhas : payload.HasAccountFields
      · rw [if_pos hhas, accountWrites_eq, if_neg fun hreset => hcreds ⟨hhas, hreset⟩, fieldWrites]
        cases hauth : acc.authType with
        | oauthOutlook =>
          rcases accountWrites_oauth (.ofExternal payload) hauth env.now a with
            hsame | ⟨_, -, hnamed⟩
          · rw [hsame]
          · rw [hnamed]
            rfl
        | password => rfl
      · rw [if_neg hhas]
    simp only [StatusWrite.apply, ExternalMailboxService.rowWrites, hswitch]
    exact hfields

/-! ## The system -/

/-- The table, the sequence of its ids, and the channel. -/
structure StatusState where
  accounts : List MailAccount
  nextAccountId : ℕ
  channel : Mirror.Channel ℕ MailboxStatus

/-- The steps. -/
inductive StatusLabel where
  /-- A write is committed. Its account exists, or has existed. -/
  | write (accountId : ℕ) (now : Instant) (w : StatusWrite)
  | insert (a : MailAccount)
  | delete (accountId : ℕ)
  /-- `enqueue_crm_status_best_effort`, after the commit or by `flush_crm_status_events`. -/
  | enqueue (accountId : ℕ)
  /-- A tick takes its batch. -/
  | pop
  /-- `push_status` reads the row of the next account; a missing one is done with. -/
  | load
  /-- It raises before it posts. -/
  | loadFails
  /-- The post is acknowledged, or fails, or is acknowledged and `push_status` raises. -/
  | answer (acknowledges fails : Bool)
  /-- The account of a failed post is enqueued again. -/
  | requeue

/-- Writers, events and ticks, from any table and an empty channel. -/
def statusSystem (batchSize : ℕ) : System StatusState StatusLabel where
  init s :=
    (s.accounts.map MailAccount.id).Nodup ∧ (∀ a ∈ s.accounts, a.id < s.nextAccountId) ∧
      s.channel.hooks = [] ∧ s.channel.queue = [] ∧ s.channel.batch = [] ∧
      s.channel.item = .done ∧ s.channel.enqueued = []
  next s
    | .write accountId now w =>
      if accountId < s.nextAccountId then
        some
          { s with
            accounts := updateWhereId s.accounts accountId (w.apply now)
            channel := s.channel.hook
              (List.replicate (w.events (getById s.accounts accountId)) accountId) }
      else none
    | .insert a =>
      if a.id = s.nextAccountId then
        some { s with accounts := s.accounts ++ [a], nextAccountId := s.nextAccountId + 1 }
      else none
    | .delete accountId => some { s with accounts := s.accounts.filter fun a => a.id ≠ accountId }
    | .enqueue accountId => (s.channel.fire accountId).map fun channel => { s with channel }
    | .pop => (s.channel.pop batchSize).map fun channel => { s with channel }
    | .load => (s.channel.load (snapshot s.accounts)).map fun channel => { s with channel }
    | .loadFails => s.channel.loadFails.map fun channel => { s with channel }
    | .answer acknowledges fails =>
      (s.channel.answer acknowledges fails).map fun channel => { s with channel }
    | .requeue => s.channel.requeue.map fun channel => { s with channel }

/-- The ids are those that the sequence has given out, and the channel mirrors the snapshots. -/
structure StatusInv (s : StatusState) : Prop where
  nodup : (s.accounts.map MailAccount.id).Nodup
  fresh : ∀ a ∈ s.accounts, a.id < s.nextAccountId
  channel : s.channel.Only (· < s.nextAccountId)
  mirrored : Mirror.Mirrored (snapshot s.accounts) s.channel

section Step

variable {s s' : StatusState}

/-- A write changes the snapshot of its own account only, and leaves an event for it. -/
theorem snapshot_write (accounts : List MailAccount) (accountId : ℕ) (now : Instant)
    (w : StatusWrite) {k : ℕ} {v : MailboxStatus}
    (hv : snapshot (updateWhereId accounts accountId (w.apply now)) k = some v) :
    snapshot accounts k = some v ∨
      k ∈ List.replicate (w.events (getById accounts accountId)) accountId := by
  rw [snapshot, getById_updateWhereId (w.apply_id now), Option.map_map] at hv
  obtain ⟨a, hget, rfl⟩ := Option.map_eq_some_iff.mp hv
  by_cases hk : k = accountId
  · subst hk
    by_cases hevents : w.events (some a) = 0
    · exact Or.inl (by simp [snapshot, hget, accountToStatus_apply hevents])
    · exact Or.inr (by simp [hget, hevents])
  · exact Or.inl (by simp [snapshot, hget, hk])

theorem StatusInv.write (hinv : StatusInv s) {accountId : ℕ} (hlt : accountId < s.nextAccountId)
    (now : Instant) (w : StatusWrite) :
    StatusInv
      { s with
        accounts := updateWhereId s.accounts accountId (w.apply now)
        channel := s.channel.hook
          (List.replicate (w.events (getById s.accounts accountId)) accountId) } := by
  constructor
  · rw [map_id_updateWhereId (w.apply_id now)]
    exact hinv.nodup
  · intro b hb
    obtain ⟨a, ha, rfl⟩ := List.mem_map.mp hb
    split_ifs
    · rw [w.apply_id now]
      exact hinv.fresh a ha
    · exact hinv.fresh a ha
  · exact hinv.channel.hook fun k hk => (List.eq_of_mem_replicate hk) ▸ hlt
  · refine hinv.mirrored.hook fun k v hv => ?_
    rw [← or_assoc]
    exact Or.inl (snapshot_write s.accounts accountId now w hv)

/-- A new row belongs to an account that has never been enqueued. -/
theorem StatusInv.insert (hinv : StatusInv s) {a : MailAccount} (hid : a.id = s.nextAccountId) :
    StatusInv { s with accounts := s.accounts ++ [a], nextAccountId := s.nextAccountId + 1 } := by
  constructor
  · exact nodup_map_id_insert hinv.nodup hinv.fresh hid
  · exact id_lt_of_mem_insert hinv.fresh hid
  · exact hinv.channel.mono fun k hk => Nat.lt_succ_of_lt hk
  · have hmirrored : Mirror.Mirrored (snapshot (s.accounts ++ [a])) (s.channel.hook []) := by
      refine hinv.mirrored.hook fun k v hv => ?_
      obtain ⟨b, hb, rfl⟩ := Option.map_eq_some_iff.mp hv
      rw [getById, List.find?_append, Option.or_eq_some_iff] at hb
      rcases hb with hold | ⟨-, hnew⟩
      · exact Or.inl (by rw [snapshot, getById, hold, Option.map_some])
      · refine Or.inr (Or.inr fun henqueued => ?_)
        have hlt := hinv.channel.enqueued k henqueued
        have hk : b.id = k := id_of_getById hnew
        obtain rfl := List.mem_singleton.mp (List.mem_of_find?_eq_some hnew)
        omega
    exact hmirrored

/-- Rows that are left keep their snapshots. -/
theorem StatusInv.delete (hinv : StatusInv s) (accountId : ℕ) :
    StatusInv { s with accounts := s.accounts.filter fun a => a.id ≠ accountId } := by
  have hnodup := hinv.nodup.sublist
    (List.filter_sublist (p := fun a : MailAccount => a.id ≠ accountId).map MailAccount.id)
  refine ⟨hnodup, fun a ha => hinv.fresh a (List.mem_of_mem_filter ha), hinv.channel, ?_⟩
  intro k v hv
  refine hinv.mirrored k v ?_
  obtain ⟨a, ha, rfl⟩ := Option.map_eq_some_iff.mp hv
  have hmem := List.mem_of_mem_filter (mem_of_getById ha)
  rw [snapshot, ← id_of_getById ha, getById_of_mem hinv.nodup hmem, Option.map_some]

/-- **A step keeps the invariant.**

**Proof sketch.** By cases on the step. A write, an insert and a delete change the table, and each
has a lemma. The steps of the channel keep its invariant and speak only of accounts that exist,
since what is enqueued is the id of a written account. -/
theorem StatusInv.next {batchSize : ℕ} (hinv : StatusInv s) {label : StatusLabel}
    (h : (statusSystem batchSize).next s label = some s') : StatusInv s' := by
  -- a step of the channel alone
  have hstep {c : Mirror.Channel ℕ MailboxStatus} (honly : c.Only (· < s.nextAccountId))
      (hmirrored : Mirror.Mirrored (snapshot s.accounts) c) : StatusInv { s with channel := c } :=
    ⟨hinv.nodup, hinv.fresh, honly, hmirrored⟩
  cases label with
  | write accountId now w =>
    simp only [statusSystem] at h
    split_ifs at h with hlt
    obtain rfl := Option.some.inj h
    exact hinv.write hlt now w
  | insert a =>
    simp only [statusSystem] at h
    split_ifs at h with hid
    obtain rfl := Option.some.inj h
    exact hinv.insert hid
  | delete accountId =>
    obtain rfl := Option.some.inj h
    exact hinv.delete accountId
  | enqueue accountId =>
    obtain ⟨c, hc, rfl⟩ := Option.map_eq_some_iff.mp h
    exact hstep (hinv.channel.fire hc) (hinv.mirrored.fire hc)
  | pop =>
    obtain ⟨c, hc, rfl⟩ := Option.map_eq_some_iff.mp h
    exact hstep (hinv.channel.pop hc) (hinv.mirrored.pop hc)
  | load =>
    obtain ⟨c, hc, rfl⟩ := Option.map_eq_some_iff.mp h
    exact hstep (hinv.channel.load hc) (hinv.mirrored.load hc)
  | loadFails =>
    obtain ⟨c, hc, rfl⟩ := Option.map_eq_some_iff.mp h
    exact hstep (hinv.channel.loadFails hc) (hinv.mirrored.loadFails hc)
  | answer acknowledges fails =>
    obtain ⟨c, hc, rfl⟩ := Option.map_eq_some_iff.mp h
    exact hstep (hinv.channel.answer hc) (hinv.mirrored.answer hc)
  | requeue =>
    obtain ⟨c, hc, rfl⟩ := Option.map_eq_some_iff.mp h
    exact hstep (hinv.channel.requeue hc) (hinv.mirrored.requeue hc)

/-- Every reachable state has the invariant. -/
theorem StatusInv.of_reachable {batchSize : ℕ} (h : (statusSystem batchSize).Reachable s) :
    StatusInv s := by
  refine System.ReachableWhen.invariant (fun s hinit => ?_)
    (fun s label s' hinv _ hnext => hinv.next hnext) h
  obtain ⟨hnodup, hfresh, hhooks, hqueue, hbatch, hitem, henqueued⟩ := hinit
  refine ⟨hnodup, hfresh, ⟨?_, ?_, ?_, ?_, ?_⟩, fun k v _ hk => ?_⟩
  · simp [hhooks]
  · simp [hqueue]
  · simp [hbatch]
  · simp [hitem, Mirror.Item.key]
  · simp [henqueued]
  · rw [henqueued] at hk
    cases hk

end Step

/-- **The last snapshot wins.** In every reachable state, if an event of a mailbox has been enqueued
and nothing is under way for it, the last snapshot of it that the CRM has acknowledged is that of
its current row.

**Proof sketch.** What is not acknowledged is under way: a write that changes the snapshot leaves an
event behind, an event ends up on the queue, the account of a popped event is read before it is
posted, and a post either is acknowledged with the value that was read or is enqueued again. A post
of an older snapshot can only be under way while a newer event is, too. -/
theorem lastSnapshot_wins {batchSize : ℕ} {s : StatusState}
    (h : (statusSystem batchSize).Reachable s) {accountId : ℕ} {a : MailAccount}
    (ha : getById s.accounts accountId = some a) (henqueued : accountId ∈ s.channel.enqueued)
    (hquiet : s.channel.Quiet accountId) :
    s.channel.acknowledged accountId = some (accountToStatus a) := by
  have hsnapshot : snapshot s.accounts accountId = some (accountToStatus a) := by
    rw [snapshot, ha]
    rfl
  exact (StatusInv.of_reachable h).mirrored.acknowledged_eq hsnapshot henqueued hquiet

/-! ## A mailbox that needs consent -/

/-- A table with an active mailbox. -/
def oneMailbox : StatusState where
  accounts := [ExternalMailboxService.activeMailbox]
  nextAccountId := 2
  channel :=
    { hooks := [], queue := [], batch := [], item := .done, acknowledged := fun _ => none,
      enqueued := [] }

/-- The marker of a mailbox that needs consent reaches the CRM, in a second attempt. -/
theorem needsConsent_acknowledged :
    ∃ s, (statusSystem 50).run oneMailbox
        [.write 1 0 (.sync .needsConsent), .enqueue 1, .pop, .load, .answer false true, .requeue,
          .pop, .load, .answer true false] = some s ∧
      (s.channel.acknowledged 1).map MailboxStatus.lastSyncError =
        some (some oauthNeedsConsentSyncError) := by
  obtain ⟨s, hrun, a, ha, herror, henqueued, hhooks, hqueue, hbatch, hitem⟩ :
      ∃ s, (statusSystem 50).run oneMailbox
        [.write 1 0 (.sync .needsConsent), .enqueue 1, .pop, .load, .answer false true, .requeue,
          .pop, .load, .answer true false] = some s ∧
      ∃ a, getById s.accounts 1 = some a ∧ a.lastSyncError = some oauthNeedsConsentSyncError ∧
        s.channel.enqueued = [1, 1] ∧ s.channel.hooks = [] ∧ s.channel.queue = [] ∧
        s.channel.batch = [] ∧ s.channel.item = .done :=
    ⟨_, rfl, _, rfl, rfl, rfl, rfl, rfl, rfl, rfl⟩
  have hinit : (statusSystem 50).init oneMailbox :=
    ⟨by decide, by decide, rfl, rfl, rfl, rfl, rfl⟩
  have hreach : (statusSystem 50).Reachable s := System.Reachable.run (.init hinit) hrun
  have hquiet : s.channel.Quiet 1 := by
    constructor
    · simp [hhooks]
    · simp [hqueue]
    · simp [hbatch]
    · simp [hitem]
    · simp [hitem]
  refine ⟨s, hrun, ?_⟩
  rw [lastSnapshot_wins hreach ha (by simp [henqueued]) hquiet]
  simp [accountToStatus, herror]

end CrmStatus

end MailAggregator
