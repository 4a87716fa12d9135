import MailAggregator.Lib.PyText
import MailAggregator.Lib.Transition

set_option relaxedAutoImplicit false
set_option autoImplicit false

/-!
# Deferred status events

A service remembers the accounts whose status it has written, and its caller has the events sent
after the commit. The hooks of the session fire at the release of a savepoint as well as at the end
of the transaction; a count says how many of the remembered accounts are committed. When a session
is closed its guards report the events that nobody has sent.

## Main definitions

* `MailAggregator.StatusEvents.PendingStatus` — the queue of a service and its count.
* `MailAggregator.StatusEvents.History` — what was appended, and how each transaction has ended.
* `MailAggregator.StatusEvents.sessionSystem` — a session and the services on it.
* `MailAggregator.StatusEvents.checkSessionGuards` — the report when the session is closed.

## Main results

* `MailAggregator.StatusEvents.deferred_events_follow` — the queue is what is committed and was not
  sent, and then what the open transaction has appended.

## Design

The history knows nothing of the queue: an account is appended to the open transaction, an end of
the transaction closes it, and a flush marks what there is. What the session dispatches is a
parameter, with what its hooks are promised to be told.
-/

namespace MailAggregator

open PyText Transition

namespace StatusEvents

/-! ## The queue of a service -/

/-- The part of `MailAccountService` that defers events: `_pending_status_account_ids` and
`_status_committed_count`. -/
structure PendingStatus where
  pendingStatusAccountIds : List ℕ := []
  statusCommittedCount : ℕ := 0
  deriving DecidableEq, Repr

/-- `_mark_pending_status_committed`; `nested` is whether the session has a nested transaction. -/
def markPendingStatusCommitted (nested : Bool) (q : PendingStatus) : PendingStatus :=
  if nested then q else { q with statusCommittedCount := q.pendingStatusAccountIds.length }

/-- `_discard_pending_status_on_rollback`; `nested` is that of the previous transaction. -/
def discardPendingStatusOnRollback (nested : Bool) (q : PendingStatus) : PendingStatus :=
  if nested then q
  else { q with pendingStatusAccountIds := q.pendingStatusAccountIds.take q.statusCommittedCount }

/-- A status-writing method has written the row of an account. -/
def appendStatus (accountId : ℕ) (q : PendingStatus) : PendingStatus :=
  { q with pendingStatusAccountIds := q.pendingStatusAccountIds ++ [accountId] }

/-- `flush_crm_status_events`: the queue after it. The accounts of the queue before it are sent. -/
def drain (q : PendingStatus) : PendingStatus :=
  { q with pendingStatusAccountIds := [], statusCommittedCount := 0 }

/-! ## The hooks of a session -/

/-- A hook that fires, with what it reads of the session. -/
inductive Hook where
  | afterCommit (nested : Bool)
  | afterSoftRollback (nested : Bool)
  deriving DecidableEq, Repr

namespace Hook

/-- The hook is that of a savepoint. -/
def Nested : Hook → Prop
  | afterCommit nested | afterSoftRollback nested => nested = true

/-- The listeners of a service. -/
def handle (q : PendingStatus) : Hook → PendingStatus
  | afterCommit nested => markPendingStatusCommitted nested q
  | afterSoftRollback nested => discardPendingStatusOnRollback nested q

/-- The hooks of savepoints do nothing. -/
theorem foldl_handle_of_nested (q : PendingStatus) {hooks : List Hook}
    (h : ∀ hook ∈ hooks, hook.Nested) : hooks.foldl handle q = q := by
  induction hooks with
  | nil => rfl
  | cons hook hooks ih =>
    have hsame : handle q hook = q := by
      have hnested := h hook List.mem_cons_self
      cases hook with
      | afterCommit nested => exact if_pos hnested
      | afterSoftRollback nested => exact if_pos hnested
    rw [List.foldl_cons, hsame]
    exact ih fun later hlater => h later (List.mem_cons_of_mem _ hlater)

end Hook

/-- What the session dispatches, by the number of open savepoints: the release of a savepoint tells
the hooks that there is a nested transaction, and an end of the transaction tells them last that
there is none. -/
structure Dispatch where
  release : ℕ → List Hook
  commit : ℕ → List Hook
  rollback : ℕ → List Hook
  release_nested : ∀ n, ∀ hook ∈ release n, hook.Nested
  commit_last : ∀ n, ∃ before, commit n = before ++ [.afterCommit false] ∧
    ∀ hook ∈ before, hook.Nested
  rollback_last : ∀ n, ∃ before, rollback n = before ++ [.afterSoftRollback false] ∧
    ∀ hook ∈ before, hook.Nested

section Handlers

variable (d : Dispatch) (n : ℕ) (q : PendingStatus)

theorem foldl_release : (d.release n).foldl Hook.handle q = q :=
  Hook.foldl_handle_of_nested q (d.release_nested n)

theorem foldl_commit :
    (d.commit n).foldl Hook.handle q = markPendingStatusCommitted false q := by
  obtain ⟨before, hcommit, hbefore⟩ := d.commit_last n
  rw [hcommit, List.foldl_append, Hook.foldl_handle_of_nested q hbefore]
  rfl

theorem foldl_rollback :
    (d.rollback n).foldl Hook.handle q = discardPendingStatusOnRollback false q := by
  obtain ⟨before, hrollback, hbefore⟩ := d.rollback_last n
  rw [hrollback, List.foldl_append, Hook.foldl_handle_of_nested q hbefore]
  rfl

end Handlers

/-! ## The history of a service -/

/-- A status append, and whether there was a flush since. -/
structure Appended where
  accountId : ℕ
  flushed : Bool := false
  deriving DecidableEq, Repr

/-- A transaction that has ended. -/
structure Ended where
  committed : Bool
  appended : List Appended
  deriving DecidableEq, Repr

/-- The transactions that have ended, and what the open one has appended. -/
structure History where
  ended : List Ended := []
  current : List Appended := []
  deriving DecidableEq, Repr

/-- The accounts that were not flushed yet, in the order of their appends. -/
def unflushed (appended : List Appended) : List ℕ :=
  (appended.filter fun a => !a.flushed).map Appended.accountId

/-- A flush. -/
def markFlushed (appended : List Appended) : List Appended :=
  appended.map fun a => { a with flushed := true }

@[simp] theorem unflushed_append (xs ys : List Appended) :
    unflushed (xs ++ ys) = unflushed xs ++ unflushed ys := by
  simp [unflushed]

@[simp] theorem unflushed_markFlushed (appended : List Appended) :
    unflushed (markFlushed appended) = [] := by
  simp [unflushed, markFlushed, List.filter_map, Function.comp_def]

namespace History

variable (h : History)

/-- The accounts of committed transactions that were not flushed yet. -/
def committedIds : List ℕ := (h.ended.filter Ended.committed).flatMap fun t => unflushed t.appended

/-- The accounts of the open transaction that were not flushed yet. -/
def openIds : List ℕ := unflushed h.current

/-- An append, in the open transaction. -/
def append (accountId : ℕ) : History := { h with current := h.current ++ [{ accountId }] }

/-- The open transaction ends. -/
def close (committed : Bool) : History where
  ended := h.ended ++ [{ committed, appended := h.current }]

/-- A flush. -/
def flush : History where
  ended := h.ended.map fun t => { t with appended := markFlushed t.appended }
  current := markFlushed h.current

@[simp] theorem committedIds_append (accountId : ℕ) :
    (h.append accountId).committedIds = h.committedIds := rfl

@[simp] theorem openIds_append (accountId : ℕ) :
    (h.append accountId).openIds = h.openIds ++ [accountId] := by
  simp only [openIds, append, unflushed_append]
  rfl

@[simp] theorem committedIds_commit :
    (h.close true).committedIds = h.committedIds ++ h.openIds := by
  simp [committedIds, close, openIds, List.filter_append]

@[simp] theorem committedIds_rollback : (h.close false).committedIds = h.committedIds := by
  simp [committedIds, close, List.filter_append]

@[simp] theorem openIds_close (committed : Bool) : (h.close committed).openIds = [] := rfl

@[simp] theorem committedIds_flush : h.flush.committedIds = [] := by
  simp only [committedIds, flush, List.filter_map, List.flatMap_map, unflushed_markFlushed]
  simp

@[simp] theorem openIds_flush : h.flush.openIds = [] := unflushed_markFlushed h.current

end History

/-! ## A session -/

/-- A service, and what has happened to it. -/
structure Service where
  queue : PendingStatus := {}
  history : History := {}
  deriving DecidableEq, Repr

/-- The open transaction, by its number of savepoints; the services on the session; the accounts
whose events were sent. -/
structure SessionState where
  transaction : Option ℕ := none
  services : List Service := []
  sent : List ℕ := []
  deriving DecidableEq, Repr

/-- What is done with a session. -/
inductive SessionLabel where
  /-- A service is constructed: it registers its guard and its listeners. -/
  | construct
  | begin
  | beginNested
  /-- The release of the innermost savepoint. -/
  | release
  | commit
  | rollback
  /-- The `i`-th service writes a status. A statement begins the transaction if there is none. -/
  | append (i accountId : ℕ)
  /-- `flush_crm_status_events` of the `i`-th service. -/
  | flush (i : ℕ)

/-- The listeners of a service hear the hooks. -/
def Service.hear (hooks : List Hook) (t : Service) : Service :=
  { t with queue := hooks.foldl Hook.handle t.queue }

/-- The end of the transaction: the listeners hear the hooks. -/
def endStep (s : SessionState) (hooks : List Hook) (committed : Bool) : SessionState :=
  { s with
    transaction := none
    services := s.services.map fun t =>
      { queue := hooks.foldl Hook.handle t.queue, history := t.history.close committed } }

/-- A session and the services on it. A commit begins a transaction if there is none; a rollback
without one does nothing. -/
def sessionSystem (d : Dispatch) : System SessionState SessionLabel where
  init s := s.transaction = none ∧ s.services = []
  next s
    | .construct => some { s with services := s.services ++ [{}] }
    | .begin =>
      match s.transaction with
      | none => some { s with transaction := some 0 }
      | some _ => none
    | .beginNested =>
      match s.transaction with
      | none => some { s with transaction := some 1 }
      | some n => some { s with transaction := some (n + 1) }
    | .release =>
      match s.transaction with
      | some (n + 1) =>
        some { s with
          transaction := some n, services := s.services.map (Service.hear (d.release (n + 1))) }
      | _ => none
    | .commit => some (endStep s (d.commit (s.transaction.getD 0)) true)
    | .rollback =>
      match s.transaction with
      | none => some s
      | some n => some (endStep s (d.rollback n) false)
    | .append i accountId =>
      some { s with
        transaction := some (s.transaction.getD 0)
        services := s.services.modify i fun t =>
          { queue := appendStatus accountId t.queue, history := t.history.append accountId } }
    | .flush i =>
      some { s with
        services := s.services.modify i fun t =>
          { queue := drain t.queue, history := t.history.flush }
        sent := s.sent ++
          (s.services[i]?.map fun t => t.queue.pendingStatusAccountIds).getD [] }

/-! ### The queue follows the transaction -/

/-- The queue is what is committed, and then what is open; the count ends the former. -/
structure Follows (t : Service) : Prop where
  pending : t.queue.pendingStatusAccountIds = t.history.committedIds ++ t.history.openIds
  count : t.queue.statusCommittedCount = t.history.committedIds.length

namespace Follows

variable {t : Service}

theorem append (h : Follows t) (accountId : ℕ) :
    Follows ⟨appendStatus accountId t.queue, t.history.append accountId⟩ where
  pending := by simp [appendStatus, h.pending]
  count := by simp [appendStatus, h.count]

theorem flush : Follows ⟨drain t.queue, t.history.flush⟩ where
  pending := by simp [drain]
  count := by simp [drain]

theorem commit (h : Follows t) :
    Follows ⟨markPendingStatusCommitted false t.queue, t.history.close true⟩ where
  pending := by simp [markPendingStatusCommitted, h.pending]
  count := by simp [markPendingStatusCommitted, h.pending]

/-- A rollback takes away what the count leaves out: the open transaction. -/
theorem rollback (h : Follows t) :
    Follows ⟨discardPendingStatusOnRollback false t.queue, t.history.close false⟩ where
  pending := by simp [discardPendingStatusOnRollback, h.pending, h.count]
  count := by simp [discardPendingStatusOnRollback, h.count]

end Follows

/-- Each queue follows; without a transaction nothing is open. -/
structure SessionInv (s : SessionState) : Prop where
  follows : ∀ t ∈ s.services, Follows t
  closed : s.transaction = none → ∀ t ∈ s.services, t.history.openIds = []

section Step

variable {d : Dispatch} {s s' : SessionState}

/-- A change of one service. -/
theorem mem_modify {i : ℕ} {f : Service → Service} {t : Service}
    (h : t ∈ s.services.modify i f) : t ∈ s.services ∨ ∃ t₀ ∈ s.services, t = f t₀ := by
  obtain ⟨j, hj, rfl⟩ := List.mem_iff_getElem.mp h
  rw [List.length_modify] at hj
  rw [List.getElem_modify]
  split_ifs
  · exact Or.inr ⟨_, List.getElem_mem hj, rfl⟩
  · exact Or.inl (List.getElem_mem hj)

/-- An end of the transaction whose hooks keep each service following. -/
theorem SessionInv.endStep {hooks : List Hook} {committed : Bool}
    (h : ∀ t ∈ s.services, Follows ⟨hooks.foldl Hook.handle t.queue, t.history.close committed⟩) :
    SessionInv (endStep s hooks committed) where
  follows t ht := by
    obtain ⟨t₀, ht₀, rfl⟩ := List.mem_map.mp ht
    exact h t₀ ht₀
  closed _ t ht := by
    obtain ⟨t₀, -, rfl⟩ := List.mem_map.mp ht
    exact History.openIds_close _ _

/-- Every step keeps the invariant.

**Proof sketch.** By cases on the step. A new service has an empty queue and an empty history. A
begin and a savepoint are heard by nobody, and the release of a savepoint leaves the queues as they
are. A commit, a rollback, an append and a flush change the queue of a service as they change its
history, and the end of the transaction closes all histories. -/
theorem SessionInv.next {a : SessionLabel} (hinv : SessionInv s)
    (hn : (sessionSystem d).next s a = some s') : SessionInv s' := by
  cases a with
  | construct =>
    obtain rfl := Option.some.inj hn
    refine ⟨fun t ht => ?_, fun hnone t ht => ?_⟩
    · rcases List.mem_append.mp ht with ht | ht
      · exact hinv.follows t ht
      · obtain rfl := List.mem_singleton.mp ht
        exact ⟨rfl, rfl⟩
    · rcases List.mem_append.mp ht with ht | ht
      · exact hinv.closed hnone t ht
      · obtain rfl := List.mem_singleton.mp ht
        rfl
  | begin =>
    cases htransaction : s.transaction with
    | none =>
      simp only [sessionSystem, htransaction] at hn
      obtain rfl := Option.some.inj hn
      exact ⟨hinv.follows, nofun⟩
    | some n => simp [sessionSystem, htransaction] at hn
  | beginNested =>
    cases htransaction : s.transaction with
    | none =>
      simp only [sessionSystem, htransaction] at hn
      obtain rfl := Option.some.inj hn
      exact ⟨hinv.follows, nofun⟩
    | some n =>
      simp only [sessionSystem, htransaction] at hn
      obtain rfl := Option.some.inj hn
      exact ⟨hinv.follows, nofun⟩
  | release =>
    cases htransaction : s.transaction with
    | none => simp [sessionSystem, htransaction] at hn
    | some m =>
      cases m with
      | zero => simp [sessionSystem, htransaction] at hn
      | succ n =>
        simp only [sessionSystem, htransaction] at hn
        obtain rfl := Option.some.inj hn
        refine ⟨fun t ht => ?_, nofun⟩
        obtain ⟨t₀, ht₀, rfl⟩ := List.mem_map.mp ht
        rw [Service.hear, foldl_release]
        exact hinv.follows t₀ ht₀
  | commit =>
    obtain rfl := Option.some.inj hn
    refine SessionInv.endStep fun t ht => ?_
    rw [foldl_commit]
    exact (hinv.follows t ht).commit
  | rollback =>
    cases htransaction : s.transaction with
    | none =>
      simp only [sessionSystem, htransaction] at hn
      obtain rfl := Option.some.inj hn
      exact hinv
    | some n =>
      simp only [sessionSystem, htransaction] at hn
      obtain rfl := Option.some.inj hn
      refine SessionInv.endStep fun t ht => ?_
      rw [foldl_rollback]
      exact (hinv.follows t ht).rollback
  | append i accountId =>
    obtain rfl := Option.some.inj hn
    refine ⟨fun t ht => ?_, nofun⟩
    rcases mem_modify ht with ht | ⟨t₀, ht₀, rfl⟩
    · exact hinv.follows t ht
    · exact (hinv.follows t₀ ht₀).append accountId
  | flush i =>
    obtain rfl := Option.some.inj hn
    refine ⟨fun t ht => ?_, fun hnone t ht => ?_⟩
    · rcases mem_modify ht with ht | ⟨t₀, ht₀, rfl⟩
      · exact hinv.follows t ht
      · exact Follows.flush
    · rcases mem_modify ht with ht | ⟨t₀, ht₀, rfl⟩
      · exact hinv.closed hnone t ht
      · exact History.openIds_flush _

theorem sessionInv (hs : (sessionSystem d).Reachable s) : SessionInv s :=
  hs.invariant (fun s₀ hinit => ⟨by simp [hinit.2], by simp [hinit.2]⟩)
    fun _ _ _ h _ hn => h.next hn

end Step

/-! ## The guards of a session -/

/-- A `SessionGuard`, with what its probe returns when the session is closed. -/
structure SessionGuard where
  event : Text
  field : Text
  owner : Text
  leftover : List ℕ
  deriving DecidableEq, Repr

/-- `f"{ids}"`. -/
def listText (ids : List ℕ) : Text :=
  '[' :: ", ".toList.intercalate (ids.map ofNat) ++ [']']

/-- The description of a violated guard. -/
def describe (g : SessionGuard) : Text :=
  g.owner ++ ".".toList ++ g.event ++ ": ".toList ++ g.field ++ "=".toList ++ listText g.leftover

/-- The guards that are violated. Each is logged as a warning. -/
def violated (guards : List SessionGuard) : List SessionGuard :=
  guards.filter fun g => g.leftover ≠ []

/-- The text of the `AssertionError`. -/
def droppedMessage (violations : List Text) : Text :=
  ("deferred side effects dropped at session teardown " ++
    "(a caller committed a status-writing change and never flushed it — " ++
    "ADR-0046 §2.1.1 / TD-054): ").toList ++ "; ".toList.intercalate violations

/-- `check_session_guards`: the descriptions, or the text of the `AssertionError`. -/
def checkSessionGuards (strict : Bool) (guards : List SessionGuard) : Except Text (List Text) :=
  let violations := (violated guards).map describe
  if violations ≠ [] ∧ strict = true then .error (droppedMessage violations) else .ok violations

/-- The guard that a service registers, with what its probe returns. -/
def serviceGuard (leftover : List ℕ) : SessionGuard where
  event := "crm_status_pending_dropped".toList
  field := "mail_account_ids".toList
  owner := "MailAccountService".toList
  leftover

/-- The guards of the services on a session. -/
def SessionState.guards (s : SessionState) : List SessionGuard :=
  s.services.map fun t => serviceGuard t.queue.pendingStatusAccountIds

/-- The committed accounts that were not flushed, of the services that have any. -/
def SessionState.leaks (s : SessionState) : List (List ℕ) :=
  (s.services.map fun t => t.history.committedIds).filter fun ids => ids ≠ []

/-- **Deferred status events follow the transaction**, for every sequence of what is done with a
session: the queue of each service, what a rollback leaves of it, and what the guards report when
no transaction is open.

**Proof sketch.** Of the hooks, those of savepoints change nothing, so a queue changes only with an
append, a flush, and an end of the transaction. The count is the number of committed accounts after
each of them, and a rollback cuts the queue there. -/
theorem deferred_events_follow (d : Dispatch) {s : SessionState}
    (hs : (sessionSystem d).Reachable s) :
    (∀ t ∈ s.services,
      t.queue.pendingStatusAccountIds = t.history.committedIds ++ t.history.openIds) ∧
    (∀ s', (sessionSystem d).next s .rollback = some s' →
      s'.services.map (fun t => t.queue.pendingStatusAccountIds) =
        s.services.map fun t => t.history.committedIds) ∧
    (s.transaction = none → ∀ strict,
      violated s.guards = s.leaks.map serviceGuard ∧
      (checkSessionGuards strict s.guards = .ok [] ↔ s.leaks = []) ∧
      (strict = true → s.leaks ≠ [] → checkSessionGuards strict s.guards =
        .error (droppedMessage (s.leaks.map fun ids => describe (serviceGuard ids)))) ∧
      (strict = false → checkSessionGuards strict s.guards =
        .ok (s.leaks.map fun ids => describe (serviceGuard ids)))) := by
  have hinv := sessionInv hs
  refine ⟨fun t ht => (hinv.follows t ht).pending, fun s' hn => ?_, fun hnone strict => ?_⟩
  · cases htransaction : s.transaction with
    | none =>
      simp only [sessionSystem, htransaction] at hn
      obtain rfl := Option.some.inj hn
      refine List.map_congr_left fun t ht => ?_
      rw [(hinv.follows t ht).pending, hinv.closed htransaction t ht, List.append_nil]
    | some n =>
      simp only [sessionSystem, htransaction] at hn
      obtain rfl := Option.some.inj hn
      rw [endStep, List.map_map]
      refine List.map_congr_left fun t ht => ?_
      have hrollback := (hinv.follows t ht).rollback.pending
      rw [← foldl_rollback d n] at hrollback
      simpa using hrollback
  · have hguards : s.guards =
        (s.services.map fun t => t.history.committedIds).map serviceGuard := by
      rw [SessionState.guards, List.map_map]
      refine List.map_congr_left fun t ht => ?_
      rw [(hinv.follows t ht).pending, hinv.closed hnone t ht, List.append_nil]
      rfl
    have hviolated : violated s.guards = s.leaks.map serviceGuard := by
      rw [hguards, violated, List.filter_map]
      rfl
    have hdescribed : (violated s.guards).map describe =
        s.leaks.map fun ids => describe (serviceGuard ids) := by
      rw [hviolated, List.map_map]
      rfl
    refine ⟨hviolated, ?_, fun hstrict hleaks => ?_, fun hstrict => ?_⟩
    · rw [checkSessionGuards, hdescribed]
      by_cases hleaks : s.leaks = []
      · simp [hleaks]
      · by_cases hstrict : strict = true <;> simp [hleaks, hstrict]
    · rw [checkSessionGuards, hdescribed]
      simp [hleaks, hstrict]
    · rw [checkSessionGuards, hdescribed]
      simp [hstrict]

/-- The hooks of a session, as SQLAlchemy fires them. -/
def sqlalchemy : Dispatch where
  release _ := [.afterCommit true]
  commit n := List.replicate n (.afterCommit true) ++ [.afterCommit false]
  rollback n := List.replicate n (.afterSoftRollback true) ++ [.afterSoftRollback false]
  release_nested _ _ h := by
    obtain rfl := List.mem_singleton.mp h
    rfl
  commit_last n := ⟨_, rfl, fun _ h => by rw [List.eq_of_mem_replicate h]; rfl⟩
  rollback_last n := ⟨_, rfl, fun _ h => by rw [List.eq_of_mem_replicate h]; rfl⟩

/-- A status is committed; a second one is written before a savepoint and rolled back after it. -/
def committedThenRolledBack : List SessionLabel :=
  [.construct, .begin, .append 0 7, .commit, .append 0 8, .beginNested, .release, .rollback]

/-- The guard names the committed one of the two. -/
theorem deferred_events_follow_committedThenRolledBack : ∃ s,
    (sessionSystem sqlalchemy).run {} committedThenRolledBack = some s ∧ s.transaction = none ∧
      s.leaks = [[7]] ∧ violated s.guards = s.leaks.map serviceGuard := by
  have hrun : (sessionSystem sqlalchemy).run {} committedThenRolledBack =
      some ⟨none, [⟨⟨[7], 1⟩, ⟨[⟨true, [⟨7, false⟩]⟩, ⟨false, [⟨8, false⟩]⟩], []⟩⟩], []⟩ := by
    decide
  have hreachable := System.Reachable.run (.init (S := sessionSystem sqlalchemy) ⟨rfl, rfl⟩) hrun
  exact ⟨_, hrun, rfl, by decide,
    ((deferred_events_follow sqlalchemy hreachable).2.2 rfl true).1⟩

end StatusEvents

end MailAggregator
