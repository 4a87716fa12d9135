import MailAggregator.CrmPush.Outbox
import MailAggregator.Lib.JsonText

set_option relaxedAutoImplicit false
set_option autoImplicit false

/-!
# The items of the Redis lists

What is pushed to `crm_push_queue` and `crm_status_queue` is JSON. A dispatch reads the items that
it pops; one that it cannot read is dropped with a warning.

## Main definitions

* `MailAggregator.CrmPush.PushQueuePayload` — an item of `crm_push_queue`, with its `toJson` and
  `fromJson`.
* `MailAggregator.CrmPush.statusItem`, `MailAggregator.CrmPush.parseStatusPayload` — an item of
  `crm_status_queue`, and what is read in one.
* `MailAggregator.CrmPush.wireSystem` — the outbox, whose list holds items instead of ids.

## Main results

* `MailAggregator.CrmPush.queueItems_read_back` — an item is read back by the dispatch of its own
  list and refused by the other one.
* `MailAggregator.CrmPush.wire_refines_outbox` — the list of items behaves as the list of ids.

## Design

An id that a foreign item names need not be the id of a row. Row ids are natural numbers, so that
`readIds` drops a negative one.
-/

namespace MailAggregator

open PyText JsonText Transition

namespace CrmPush

/-! ## The items -/

/-- `_PAYLOAD_VERSION`. -/
def payloadVersion : ℤ := 1

/-- An item of `crm_push_queue`. -/
structure PushQueuePayload where
  messageId : ℤ
  source : Text
  deriving DecidableEq, Repr

/-- `isinstance(value, int)`, and `int(value)`: a truth value is a number, too. -/
def asInt : Value → Option ℤ
  | .int n => some n
  | .bool b => some (if b then 1 else 0)
  | _ => none

/-- The fields of a text that is an object. -/
def loadsObject (raw : Text) : Option (List (Text × Value)) :=
  match loads raw with
  | some (.obj fields) => some fields
  | _ => none

/-- `_PushQueuePayload.from_json`. -/
def PushQueuePayload.fromJson (raw : Text) : Option PushQueuePayload := do
  let data ← loadsObject raw
  let mid ← (Value.get data "message_id".toList).bind asInt
  let source := match Value.get data "source".toList with
    | some (.str source) => source
    | _ => "sync".toList
  return { messageId := mid, source }

/-- `_PushQueuePayload.to_json`. -/
def PushQueuePayload.toJson (p : PushQueuePayload) : Text :=
  dumps true (.obj [("v".toList, .int payloadVersion), ("message_id".toList, .int p.messageId),
    ("source".toList, .str p.source)])

/-- The payload of `enqueue_crm_status`. -/
def statusItem (accountId : ℤ) : Text :=
  dumps true (.obj [("v".toList, .int payloadVersion), ("mail_account_id".toList, .int accountId)])

/-- `parse_status_payload`. -/
def parseStatusPayload (raw : Text) : Option ℤ := do
  let data ← loadsObject raw
  (Value.get data "mail_account_id".toList).bind asInt

theorem loadsObject_dumps {fields : List (Text × Value)} (h : FieldsExact fields) :
    loadsObject (dumps true (.obj fields)) = some fields := by
  rw [loadsObject, loads_dumps true (v := .obj fields) h]

/-- The fields of an item of `crm_push_queue`. -/
theorem loadsObject_toJson (p : PushQueuePayload) :
    loadsObject p.toJson = some [("v".toList, .int payloadVersion),
      ("message_id".toList, .int p.messageId), ("source".toList, .str p.source)] :=
  loadsObject_dumps ⟨trivial, trivial, trivial, trivial⟩

/-- The fields of an item of `crm_status_queue`. -/
theorem loadsObject_statusItem (accountId : ℤ) :
    loadsObject (statusItem accountId) = some [("v".toList, .int payloadVersion),
      ("mail_account_id".toList, .int accountId)] :=
  loadsObject_dumps ⟨trivial, trivial, trivial⟩

theorem fromJson_toJson (p : PushQueuePayload) : PushQueuePayload.fromJson p.toJson = some p := by
  rw [PushQueuePayload.fromJson, loadsObject_toJson]
  rfl

/-- **The items of the two lists.** An item is read back by the dispatch of its own list, whatever
id and source it was made of, and the dispatch of the other list does not take it for its own. -/
theorem queueItems_read_back :
    (∀ p : PushQueuePayload,
      PushQueuePayload.fromJson p.toJson = some p ∧ parseStatusPayload p.toJson = none) ∧
    ∀ accountId : ℤ, parseStatusPayload (statusItem accountId) = some accountId ∧
      PushQueuePayload.fromJson (statusItem accountId) = none := by
  refine ⟨fun p => ⟨fromJson_toJson p, ?_⟩, fun accountId => ⟨?_, ?_⟩⟩
  · rw [parseStatusPayload, loadsObject_toJson]
    rfl
  · rw [parseStatusPayload, loadsObject_statusItem]
    rfl
  · rw [PushQueuePayload.fromJson, loadsObject_statusItem]
    rfl

/-! ## The outbox over items -/

/-- The ids in the items of a `LPOP`. -/
def readIds (items : List Text) : List ℕ :=
  items.filterMap fun raw => (PushQueuePayload.fromJson raw).bind fun p => p.messageId.toNat?

/-- `enqueue_push_ids`: `LPUSH` puts one item after the other at the left end. -/
def enqueueItems (source : Text) (items : List Text) (messageIds : List ℕ) : List Text :=
  (messageIds.map fun mid : ℕ => PushQueuePayload.toJson { messageId := mid, source }).reverse ++
    items

/-- The outbox with the items of `crm_push_queue`. -/
structure WireState where
  /-- The tables and the running jobs; `crm_push_queue` is not in its list but in `items`. -/
  jobs : OutboxState
  items : List Text

section System

variable (S : Settings)

/-- The state after a step, where it is enabled. A dispatch that can read none of its items has
nothing to do. -/
def wireNext (s : WireState) : OutboxLabel → Option WireState
  | .syncEnqueue ids ok =>
    if s.jobs.syncs.contains ids then
      some
        { jobs := { s.jobs with syncs := s.jobs.syncs.erase ids }
          items :=
            if S.crmPushEnabled ∧ ok then enqueueItems "sync".toList s.items ids else s.items }
    else none
  | .pop =>
    if s.items = [] then none
    else
      let messageIds := readIds (s.items.take S.crmPushBatchSize)
      let items := s.items.drop S.crmPushBatchSize
      if messageIds = [] then some { s with items }
      else
        some
          { jobs := { s.jobs with dispatches := .popped messageIds :: s.jobs.dispatches }
            items }
  | .requeue ids ok =>
    if Dispatch.rejected ids ∈ s.jobs.dispatches then
      some
        { jobs := { s.jobs with dispatches := s.jobs.dispatches.erase (.rejected ids) }
          items := if ok then enqueueItems "recovery".toList s.items ids else s.items }
    else none
  | .recoveryEnqueue ids ok =>
    if s.jobs.recoveries.contains ids then
      some
        { jobs := { s.jobs with recoveries := s.jobs.recoveries.erase ids }
          items := if ok then enqueueItems "recovery".toList s.items ids else s.items }
    else none
  | .redisLoss => some { s with items := [] }
  | l => (outboxNext S s.jobs l).map fun jobs => { s with jobs }

/-- The outbox that the items stand for. -/
def WireState.outbox (s : WireState) : OutboxState := { s.jobs with queue := readIds s.items }

end System

/-! ## The refinement -/

section Reading

variable {items : List Text}

/-- The items of a list were pushed by `enqueue_push_ids`. -/
def AllSelfMade (items : List Text) : Prop :=
  ∀ item ∈ items, ∃ (messageId : ℕ) (source : Text),
    item = PushQueuePayload.toJson { messageId, source }

theorem readIds_append (items items' : List Text) :
    readIds (items ++ items') = readIds items ++ readIds items' :=
  List.filterMap_append

/-- A self-made item holds one id. -/
@[simp] theorem readIds_cons_toJson (messageId : ℕ) (source : Text) (items : List Text) :
    readIds (PushQueuePayload.toJson { messageId, source } :: items) =
      messageId :: readIds items := by
  rw [readIds, List.filterMap_cons_some (b := messageId)]
  · rfl
  · rw [fromJson_toJson]
    rfl

/-- **What is pushed is read back**, in the order of the list. -/
theorem readIds_enqueueItems (source : Text) (items : List Text) (messageIds : List ℕ) :
    readIds (enqueueItems source items messageIds) = enqueuePushIds (readIds items) messageIds := by
  rw [enqueueItems, enqueuePushIds, readIds_append, ← List.map_reverse]
  congr 1
  induction messageIds.reverse with
  | nil => rfl
  | cons i is ih => rw [List.map_cons, readIds_cons_toJson, ih]

/-- A batch of items is a batch of ids of the same size. -/
theorem readIds_take (h : AllSelfMade items) (n : ℕ) :
    readIds (items.take n) = (readIds items).take n := by
  induction items generalizing n with
  | nil => simp [readIds]
  | cons item items ih =>
    obtain ⟨messageId, source, rfl⟩ := h item List.mem_cons_self
    cases n with
    | zero => rfl
    | succ n =>
      rw [List.take_succ_cons, readIds_cons_toJson, readIds_cons_toJson, List.take_succ_cons,
        ih fun item hitem => h item (List.mem_cons_of_mem _ hitem)]

theorem readIds_drop (h : AllSelfMade items) (n : ℕ) :
    readIds (items.drop n) = (readIds items).drop n := by
  induction items generalizing n with
  | nil => simp [readIds]
  | cons item items ih =>
    obtain ⟨messageId, source, rfl⟩ := h item List.mem_cons_self
    cases n with
    | zero => rfl
    | succ n =>
      rw [List.drop_succ_cons, readIds_cons_toJson, List.drop_succ_cons,
        ih fun item hitem => h item (List.mem_cons_of_mem _ hitem)]

theorem readIds_eq_nil_iff (h : AllSelfMade items) : readIds items = [] ↔ items = [] := by
  cases items with
  | nil => simp [readIds]
  | cons item items =>
    obtain ⟨messageId, source, rfl⟩ := h item List.mem_cons_self
    simp

theorem allSelfMade_enqueueItems (h : AllSelfMade items) (source : Text) (messageIds : List ℕ) :
    AllSelfMade (enqueueItems source items messageIds) := by
  intro item hitem
  rcases List.mem_append.mp hitem with hnew | hold
  · obtain ⟨i, -, rfl⟩ := List.mem_map.mp (List.mem_reverse.mp hnew)
    exact ⟨i, source, rfl⟩
  · exact h item hold

end Reading

section System

variable (S : Settings)

/-- The jobs over items, from any state with a complete outbox and self-made items. -/
def wireSystem : System WireState OutboxLabel where
  init s := AllSelfMade s.items ∧ OutboxComplete S s.outbox
  next := wireNext S

variable {S} {s t : WireState} {l : OutboxLabel}

/-- The steps that leave the list alone. -/
def LeavesList : OutboxLabel → Prop
  | .syncEnqueue _ _ | .pop | .requeue _ _ | .recoveryEnqueue _ _ | .redisLoss => False
  | _ => True

/-- A step that leaves the list alone is the same whatever is on it. -/
theorem outboxNext_queue (h : LeavesList l) (o : OutboxState) (queue : List ℕ) :
    outboxNext S { o with queue } l = (outboxNext S o l).map fun o => { o with queue } := by
  cases l with
  | syncEnqueue | pop | requeue | recoveryEnqueue | redisLoss => exact h.elim
  | tick | recoverySelect => rfl
  | syncCommit startedAt values =>
    simp only [outboxNext]
    split_ifs
    · split <;> rfl
    · rfl
  | syncCrash | post | mark | dispatchCrash | cleanupSelect | cleanupDelete =>
    simp only [outboxNext]
    split_ifs <;> rfl

theorem wireNext_of_leavesList (h : LeavesList l) :
    wireNext S s l = (outboxNext S s.jobs l).map fun jobs => { s with jobs } := by
  cases l with
  | syncEnqueue | pop | requeue | recoveryEnqueue | redisLoss => exact h.elim
  | _ => rfl

/-- **A step over items is the step over ids.**

**Proof sketch.** A step that leaves the list alone is the same on both sides. The others put items
at the end of the list or take them from its front; what is put there is written by the queue
itself, so that reading gives the ids back, and taking commutes with reading. -/
theorem map_wireNext (h : AllSelfMade s.items) (l : OutboxLabel) :
    (wireNext S s l).map WireState.outbox = outboxNext S s.outbox l := by
  by_cases hleaves : LeavesList l
  · have hqueue := outboxNext_queue (S := S) hleaves s.jobs (readIds s.items)
    rw [wireNext_of_leavesList hleaves, Option.map_map]
    exact hqueue.symm
  cases l with
  | syncEnqueue ids ok =>
    by_cases hids : ids ∈ s.jobs.syncs
    · by_cases hpush : S.crmPushEnabled ∧ ok = true <;>
        simp [wireNext, outboxNext, WireState.outbox, hids, hpush, readIds_enqueueItems]
    · simp [wireNext, outboxNext, WireState.outbox, hids]
  | requeue ids ok =>
    by_cases hids : Dispatch.rejected ids ∈ s.jobs.dispatches
    · cases ok <;> simp [wireNext, outboxNext, WireState.outbox, hids, readIds_enqueueItems]
    · simp [wireNext, outboxNext, WireState.outbox, hids]
  | recoveryEnqueue ids ok =>
    by_cases hids : ids ∈ s.jobs.recoveries
    · cases ok <;> simp [wireNext, outboxNext, WireState.outbox, hids, readIds_enqueueItems]
    · simp [wireNext, outboxNext, WireState.outbox, hids]
  | redisLoss => rfl
  | pop =>
    have hpos : 0 < S.crmPushBatchSize := S.crmPushBatchSize_within.1
    simp only [wireNext, outboxNext, WireState.outbox, readIds_take h, readIds_eq_nil_iff h]
    by_cases hnil : s.items = []
    · rw [if_pos hnil, if_pos hnil, Option.map_none]
    · have hbatch : (readIds s.items).take S.crmPushBatchSize ≠ [] := by
        rw [Ne, List.take_eq_nil_iff, not_or, readIds_eq_nil_iff h]
        exact ⟨Nat.ne_of_gt hpos, hnil⟩
      rw [if_neg hnil, if_neg hnil, if_neg hbatch, Option.map_some]
      simp only [WireState.outbox, readIds_drop h]
  | _ => exact absurd trivial hleaves

/-- A step keeps the items self-made. -/
theorem allSelfMade_wireNext (h : AllSelfMade s.items) (hn : wireNext S s l = some t) :
    AllSelfMade t.items := by
  by_cases hleaves : LeavesList l
  · rw [wireNext_of_leavesList hleaves] at hn
    obtain ⟨jobs, -, rfl⟩ := Option.map_eq_some_iff.mp hn
    exact h
  cases l with
  | syncEnqueue ids ok | requeue ids ok | recoveryEnqueue ids ok =>
    simp only [wireNext] at hn
    split_ifs at hn with _ hpush <;> obtain rfl := Option.some.inj hn
    · exact allSelfMade_enqueueItems h _ ids
    · exact h
  | redisLoss =>
    obtain rfl := Option.some.inj hn
    intro item hitem
    cases hitem
  | pop =>
    simp only [wireNext] at hn
    split_ifs at hn <;> obtain rfl := Option.some.inj hn <;>
      exact fun item hitem => h item (List.mem_of_mem_drop hitem)
  | _ => exact absurd trivial hleaves

/-- **The list of items behaves as the list of ids.** From self-made items, a run over items is
possible exactly if the run over ids with the same steps is, and ends in a state that stands for
the end of that one. -/
theorem wire_refines_outbox (h : AllSelfMade s.items) (ls : List OutboxLabel) :
    ((wireSystem S).run s ls).map WireState.outbox = (outboxSystem S).run s.outbox ls :=
  System.run_map (S := wireSystem S) (T := outboxSystem S) (I := fun s => AllSelfMade s.items)
    (fun _ _ _ => allSelfMade_wireNext) (fun _ l hs => map_wireNext hs l) h ls

/-- A list with two items, before a dispatch. -/
def twoItems : WireState where
  jobs := { now := 0, accounts := [], messages := [], nextMessageId := 3 }
  items := enqueueItems "sync".toList [] [1, 2]

/-- A dispatch that pops both items. -/
theorem wire_refines_outbox_twoItems :
    ((wireSystem {}).run twoItems [.pop]).map WireState.outbox =
        (outboxSystem {}).run twoItems.outbox [.pop] ∧
      (((wireSystem {}).run twoItems [.pop]).map fun s => s.jobs.dispatches) =
        some [.popped [2, 1]] :=
  ⟨wire_refines_outbox (allSelfMade_enqueueItems (fun _ h => by cases h) _ _) [.pop], by decide⟩

end System

end CrmPush

end MailAggregator
