import MailAggregator.Lib.Transition
import MailAggregator.Worker.SyncStore

set_option relaxedAutoImplicit false
set_option autoImplicit false

/-!
# The push outbox

Every stored message is to be pushed to the CRM. A row without a delivery mark is handed from a
sync to a Redis list, popped by a dispatch, posted, and marked; a recovery scan puts rows that
were lost on the way back on the list, if they were fetched recently enough. Retention deletes
rows by their own date.

## Main definitions

* `MailAggregator.CrmPush.OutboxState` — the table, the list and the jobs.
* `MailAggregator.CrmPush.outboxSystem` — the transition system.
* `MailAggregator.CrmPush.OutboxComplete` — every undelivered row can still be delivered.

## Design

A running job is the list of ids it holds, so that a step names the job by what it holds. Redis
fails in two ways: a command raises, and the list is lost.
-/

namespace MailAggregator

open MessagesRepo SyncStore Transition

namespace CrmPush

/-- A running `crm_push_dispatch`, by the ids it holds. -/
inductive Dispatch where
  /-- It has popped ids from the list. -/
  | popped (messageIds : List ℕ)
  /-- The CRM has answered 2xx to the rows it loaded; the mark is not committed. -/
  | accepted (messageIds : List ℕ)
  /-- The POST has failed, and the ids go back on the list. -/
  | rejected (messageIds : List ℕ)
  deriving DecidableEq, Repr

/-- The ids that a dispatch holds. -/
def Dispatch.messageIds : Dispatch → List ℕ
  | .popped ids | .accepted ids | .rejected ids => ids

/-- The tables, the Redis list, and the running jobs. -/
structure OutboxState where
  now : Instant
  accounts : List MailAccount
  messages : List Message
  nextMessageId : ℕ
  /-- `crm_push_queue`, from its left end. -/
  queue : List ℕ := []
  /-- The syncs that have committed rows and not handed them on yet, by the ids of the rows. -/
  syncs : List (List ℕ) := []
  dispatches : List Dispatch := []
  /-- The recovery scans that have selected ids and not handed them on yet. -/
  recoveries : List (List ℕ) := []
  /-- The batches that `retention_cleanup` has selected and not deleted yet. -/
  cleanups : List (List ℕ) := []

/-- The steps. In the labels with `ok`, `false` is a command that Redis fails. -/
inductive OutboxLabel where
  | tick (d : ℕ)
  /-- A sync commits its inserts; `fetched_at` is when its transaction began. -/
  | syncCommit (startedAt : Instant) (values : List MessageValues)
  | syncEnqueue (messageIds : List ℕ) (ok : Bool)
  | syncCrash (messageIds : List ℕ)
  | pop
  /-- A dispatch loads its rows and posts them; the CRM answers 2xx, or the POST fails. -/
  | post (messageIds : List ℕ) (accepted : Bool)
  /-- A dispatch commits the delivery marks. -/
  | mark (messageIds : List ℕ)
  | requeue (messageIds : List ℕ) (ok : Bool)
  | dispatchCrash (d : Dispatch)
  | recoverySelect
  | recoveryEnqueue (messageIds : List ℕ) (ok : Bool)
  /-- A batch of a cleanup that began at some time. -/
  | cleanupSelect (startedAt : Instant)
  | cleanupDelete (messageIds : List ℕ)
  /-- Redis loses the list. -/
  | redisLoss
  deriving DecidableEq, Repr

/-- The batch size of `retention_cleanup`. -/
def cleanupBatch : ℕ := 5000

/-- `enqueue_push_ids`: `LPUSH` puts one id after the other at the left end. -/
def enqueuePushIds (queue messageIds : List ℕ) : List ℕ := messageIds.reverse ++ queue

section System

variable (S : Settings)

/-- The state after a step, where it is enabled. -/
def outboxNext (s : OutboxState) : OutboxLabel → Option OutboxState
  | .tick d => some { s with now := s.now + d }
  | .syncCommit startedAt values =>
    if startedAt ≤ s.now then
      match insertMessages startedAt { rows := s.messages, nextId := s.nextMessageId } values with
      | (t, none) =>
        some { s with
          messages := t.rows
          nextMessageId := t.nextId
          syncs := t.crmPushIds :: s.syncs }
      | (_, some _) => none
    else none
  | .syncEnqueue ids ok =>
    if ids ∈ s.syncs then
      some { s with
        syncs := s.syncs.erase ids
        queue := if S.crmPushEnabled ∧ ok then enqueuePushIds s.queue ids else s.queue }
    else none
  | .syncCrash ids =>
    if ids ∈ s.syncs then some { s with syncs := s.syncs.erase ids } else none
  | .pop =>
    if s.queue = [] then none
    else
      some { s with
        queue := s.queue.drop S.crmPushBatchSize
        dispatches := .popped (s.queue.take S.crmPushBatchSize) :: s.dispatches }
  | .post ids accepted =>
    if Dispatch.popped ids ∈ s.dispatches then
      let rest := s.dispatches.erase (.popped ids)
      let loaded := (listForCrmPush s.messages ids).map Message.id
      if loaded = [] then some { s with dispatches := rest }
      else if accepted then some { s with dispatches := .accepted loaded :: rest }
      else some { s with dispatches := .rejected ids :: rest }
    else none
  | .mark ids =>
    if Dispatch.accepted ids ∈ s.dispatches then
      some { s with
        messages := markPushed s.messages ids s.now
        dispatches := s.dispatches.erase (.accepted ids) }
    else none
  | .requeue ids ok =>
    if Dispatch.rejected ids ∈ s.dispatches then
      some { s with
        dispatches := s.dispatches.erase (.rejected ids)
        queue := if ok then enqueuePushIds s.queue ids else s.queue }
    else none
  | .dispatchCrash d =>
    if d ∈ s.dispatches then some { s with dispatches := s.dispatches.erase d } else none
  | .recoverySelect =>
    let windowStart := s.now - hours S.crmPushRecoveryWindowHours
    let candidates := listPendingPush s.messages windowStart S.crmPushRecoveryBatchSize
    some { s with recoveries := candidates :: s.recoveries }
  | .recoveryEnqueue ids ok =>
    if ids ∈ s.recoveries then
      some { s with
        recoveries := s.recoveries.erase ids
        queue := if ok then enqueuePushIds s.queue ids else s.queue }
    else none
  | .cleanupSelect startedAt =>
    if startedAt ≤ s.now then
      let threshold := startedAt - days S.retentionDays
      let expired := selectExpired s.messages s.accounts threshold cleanupBatch
      some { s with cleanups := expired.map Prod.fst :: s.cleanups }
    else none
  | .cleanupDelete ids =>
    if ids ∈ s.cleanups then
      some { s with
        messages := deleteMessages s.messages ids
        cleanups := s.cleanups.erase ids }
    else none
  | .redisLoss => some { s with queue := [] }

/-- The recovery predicate: a scan that runs now selects the row, up to its limit. -/
def Recoverable (now : Instant) (m : Message) : Prop :=
  now - hours S.crmPushRecoveryWindowHours < m.fetchedAt

/-- An id is on the list, or is held by a running sync or dispatch. -/
def InFlight (s : OutboxState) (messageId : ℕ) : Prop :=
  messageId ∈ s.queue ∨ (∃ ids ∈ s.syncs, messageId ∈ ids) ∨
    ∃ d ∈ s.dispatches, messageId ∈ d.messageIds

instance (now : Instant) (m : Message) : Decidable (Recoverable S now m) :=
  inferInstanceAs (Decidable (_ < _))

instance (s : OutboxState) (messageId : ℕ) : Decidable (InFlight s messageId) :=
  inferInstanceAs (Decidable (_ ∨ (∃ ids ∈ s.syncs, messageId ∈ ids) ∨
    ∃ d ∈ s.dispatches, messageId ∈ d.messageIds))

/-- **The outbox is complete**: every row without a delivery mark is in flight or recoverable. -/
def OutboxComplete (s : OutboxState) : Prop :=
  ∀ m ∈ s.messages, m.pushedAt = none → InFlight s m.id ∨ Recoverable S s.now m

instance (s : OutboxState) : Decidable (OutboxComplete S s) :=
  inferInstanceAs (Decidable (∀ m ∈ s.messages, m.pushedAt = none →
    InFlight s m.id ∨ Recoverable S s.now m))

/-- The jobs, from any state with a complete outbox. -/
def outboxSystem : System OutboxState OutboxLabel where
  init := OutboxComplete S
  next := outboxNext S

end System

end CrmPush

end MailAggregator
