import MailAggregator.CrmPush.Outbox
import MailAggregator.Lib.BatchQueue
import Mathlib.Data.Finset.Max
import Mathlib.Data.List.Count

set_option relaxedAutoImplicit false
set_option autoImplicit false

/-!
# Whether poisoned batches starve the outbox

Suppose that the CRM keeps refusing some messages. A refused batch goes back to the end of the list
that the next tick pops from, so the ticks take it again and again; and a recovery scan selects the
same first rows again as long as they are not delivered.

## Main definitions

* `MailAggregator.CrmPush.dispatchTick` — a dispatch that runs from its pop to its end.
* `MailAggregator.CrmPush.recoveryScan` — a recovery scan that runs to its end.
* `MailAggregator.CrmPush.PostsAll`, `MailAggregator.CrmPush.EnqueuesAll` — every queued id is
  posted, every recoverable row is enqueued.

## Main results

* `MailAggregator.CrmPush.run_dispatchTick`, `MailAggregator.CrmPush.run_recoveryScan` — they are
  runs of the outbox.
* `MailAggregator.CrmPush.poison_starves_iff` — when every id is posted, and every row enqueued.
* `MailAggregator.CrmPush.enqueuesAll_iff_length_le` — rows past the limit of the scans starve.
* `MailAggregator.CrmPush.poison_starves` — an id that is never posted.
-/

namespace MailAggregator

open MessagesRepo SyncStore Transition

namespace CrmPush

/-! ## Ticks of the dispatcher -/

section Ticks

variable (batchSize : ℕ) (rejects : ℕ → Bool)

/-- One `crm_push_dispatch` against a CRM that refuses a POST exactly when it contains a rejected
id: the state after it, and the ids of the rows it posts. Without rows there is no POST. -/
def dispatchTick (s : OutboxState) : OutboxState × List ℕ :=
  let messageIds := s.queue.take batchSize
  let rest := { s with queue := s.queue.drop batchSize }
  let loaded := (listForCrmPush s.messages messageIds).map Message.id
  if messageIds = [] then (s, [])
  else if loaded = [] then (rest, [])
  else if loaded.any rejects then
    ({ rest with queue := enqueuePushIds rest.queue messageIds }, loaded)
  else ({ rest with messages := markPushed s.messages loaded s.now }, loaded)

/-- The POSTs of consecutive ticks. -/
def posts : ℕ → OutboxState → List (List ℕ)
  | 0, _ => []
  | n + 1, s =>
    let (s', posted) := dispatchTick batchSize rejects s
    posted :: posts n s'

/-- The least number of ticks whose batches have room for the list. -/
def ticksFor (queue : List ℕ) : ℕ := (queue.length + batchSize - 1) / batchSize

/-- Every queued id is part of a POST of as many ticks as the list has batches. -/
def PostsAll (s : OutboxState) : Prop :=
  ∀ i ∈ s.queue, ∃ posted ∈ posts batchSize rejects (ticksFor batchSize s.queue) s, i ∈ posted

/-- Some row of a batch is one that the CRM rejects. -/
def Poisoned (stored batch : List ℕ) : Prop := ∃ i ∈ batch, i ∈ stored ∧ rejects i

instance (stored : List ℕ) : DecidablePred (Poisoned rejects stored) := fun batch =>
  inferInstanceAs (Decidable (∃ i ∈ batch, i ∈ stored ∧ rejects i))

/-- **The condition on the list.** Every queued id has a row, and whatever stands behind a poisoned
batch stands in that batch or before it as well. -/
def NothingBehindPoison (s : OutboxState) : Prop :=
  (∀ i ∈ s.queue, i ∈ s.messages.map Message.id) ∧
    ∀ k, Poisoned rejects (s.messages.map Message.id)
        ((s.queue.drop (batchSize * k)).take batchSize) →
      ∀ i ∈ s.queue.drop (batchSize * (k + 1)), i ∈ s.queue.take (batchSize * (k + 1))

variable {batchSize rejects} {s : OutboxState}

/-- The ids of the rows of a POST. -/
theorem mem_map_listForCrmPush {messages : List Message} {ids : List ℕ} {i : ℕ} :
    i ∈ (listForCrmPush messages ids).map Message.id ↔
      i ∈ ids ∧ i ∈ messages.map Message.id := by
  simp only [List.mem_map, mem_listForCrmPush]
  constructor
  · rintro ⟨m, ⟨hm, hid⟩, rfl⟩
    exact ⟨hid, m, hm, rfl⟩
  · rintro ⟨hid, m, hm, rfl⟩
    exact ⟨m, ⟨hm, hid⟩, rfl⟩

/-- What a tick posts. -/
theorem mem_dispatchTick {i : ℕ} :
    i ∈ (dispatchTick batchSize rejects s).2 ↔
      i ∈ s.queue.take batchSize ∧ i ∈ s.messages.map Message.id := by
  rw [← mem_map_listForCrmPush]
  simp only [dispatchTick]
  split_ifs with hids hnil hany
  · simp [hids, mem_map_listForCrmPush]
  · simp [hnil]
  · rfl
  · rfl

/-- A tick keeps the rows. -/
theorem map_id_dispatchTick :
    (dispatchTick batchSize rejects s).1.messages.map Message.id =
      s.messages.map Message.id := by
  simp only [dispatchTick]
  split_ifs
  · rfl
  · rfl
  · rfl
  · exact map_id_markPushed _ _ _

/-- **A tick takes its turn**: a batch that the CRM refuses is put back on top. -/
theorem queue_dispatchTick :
    (dispatchTick batchSize rejects s).1.queue =
      BatchQueue.turn batchSize (Poisoned rejects (s.messages.map Message.id)) s.queue := by
  have hpoisoned :
      ((listForCrmPush s.messages (s.queue.take batchSize)).map Message.id).any rejects = true ↔
        Poisoned rejects (s.messages.map Message.id) (s.queue.take batchSize) := by
    rw [List.any_eq_true]
    constructor
    · rintro ⟨i, hi, hr⟩
      obtain ⟨hbatch, hstored⟩ := mem_map_listForCrmPush.mp hi
      exact ⟨i, hbatch, hstored, hr⟩
    · rintro ⟨i, hbatch, hstored, hr⟩
      exact ⟨i, mem_map_listForCrmPush.mpr ⟨hbatch, hstored⟩, hr⟩
  rw [BatchQueue.turn, ← if_congr hpoisoned rfl rfl]
  by_cases hids : s.queue.take batchSize = []
  · have hdrop : s.queue.drop batchSize = s.queue := by
      have happ := List.take_append_drop batchSize s.queue
      rwa [hids, List.nil_append] at happ
    simp [dispatchTick, hids, hdrop]
  · simp only [dispatchTick, enqueuePushIds, if_neg hids]
    split_ifs with hnil hany
    · simp [hnil] at hany
    · rfl
    · rfl
    · rfl

/-- What consecutive ticks post. -/
theorem mem_posts {n : ℕ} {i : ℕ} :
    (∃ posted ∈ posts batchSize rejects n s, i ∈ posted) ↔
      i ∈ BatchQueue.popped batchSize (Poisoned rejects (s.messages.map Message.id)) n s.queue ∧
        i ∈ s.messages.map Message.id := by
  induction n generalizing s with
  | zero => simp [posts, BatchQueue.popped]
  | succ n ih =>
    simp only [posts, BatchQueue.popped, List.exists_mem_cons_iff, List.mem_append]
    rw [ih, mem_dispatchTick, queue_dispatchTick, map_id_dispatchTick, ← or_and_right]

/-- **Which lists are posted**: those with nothing new behind a poisoned batch. -/
theorem postsAll_iff (hb : 0 < batchSize) :
    PostsAll batchSize rejects s ↔ NothingBehindPoison batchSize rejects s := by
  have hn : s.queue.length ≤ ticksFor batchSize s.queue * batchSize := by
    have hlt := Nat.lt_div_mul_add (a := s.queue.length + batchSize - 1) hb
    rw [ticksFor]
    omega
  have hperm (xs ys : List ℕ) (hxy : ∀ x, x ∈ xs ↔ x ∈ ys) :
      Poisoned rejects (s.messages.map Message.id) xs ↔
        Poisoned rejects (s.messages.map Message.id) ys := by
    simp only [Poisoned, hxy]
  have hall := BatchQueue.all_popped_iff hperm hn fun _ => True
  simp only [true_imp_iff] at hall
  rw [NothingBehindPoison, ← hall, and_comm]
  simp only [PostsAll, mem_posts]
  exact ⟨fun h => ⟨fun i hi => (h i hi).1, fun i hi => (h i hi).2⟩,
    fun h i hi => ⟨h.1 i hi, h.2 i hi⟩⟩

end Ticks

/-- **A tick is a run of the outbox**: a pop, a POST, and a mark or a requeue. -/
theorem run_dispatchTick (S : Settings) (rejects : ℕ → Bool) (s : OutboxState) :
    ∃ ls, (outboxSystem S).run s ls = some (dispatchTick S.crmPushBatchSize rejects s).1 := by
  by_cases hids : s.queue.take S.crmPushBatchSize = []
  · refine ⟨[], ?_⟩
    simp [dispatchTick, hids, System.run]
  · have hqueue : s.queue ≠ [] := fun h => hids (by rw [h, List.take_nil])
    set ids := s.queue.take S.crmPushBatchSize with hidsDef
    by_cases hnil : (listForCrmPush s.messages ids).map Message.id = []
    · refine ⟨[.pop, .post ids true], ?_⟩
      simp [System.run, outboxSystem, outboxNext, dispatchTick, hqueue, hids, hnil, ← hidsDef]
    · by_cases hany : ((listForCrmPush s.messages ids).map Message.id).any rejects
      · refine ⟨[.pop, .post ids false, .requeue ids true], ?_⟩
        simp [System.run, outboxSystem, outboxNext, dispatchTick, hqueue, hids, hnil, hany,
          ← hidsDef]
      · refine ⟨[.pop, .post ids true, .mark ((listForCrmPush s.messages ids).map Message.id)],
          ?_⟩
        simp [System.run, outboxSystem, outboxNext, dispatchTick, hqueue, hids, hnil, hany,
          ← hidsDef]

/-! ## Recovery scans -/

section Scans

variable (windowHours limit : ℕ)

/-- One `crm_push_recovery_scan`: the state after it, and the ids it enqueues. -/
def recoveryScan (s : OutboxState) : OutboxState × List ℕ :=
  let candidates := listPendingPush s.messages (s.now - hours windowHours) limit
  ({ s with queue := enqueuePushIds s.queue candidates }, candidates)

/-- What scans enqueue that run at the given delays after each other, while no row is delivered. -/
def recoveryScans : List ℕ → OutboxState → List (List ℕ)
  | [], _ => []
  | d :: ds, s =>
    let (s', candidates) := recoveryScan windowHours limit { s with now := s.now + d }
    candidates :: recoveryScans ds s'

/-- The times of events that follow each other at the given delays. -/
def timesAfter : Instant → List ℕ → List Instant
  | _, [] => []
  | now, d :: ds => (now + d) :: timesAfter (now + d) ds

/-- A row is a candidate of a scan at some time. -/
def Pending (t : Instant) (m : Message) : Prop :=
  m.pushedAt = none ∧ t - hours windowHours < m.fetchedAt

instance (t : Instant) : DecidablePred (Pending windowHours t) := fun _ =>
  inferInstanceAs (Decidable (_ ∧ _))

/-- Every row that is a candidate of all the scans is enqueued by one of them. -/
def EnqueuesAll (s : OutboxState) (delays : List ℕ) : Prop :=
  ∀ m ∈ s.messages, (∀ t ∈ timesAfter s.now delays, Pending windowHours t m) →
    ∃ ids ∈ recoveryScans windowHours limit delays s, m.id ∈ ids

/-- **The condition on the rows.** Each row that is a candidate of all the scans has fewer than
`limit` candidates with smaller ids at one of them. -/
def RoomForAll (s : OutboxState) (delays : List ℕ) : Prop :=
  ∀ m ∈ s.messages, (∀ t ∈ timesAfter s.now delays, Pending windowHours t m) →
    ∃ t ∈ timesAfter s.now delays,
      s.messages.countP (fun a => Pending windowHours t a ∧ a.id < m.id) < limit

variable {windowHours limit} {s : OutboxState}

theorem recoveryScans_eq (delays : List ℕ) :
    recoveryScans windowHours limit delays s =
      (timesAfter s.now delays).map fun t =>
        listPendingPush s.messages (t - hours windowHours) limit := by
  induction delays generalizing s with
  | nil => rfl
  | cons d ds ih => simp [recoveryScans, recoveryScan, timesAfter, ih]

/-- A scan selects a candidate exactly when fewer than `limit` candidates have smaller ids. -/
theorem mem_listPendingPush (hn : (s.messages.map Message.id).Nodup) {m : Message}
    (hm : m ∈ s.messages) {t : Instant} (hp : Pending windowHours t m) :
    m.id ∈ listPendingPush s.messages (t - hours windowHours) limit ↔
      s.messages.countP (fun a => Pending windowHours t a ∧ a.id < m.id) < limit := by
  have hsub := hn.sublist
    ((s.messages.filter_sublist (p := fun m => Pending windowHours t m)).map Message.id)
  have hfilter : m ∈ s.messages.filter fun m => Pending windowHours t m :=
    List.mem_filter.mpr ⟨hm, decide_eq_true hp⟩
  have hpage : m ∈ Keyset.page Message.id none limit _ ↔ _ := Keyset.mem_page_iff hsub
  simp only [Keyset.beyond_none, true_and, hfilter, List.countP_filter] at hpage
  have hcount :
      s.messages.countP (fun a => decide (a.id < m.id) && decide (Pending windowHours t a)) =
        s.messages.countP (fun a => Pending windowHours t a ∧ a.id < m.id) := by
    congr 1
    funext a
    simp [Bool.and_comm]
  rw [hcount] at hpage
  rw [← hpage, listPendingPush, List.mem_map]
  constructor
  · rintro ⟨a, ha, hid⟩
    have hinj := List.inj_on_of_nodup_map hn
    obtain rfl : a = m := hinj (List.mem_of_mem_filter (Keyset.mem_of_mem_page ha).1) hm hid
    exact ha
  · intro hmem
    exact ⟨m, hmem, rfl⟩

/-- **Which rows are enqueued**: those that some scan has room for. -/
theorem enqueuesAll_iff (hn : (s.messages.map Message.id).Nodup) (delays : List ℕ) :
    EnqueuesAll windowHours limit s delays ↔ RoomForAll windowHours limit s delays := by
  simp only [EnqueuesAll, RoomForAll, recoveryScans_eq, List.mem_map]
  refine forall₂_congr fun m hm => forall_congr' fun hp => ?_
  constructor
  · rintro ⟨_, ⟨t, ht, rfl⟩, hmem⟩
    exact ⟨t, ht, (mem_listPendingPush hn hm (hp t ht)).mp hmem⟩
  · rintro ⟨t, ht, hcount⟩
    exact ⟨_, ⟨t, ht, rfl⟩, (mem_listPendingPush hn hm (hp t ht)).mpr hcount⟩

/-- **Rows past the limit starve**: as long as the same rows are candidates, the scans enqueue all
of them exactly when there are at most `limit`, however many scans there are.

**Proof sketch.** Every scan selects the same rows, those with the smallest ids. The row with the
largest id is among them exactly when there is room for all. -/
theorem enqueuesAll_iff_length_le (hn : (s.messages.map Message.id).Nodup) {delays : List ℕ}
    (hne : delays ≠ []) (hp : ∀ m ∈ s.messages, ∀ t ∈ timesAfter s.now delays,
      Pending windowHours t m) :
    EnqueuesAll windowHours limit s delays ↔ s.messages.length ≤ limit := by
  rw [enqueuesAll_iff hn, RoomForAll]
  constructor
  · intro hroom
    rcases List.eq_nil_or_concat s.messages with hnil | ⟨_, _, hcons⟩
    · simp [hnil]
    · have hpos : 0 < s.messages.length := by simp [hcons]
      obtain ⟨m, hm, hmax⟩ := s.messages.toFinset.exists_max_image Message.id
        ⟨s.messages[0], by simp⟩
      rw [List.mem_toFinset] at hm
      obtain ⟨t, ht, hcount⟩ := hroom m hm (hp m hm)
      have hone : s.messages.countP (fun a => a.id = m.id) = 1 := by
        have hcount := List.count_eq_one_of_mem hn (List.mem_map_of_mem (f := Message.id) hm)
        rw [List.count, List.countP_map] at hcount
        exact hcount
      have hrest : s.messages.countP (fun a => Pending windowHours t a ∧ a.id < m.id) =
          s.messages.countP (fun a => ¬ a.id = m.id) := by
        refine List.countP_congr fun a ha => ?_
        have hle : a.id ≤ m.id := hmax a (List.mem_toFinset.mpr ha)
        simp only [decide_eq_true_eq, hp a ha t ht, true_and]
        omega
      have hsum := s.messages.length_eq_countP_add_countP fun a => a.id = m.id
      simp only [decide_eq_true_eq] at hsum
      omega
  · intro hlen m hm _
    obtain ⟨t, ht⟩ : ∃ t, t ∈ timesAfter s.now delays := by
      cases delays with
      | nil => exact absurd rfl hne
      | cons d ds => exact ⟨_, List.mem_cons_self⟩
    refine ⟨t, ht, lt_of_lt_of_le ?_ hlen⟩
    exact List.countP_lt_length_iff.mpr ⟨m, hm, by simp⟩

end Scans

/-- **A scan is a run of the outbox**: it selects its candidates, and enqueues them. -/
theorem run_recoveryScan (S : Settings) (s : OutboxState) :
    ∃ ls, (outboxSystem S).run s ls =
      some (recoveryScan S.crmPushRecoveryWindowHours S.crmPushRecoveryBatchSize s).1 := by
  refine ⟨[.recoverySelect, .recoveryEnqueue (recoveryScan S.crmPushRecoveryWindowHours
    S.crmPushRecoveryBatchSize s).2 true], ?_⟩
  simp [System.run, outboxSystem, outboxNext, recoveryScan]

/-! ## Progress -/

/-- **When poisoned batches starve nothing.** The ticks post every queued id exactly when nothing
new stands behind a poisoned batch of the list; the scans enqueue every row that stays a candidate
exactly when some scan has room for it. -/
theorem poison_starves_iff {batchSize windowHours limit : ℕ} (rejects : ℕ → Bool)
    {s : OutboxState} (delays : List ℕ) (hb : 0 < batchSize)
    (hn : (s.messages.map Message.id).Nodup) :
    (PostsAll batchSize rejects s ↔ NothingBehindPoison batchSize rejects s) ∧
      (EnqueuesAll windowHours limit s delays ↔ RoomForAll windowHours limit s delays) :=
  ⟨postsAll_iff hb, enqueuesAll_iff hn delays⟩

/-- Two messages that are not delivered and stand on the list. -/
def twoQueued : OutboxState where
  now := 0
  accounts := []
  messages := [{ id := 1, mailAccountId := 1, uid := 1, uidvalidity := 1, fetchedAt := 0 },
    { id := 2, mailAccountId := 1, uid := 2, uidvalidity := 1, fetchedAt := 0 }]
  nextMessageId := 3
  queue := [1, 2]

/-- If the CRM rejects the last message of the list only, the ones before it are posted. -/
theorem postsAll_twoQueued : PostsAll 1 (fun i => i = 2) twoQueued := by
  have hiff : (PostsAll 1 (fun i => i = 2) twoQueued ↔ _) ∧
      (EnqueuesAll 720 500 twoQueued [] ↔ _) :=
    poison_starves_iff _ [] Nat.one_pos (by decide)
  refine hiff.1.mpr ⟨by decide, fun k hk i hi => ?_⟩
  cases k with
  | zero => exact absurd hk (by decide)
  | succ k =>
    have hlen : twoQueued.queue.length ≤ 1 * (k + 1 + 1) := by
      show 2 ≤ 1 * (k + 1 + 1)
      omega
    rw [List.drop_eq_nil_of_le hlen] at hi
    cases hi

/-- **A starved message.** If the CRM rejects the first message of the list, two ticks with batches
of one message post that message twice; and two scans with a limit of one enqueue it twice. -/
theorem poison_starves :
    ¬ PostsAll 1 (fun i => i = 1) twoQueued ∧ ¬ EnqueuesAll 720 1 twoQueued [0, 3600000000] := by
  constructor
  · intro hposts
    exact absurd (hposts 2 (by decide)) (by decide)
  · intro hscans
    have hall : ∀ m ∈ twoQueued.messages, (∀ t ∈ timesAfter twoQueued.now [0, 3600000000],
        Pending 720 t m) → ∃ ids ∈ recoveryScans 720 1 [0, 3600000000] twoQueued, m.id ∈ ids :=
      hscans
    exact absurd hall (by decide)

end CrmPush

end MailAggregator
