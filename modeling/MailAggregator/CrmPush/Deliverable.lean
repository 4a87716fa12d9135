import MailAggregator.CrmPush.Delivery
import MailAggregator.CrmPush.DeliveryMark
import MailAggregator.CrmPush.Starvation

set_option relaxedAutoImplicit false
set_option autoImplicit false

/-!
# What can still be delivered

A complete outbox is one whose undelivered rows are in flight or recoverable. Here this is what it
is meant to be: exactly those rows can still be delivered, and as long as Redis and the CRM answer,
the jobs deliver all of them by their own steps, and delete none.

## Main definitions

* `MailAggregator.CrmPush.Serving` — the steps of the jobs in which nothing fails.
* `MailAggregator.CrmPush.Served` — what a run of such steps has marked.
* `MailAggregator.CrmPush.Stranded` — no job knows of a row, and no scan can find it.

## Main results

* `MailAggregator.CrmPush.deliverable_iff` — which rows can still be delivered.
* `MailAggregator.CrmPush.outbox_can_empty` — a complete outbox can be emptied.
-/

namespace MailAggregator

open MessagesRepo SyncStore Transition

namespace CrmPush

/-- A step of the jobs in which neither Redis nor the CRM fails. Time does not pass, and nothing is
deleted. -/
def Serving : OutboxLabel → Prop
  | .syncEnqueue _ ok | .requeue _ ok | .recoveryEnqueue _ ok => ok = true
  | .post _ accepted => accepted = true
  | .pop | .mark _ | .recoverySelect => True
  | .tick _ | .syncCommit _ _ | .syncCrash _ | .dispatchCrash _ | .cleanupSelect _
  | .cleanupDelete _ | .redisLoss => False

variable {S : Settings} {s t u : OutboxState}

/-- A step in which nothing fails loses no row. -/
theorem losesNoRow_of_serving {l : OutboxLabel} (hl : Serving l) : LosesNoRow S s l := by
  cases l with
  | syncEnqueue ids ok | requeue ids ok | recoveryEnqueue ids ok =>
    obtain rfl : ok = true := hl
    trivial
  | post _ _ | pop | mark _ | recoverySelect => trivial
  | tick _ | syncCommit _ _ | syncCrash _ | dispatchCrash _ | cleanupSelect _ | cleanupDelete _
  | redisLoss => exact hl.elim

/-! ## Marks -/

section Marks

variable {messages : List Message} {ids : List ℕ} {now : Instant}

@[simp] theorem markPushed_nil (messages : List Message) (now : Instant) :
    markPushed messages [] now = messages := by
  simp [markPushed]

theorem markPushed_markPushed (messages : List Message) (ids ids' : List ℕ) (now : Instant) :
    markPushed (markPushed messages ids now) ids' now = markPushed messages (ids ++ ids') now := by
  simp only [markPushed, List.map_map]
  refine List.map_congr_left fun m _ => ?_
  by_cases hp : m.pushedAt = none
  · by_cases hi : m.id ∈ ids <;> simp [hp, hi]
  · simp [hp]

/-- The rows that are undelivered after a mark are the ones that it leaves out. -/
theorem mem_markPushed_of_pending {m : Message} (hp : m.pushedAt = none) :
    m ∈ markPushed messages ids now ↔ m ∈ messages ∧ m.id ∉ ids := by
  rw [markPushed, List.mem_map]
  constructor
  · rintro ⟨r, hr, rfl⟩
    split_ifs at hp ⊢ with hmark
    exact ⟨hr, fun hi => hmark ⟨hi, hp⟩⟩
  · rintro ⟨hm, hi⟩
    exact ⟨m, hm, by simp [hi]⟩

/-- How many rows are undelivered. -/
def countPending (messages : List Message) : ℕ := messages.countP fun m => m.pushedAt = none

theorem countPending_markPushed (messages : List Message) (ids : List ℕ) (now : Instant) :
    countPending (markPushed messages ids now) =
      messages.countP fun m => m.pushedAt = none ∧ m.id ∉ ids := by
  rw [countPending, markPushed, List.countP_map]
  refine List.countP_congr fun m _ => ?_
  simp only [Function.comp_apply, decide_eq_true_eq]
  by_cases hp : m.pushedAt = none
  · by_cases hi : m.id ∈ ids <;> simp [hp, hi]
  · simp [hp]

/-- A mark of an undelivered row leaves fewer of them. -/
theorem countPending_markPushed_lt {m : Message} (hm : m ∈ messages) (hp : m.pushedAt = none)
    (hi : m.id ∈ ids) : countPending (markPushed messages ids now) < countPending messages := by
  rw [countPending_markPushed]
  induction messages with
  | nil => cases hm
  | cons r messages ih =>
    have hle : messages.countP (fun m => m.pushedAt = none ∧ m.id ∉ ids) ≤
        messages.countP fun m => m.pushedAt = none :=
      List.countP_mono_left fun m _ h => by simpa using (of_decide_eq_true h).1
    rw [countPending, List.countP_cons, List.countP_cons]
    rcases List.mem_cons.mp hm with rfl | hm
    · simp only [hi, hp, not_true_eq_false, and_false, decide_false, decide_true, if_true,
        Bool.false_eq_true, if_false]
      omega
    · have hlt := ih hm
      rw [countPending] at hlt
      by_cases hr : r.pushedAt = none
      · by_cases hri : r.id ∈ ids <;> simp [hr, hri] at hlt ⊢ <;> omega
      · simpa [hr] using hlt

end Marks

/-! ## Runs in which nothing fails -/

/-- A run in which nothing fails has marked the rows of some ids. -/
structure Served (S : Settings) (s t : OutboxState) (messageIds : List ℕ) : Prop where
  run : (outboxSystem S).ReachesBy Serving s t
  now : t.now = s.now
  messages : t.messages = markPushed s.messages messageIds s.now

namespace Served

variable {ids ids' : List ℕ}

theorem refl (S : Settings) (s : OutboxState) : Served S s s [] :=
  ⟨.refl s, rfl, (markPushed_nil _ _).symm⟩

theorem trans (h : Served S s t ids) (h' : Served S t u ids') : Served S s u (ids ++ ids') where
  run := h.run.trans h'.run
  now := h'.now.trans h.now
  messages := by rw [h'.messages, h.messages, h.now, markPushed_markPushed]

/-- A step that marks no row. -/
theorem single {l : OutboxLabel} (hl : Serving l) (hn : outboxNext S s l = some t)
    (hnow : t.now = s.now) (hmessages : t.messages = s.messages) : Served S s t [] where
  run := .single hl hn
  now := hnow
  messages := by rw [hmessages, markPushed_nil]

theorem map_id (h : Served S s t ids) : t.messages.map Message.id = s.messages.map Message.id := by
  rw [h.messages, map_id_markPushed]

end Served

/-! ## Serving what the jobs hold -/

section Serve

variable {ids : List ℕ}

/-- A dispatch whose POST was accepted marks its rows. -/
theorem serve_accepted (h : Dispatch.accepted ids ∈ s.dispatches) :
    ∃ t, Served S s t ids ∧ t.queue = s.queue := by
  have hn : outboxNext S s (.mark ids) = some _ := if_pos h
  exact ⟨_, ⟨.single (a := .mark ids) trivial hn, rfl, rfl⟩, rfl⟩

/-- A dispatch that holds ids posts their rows and marks them. -/
theorem serve_popped (h : Dispatch.popped ids ∈ s.dispatches) :
    ∃ t marked, Served S s t marked ∧ t.queue = s.queue ∧
      ∀ i ∈ s.messages.map Message.id, i ∈ ids → i ∈ marked := by
  set loaded := (listForCrmPush s.messages ids).map Message.id with hloaded
  have hmem : ∀ i ∈ s.messages.map Message.id, i ∈ ids → i ∈ loaded := by
    intro i hi hids
    obtain ⟨m, hm, rfl⟩ := List.mem_map.mp hi
    exact List.mem_map_of_mem (mem_listForCrmPush.mpr ⟨hm, hids⟩)
  have hn : outboxNext S s (.post ids true) = _ := if_pos h
  simp only [← hloaded] at hn
  by_cases hnil : loaded = []
  · rw [if_pos hnil] at hn
    exact ⟨_, [], .single (l := .post ids true) rfl hn rfl rfl, rfl, hnil ▸ hmem⟩
  · rw [if_neg hnil, if_true] at hn
    obtain ⟨t, ht, hqueue⟩ := @serve_accepted S
      { s with dispatches := .accepted loaded :: s.dispatches.erase (.popped ids) } loaded
      List.mem_cons_self
    exact ⟨t, _, Served.trans (.single (l := .post ids true) rfl hn rfl rfl) ht, hqueue, hmem⟩

/-- **The list can be emptied**, and the rows on it are delivered.

**Proof sketch.** Induction on its length. A pop takes at least one id, and its dispatch marks the
rows of what it has popped. -/
theorem serve_queue (S : Settings) (s : OutboxState) :
    ∃ t marked, Served S s t marked ∧ t.queue = [] ∧
      ∀ i ∈ s.messages.map Message.id, i ∈ s.queue → i ∈ marked := by
  induction hlen : s.queue.length using Nat.strong_induction_on generalizing s with
  | _ n ih =>
    subst hlen
    by_cases hnil : s.queue = []
    · exact ⟨s, [], .refl S s, hnil, by simp [hnil]⟩
    · have hn : outboxNext S s .pop = some _ := if_neg hnil
      obtain ⟨t, marked, ht, hqueue, hmarked⟩ := @serve_popped S
        { s with
          queue := s.queue.drop S.crmPushBatchSize
          dispatches := .popped (s.queue.take S.crmPushBatchSize) :: s.dispatches }
        (s.queue.take S.crmPushBatchSize) List.mem_cons_self
      have hst := Served.trans (.single (l := .pop) trivial hn rfl rfl) ht
      have hpos := S.crmPushBatchSize_within.1
      have hlen := List.length_pos_iff.mpr hnil
      have hshort : t.queue.length < s.queue.length := by
        rw [hqueue, List.length_drop]
        omega
      obtain ⟨u, marked', hu, hempty, hmarked'⟩ := ih _ hshort t rfl
      refine ⟨u, _, hst.trans hu, hempty, fun i hi hq => ?_⟩
      rw [← List.take_append_drop S.crmPushBatchSize s.queue, List.mem_append] at hq
      rw [List.nil_append, List.mem_append]
      rcases hq with htake | hdrop
      · exact Or.inl (hmarked i hi htake)
      · exact Or.inr (hmarked' i (hst.map_id ▸ hi) (hqueue ▸ hdrop))

/-- Ids that a step has put on the list are delivered. -/
theorem serve_enqueued (hst : Served S s t []) (hqueue : ∀ i ∈ ids, i ∈ t.queue) :
    ∃ u marked, Served S s u marked ∧
      ∀ i ∈ s.messages.map Message.id, i ∈ ids → i ∈ marked := by
  obtain ⟨u, marked, hu, -, hmarked⟩ := serve_queue S t
  exact ⟨u, marked, hst.trans hu, fun i hi hids => hmarked i (hst.map_id ▸ hi) (hqueue i hids)⟩

/-- Whatever a job holds is delivered. -/
theorem serve_inFlight (hS : S.crmPushEnabled) {i : ℕ} (hi : i ∈ s.messages.map Message.id)
    (h : InFlight s i) : ∃ t marked, Served S s t marked ∧ i ∈ marked := by
  rcases h with hq | ⟨ids, hids, hmem⟩ | ⟨d, hd, hmem⟩
  · obtain ⟨t, marked, ht, -, hmarked⟩ := serve_queue S s
    exact ⟨t, marked, ht, hmarked i hi hq⟩
  · have hn : outboxNext S s (.syncEnqueue ids true) = some _ := if_pos hids
    rw [if_pos ⟨hS, rfl⟩] at hn
    obtain ⟨t, marked, ht, hmarked⟩ := serve_enqueued
      (.single (l := .syncEnqueue ids true) rfl hn rfl rfl) fun i hi => mem_enqueuePushIds hi
    exact ⟨t, marked, ht, hmarked i hi hmem⟩
  · cases d with
    | popped ids =>
      obtain ⟨t, marked, ht, -, hmarked⟩ := serve_popped hd
      exact ⟨t, marked, ht, hmarked i hi hmem⟩
    | accepted ids =>
      obtain ⟨t, ht, -⟩ := serve_accepted hd
      exact ⟨t, ids, ht, hmem⟩
    | rejected ids =>
      have hn : outboxNext S s (.requeue ids true) = some _ := if_pos hd
      rw [if_pos rfl] at hn
      obtain ⟨t, marked, ht, hmarked⟩ := serve_enqueued
        (.single (l := .requeue ids true) rfl hn rfl rfl) fun i hi => mem_enqueuePushIds hi
      exact ⟨t, marked, ht, hmarked i hi hmem⟩

/-- What a recovery scan has selected is delivered. -/
theorem serve_selected (h : ids ∈ s.recoveries) :
    ∃ t marked, Served S s t marked ∧
      ∀ i ∈ s.messages.map Message.id, i ∈ ids → i ∈ marked := by
  have hn : outboxNext S s (.recoveryEnqueue ids true) = some _ := if_pos h
  rw [if_pos rfl] at hn
  exact serve_enqueued (.single (l := .recoveryEnqueue ids true) rfl hn rfl rfl) fun i hi =>
    mem_enqueuePushIds hi

/-- The undelivered rows that a scan selects. -/
theorem mem_of_mem_listPendingPush {messages : List Message} {windowStart : Instant} {limit i : ℕ}
    (h : i ∈ listPendingPush messages windowStart limit) :
    ∃ m ∈ messages, m.id = i ∧ m.pushedAt = none ∧ windowStart < m.fetchedAt := by
  obtain ⟨m, hm, rfl⟩ := List.mem_map.mp h
  obtain ⟨hm, hpending⟩ := List.mem_filter.mp (Keyset.mem_of_mem_page hm).1
  rw [decide_eq_true_eq] at hpending
  exact ⟨m, hm, rfl, hpending⟩

/-- A scan with something to select selects something. -/
theorem listPendingPush_ne_nil {messages : List Message} {windowStart : Instant} {limit : ℕ}
    (hlimit : 0 < limit) {m : Message} (hm : m ∈ messages) (hp : m.pushedAt = none)
    (hwindow : windowStart < m.fetchedAt) : listPendingPush messages windowStart limit ≠ [] := by
  have hfilter : m ∈ messages.filter fun m => m.pushedAt = none ∧ windowStart < m.fetchedAt :=
    List.mem_filter.mpr ⟨hm, by simp [hp, hwindow]⟩
  have hsorted : m ∈ Keyset.sorted Message.id none
      (messages.filter fun m => m.pushedAt = none ∧ windowStart < m.fetchedAt) :=
    Keyset.mem_sorted.mpr ⟨hfilter, Keyset.beyond_none _⟩
  rw [listPendingPush, ne_eq, List.map_eq_nil_iff, Keyset.page, List.take_eq_nil_iff, not_or]
  exact ⟨hlimit.ne', List.ne_nil_of_mem hsorted⟩

/-- **A recoverable row is delivered**, after as many scans as it takes.

**Proof sketch.** Induction on the number of undelivered rows. A scan selects some of them, and they
are delivered; if the row is not among them, then it is as recoverable as before, and fewer rows are
undelivered. -/
theorem serve_recoverable {m : Message} (hm : m ∈ s.messages) (hp : m.pushedAt = none)
    (h : Recoverable S s.now m) : ∃ t marked, Served S s t marked ∧ m.id ∈ marked := by
  induction hcount : countPending s.messages using Nat.strong_induction_on generalizing s with
  | _ n ih =>
    subst hcount
    set candidates := listPendingPush s.messages (s.now - hours S.crmPushRecoveryWindowHours)
      S.crmPushRecoveryBatchSize with hcandidates
    have hn : outboxNext S s .recoverySelect =
      some { s with recoveries := candidates :: s.recoveries } := rfl
    have hst : Served S s { s with recoveries := candidates :: s.recoveries } [] :=
      .single (l := .recoverySelect) trivial hn rfl rfl
    obtain ⟨t, marked, ht, hmarked⟩ := @serve_selected S
      { s with recoveries := candidates :: s.recoveries } candidates List.mem_cons_self
    have hst' := hst.trans ht
    by_cases hdone : m.id ∈ marked
    · exact ⟨t, _, hst', hdone⟩
    · obtain ⟨i, hi⟩ := List.exists_mem_of_ne_nil _
        (listPendingPush_ne_nil S.crmPushRecoveryBatchSize_within.1 hm hp h)
      obtain ⟨r, hr, rfl, hrp, -⟩ := mem_of_mem_listPendingPush hi
      have hrmarked := hmarked r.id (List.mem_map_of_mem hr) hi
      have hfewer : countPending t.messages < countPending s.messages := by
        rw [hst'.messages]
        exact countPending_markPushed_lt hr hrp hrmarked
      have hmt : m ∈ t.messages := by
        rw [hst'.messages]
        exact (mem_markPushed_of_pending hp).mpr ⟨hm, hdone⟩
      have hrecoverable : Recoverable S t.now m := by
        rw [hst'.now]
        exact h
      obtain ⟨u, marked', hu, hmem⟩ := ih _ hfewer hmt hrecoverable rfl
      exact ⟨u, _, hst'.trans hu, List.mem_append_right _ hmem⟩

end Serve

/-! ## Stranded rows -/

/-- No job knows of the row with an id, it is not delivered, and no scan can find it. -/
structure Stranded (S : Settings) (s : OutboxState) (i : ℕ) : Prop where
  drawn : i < s.nextMessageId
  rows : ∀ m ∈ s.messages, m.id = i → m.pushedAt = none ∧ ¬ Recoverable S s.now m
  queue : i ∉ s.queue
  syncs : ∀ ids ∈ s.syncs, i ∉ ids
  dispatches : ∀ d ∈ s.dispatches, i ∉ d.messageIds
  recoveries : ∀ ids ∈ s.recoveries, i ∉ ids

section Stranded

variable {i : ℕ}

/-- The ids that the loop over a batch hands on are new. -/
theorem le_of_mem_crmPushIds (now : Instant) (vs : List MessageValues) (n : ℕ) :
    ∀ t : Inserts, n ≤ t.nextId → (∀ i ∈ t.crmPushIds, n ≤ i) →
      ∀ i ∈ (insertMessages now t vs).1.crmPushIds, n ≤ i := by
  induction vs with
  | nil => exact fun t _ h => h
  | cons v vs ih =>
    intro t hn h
    unfold insertMessages
    cases hins : insertMessageIdempotent t.rows t.nextId now v with
    | error e => exact h
    | ok r =>
      rcases (insertMessageIdempotent_eq_ok hins).2 with ⟨-, rfl⟩ | ⟨-, rfl⟩
      · exact ih (t.add none) (Nat.le_succ_of_le hn) h
      · refine ih (t.add (some _)) (Nat.le_succ_of_le hn) fun i hi => ?_
        rcases List.mem_append.mp hi with hi | hi
        · exact h i hi
        · obtain rfl := List.mem_singleton.mp hi
          exact hn

theorem not_mem_enqueuePushIds {ids queue : List ℕ} (hids : i ∉ ids) (hqueue : i ∉ queue) :
    i ∉ enqueuePushIds queue ids := by
  simp [enqueuePushIds, hids, hqueue]

/-- Time only takes the row further out of the window. -/
theorem Stranded.tick (h : Stranded S s i) {d : ℕ}
    (hn : outboxNext S s (.tick d) = some t) : Stranded S t i := by
  obtain rfl := Option.some.inj hn
  refine { h with rows := fun m hm hid => ?_ }
  obtain ⟨hp, hold⟩ := h.rows m hm hid
  refine ⟨hp, fun hrec => hold (lt_of_le_of_lt ?_ hrec)⟩
  exact sub_le_sub_right (le_add_of_nonneg_right (Int.natCast_nonneg d)) _

/-- The ids that a commit draws and hands to its sync are new. -/
theorem Stranded.syncCommit (h : Stranded S s i) {startedAt : Instant} {values : List MessageValues}
    (hn : outboxNext S s (.syncCommit startedAt values) = some t) : Stranded S t i := by
  simp only [outboxNext] at hn
  split_ifs at hn
  split at hn
  · next ins hins =>
    obtain rfl := Option.some.inj hn
    obtain ⟨added, hrows, hfresh⟩ := insertMessages_rows startedAt values
      { rows := s.messages, nextId := s.nextMessageId }
    have hpush := le_of_mem_crmPushIds startedAt values s.nextMessageId
      { rows := s.messages, nextId := s.nextMessageId } le_rfl (by simp)
    rw [hins] at hrows hfresh hpush
    refine { h with
      drawn := h.drawn.trans_le hfresh.le
      rows := fun m hm hid => ?_
      syncs := fun ids hmem hi => ?_ }
    · rw [hrows, List.mem_append] at hm
      rcases hm with hm | hm
      · exact h.rows m hm hid
      · have hnew : s.nextMessageId ≤ m.id := (hfresh.fresh m hm).1
        have hdrawn := h.drawn
        omega
    · rcases List.mem_cons.mp hmem with rfl | hmem
      · have hnew := hpush i hi
        have hdrawn := h.drawn
        omega
      · exact h.syncs ids hmem hi
  · cases hn

/-- A sync does not have the id, so that it does not put it on the list. -/
theorem Stranded.syncEnqueue (h : Stranded S s i) {ids : List ℕ} {ok : Bool}
    (hn : outboxNext S s (.syncEnqueue ids ok) = some t) : Stranded S t i := by
  simp only [outboxNext] at hn
  split_ifs at hn with hmem hok
  · obtain rfl := Option.some.inj hn
    exact { h with
      queue := not_mem_enqueuePushIds (h.syncs ids hmem) h.queue
      syncs := fun ids' hi => h.syncs ids' (List.mem_of_mem_erase hi) }
  · obtain rfl := Option.some.inj hn
    exact { h with syncs := fun ids' hi => h.syncs ids' (List.mem_of_mem_erase hi) }

/-- A dispatch pops what is on the list. -/
theorem Stranded.pop (h : Stranded S s i)
    (hn : outboxNext S s .pop = some t) : Stranded S t i := by
  simp only [outboxNext] at hn
  split_ifs at hn
  obtain rfl := Option.some.inj hn
  exact { h with
    queue := fun hi => h.queue (List.mem_of_mem_drop hi)
    dispatches := fun d hd => by
      rcases List.mem_cons.mp hd with rfl | hd
      · exact fun hi => h.queue (List.mem_of_mem_take hi)
      · exact h.dispatches d hd }

/-- A dispatch goes on with ids that it has popped. -/
theorem Stranded.post (h : Stranded S s i) {ids : List ℕ} {accepted : Bool}
    (hn : outboxNext S s (.post ids accepted) = some t) : Stranded S t i := by
  simp only [outboxNext] at hn
  split_ifs at hn with hmem hnil hacc <;> obtain rfl := Option.some.inj hn
  · exact { h with dispatches := fun d hd => h.dispatches d (List.mem_of_mem_erase hd) }
  · refine { h with dispatches := fun d hd => ?_ }
    rcases List.mem_cons.mp hd with rfl | hd
    · intro hi
      obtain ⟨m, hm, rfl⟩ := List.mem_map.mp hi
      exact h.dispatches _ hmem (mem_listForCrmPush.mp hm).2
    · exact h.dispatches d (List.mem_of_mem_erase hd)
  · refine { h with dispatches := fun d hd => ?_ }
    rcases List.mem_cons.mp hd with rfl | hd
    · exact h.dispatches (.popped ids) hmem
    · exact h.dispatches d (List.mem_of_mem_erase hd)

/-- A mark changes the rows of its dispatch, and the row is none of them. -/
theorem Stranded.mark (h : Stranded S s i) {ids : List ℕ}
    (hn : outboxNext S s (.mark ids) = some t) : Stranded S t i := by
  simp only [outboxNext] at hn
  split_ifs at hn with hmem
  obtain rfl := Option.some.inj hn
  refine { h with
    rows := fun m hm hid => ?_
    dispatches := fun d hd => h.dispatches d (List.mem_of_mem_erase hd) }
  have hi : i ∉ ids := h.dispatches _ hmem
  obtain ⟨r, hr, rfl⟩ := List.mem_map.mp hm
  split_ifs at hid ⊢ with hmark
  · exact absurd (hid ▸ hmark.1) hi
  · exact h.rows r hr hid

/-- A refused dispatch puts back what it has popped. -/
theorem Stranded.requeue (h : Stranded S s i) {ids : List ℕ} {ok : Bool}
    (hn : outboxNext S s (.requeue ids ok) = some t) : Stranded S t i := by
  simp only [outboxNext] at hn
  split_ifs at hn with hmem hok
  · obtain rfl := Option.some.inj hn
    exact { h with
      queue := not_mem_enqueuePushIds (h.dispatches _ hmem) h.queue
      dispatches := fun d hd => h.dispatches d (List.mem_of_mem_erase hd) }
  · obtain rfl := Option.some.inj hn
    exact { h with dispatches := fun d hd => h.dispatches d (List.mem_of_mem_erase hd) }

/-- A scan selects rows in the window only. -/
theorem Stranded.recoverySelect (h : Stranded S s i)
    (hn : outboxNext S s .recoverySelect = some t) : Stranded S t i := by
  obtain rfl := Option.some.inj hn
  refine { h with recoveries := fun ids hmem => ?_ }
  rcases List.mem_cons.mp hmem with rfl | hmem
  · intro hi
    obtain ⟨m, hm, hid, -, hwindow⟩ := mem_of_mem_listPendingPush hi
    exact (h.rows m hm hid).2 hwindow
  · exact h.recoveries ids hmem

/-- A recovery puts on the list what it has selected. -/
theorem Stranded.recoveryEnqueue (h : Stranded S s i) {ids : List ℕ} {ok : Bool}
    (hn : outboxNext S s (.recoveryEnqueue ids ok) = some t) : Stranded S t i := by
  simp only [outboxNext] at hn
  split_ifs at hn with hmem hok
  · obtain rfl := Option.some.inj hn
    exact { h with
      queue := not_mem_enqueuePushIds (h.recoveries ids hmem) h.queue
      recoveries := fun ids' hi => h.recoveries ids' (List.mem_of_mem_erase hi) }
  · obtain rfl := Option.some.inj hn
    exact { h with recoveries := fun ids' hi => h.recoveries ids' (List.mem_of_mem_erase hi) }

/-- **A stranded row stays stranded.**

**Proof sketch.** An id gets to the list, a sync, a dispatch or a recovery only from another of
these places, from a commit that draws it, or from a scan that finds its row in the window. The id
is drawn already and in none of these places, its row is out of the window for good, and only a
dispatch that has the id could mark it. -/
theorem Stranded.next (h : Stranded S s i) {l : OutboxLabel} (hn : outboxNext S s l = some t) :
    Stranded S t i := by
  cases l with
  | tick d => exact h.tick hn
  | syncCommit startedAt values => exact h.syncCommit hn
  | syncEnqueue ids ok => exact h.syncEnqueue hn
  | syncCrash ids =>
    simp only [outboxNext] at hn
    split_ifs at hn
    obtain rfl := Option.some.inj hn
    exact { h with syncs := fun ids' hi => h.syncs ids' (List.mem_of_mem_erase hi) }
  | pop => exact h.pop hn
  | post ids accepted => exact h.post hn
  | mark ids => exact h.mark hn
  | requeue ids ok => exact h.requeue hn
  | dispatchCrash d =>
    simp only [outboxNext] at hn
    split_ifs at hn
    obtain rfl := Option.some.inj hn
    exact { h with dispatches := fun d hd => h.dispatches d (List.mem_of_mem_erase hd) }
  | recoverySelect => exact h.recoverySelect hn
  | recoveryEnqueue ids ok => exact h.recoveryEnqueue hn
  | cleanupSelect startedAt =>
    simp only [outboxNext] at hn
    split_ifs at hn
    obtain rfl := Option.some.inj hn
    exact { h with }
  | cleanupDelete ids =>
    simp only [outboxNext] at hn
    split_ifs at hn
    obtain rfl := Option.some.inj hn
    exact { h with rows := fun m hm => h.rows m (mem_deleteMessages.mp hm).1 }
  | redisLoss =>
    obtain rfl := Option.some.inj hn
    exact { h with queue := by simp }

theorem Stranded.run (h : Stranded S s i) {ls : List OutboxLabel}
    (hr : (outboxSystem S).run s ls = some t) : Stranded S t i := by
  have hreach : (outboxSystem S).ReachesBy (fun _ => True) s t := ⟨ls, fun _ _ => trivial, hr⟩
  exact hreach.invariant (P := fun s => Stranded S s i) (fun _ _ _ hs _ hn => hs.next hn) h

end Stranded

/-! ## The outbox with the CRM -/

section Delivery

variable {s t : DeliveryState}

/-- The CRM only watches: the runs of the outbox with it are the runs of the outbox. -/
theorem run_outbox (S : Settings) (s : DeliveryState) (ls : List OutboxLabel) :
    ((deliverySystem S).run s ls).map DeliveryState.outbox =
      (outboxSystem S).run s.outbox ls := by
  refine System.run_map (I := fun _ => True) (fun _ _ _ _ _ => trivial) (fun s l _ => ?_) trivial ls
  show ((outboxNext S s.outbox l).map _).map _ = _
  rw [Option.map_map]
  exact Option.map_id'

theorem exists_run_of_outbox {o : OutboxState} {ls : List OutboxLabel}
    (hr : (outboxSystem S).run s.outbox ls = some o) :
    ∃ t, (deliverySystem S).run s ls = some t ∧ t.outbox = o := by
  rw [← run_outbox, Option.map_eq_some_iff] at hr
  exact hr

/-- **Which rows can still be delivered**: an undelivered row can be posted, acknowledged and marked
by some continuation of the run exactly if a job holds it, a scan that runs now may find it, or a
scan has selected it already. All others are lost, whatever happens.

**Proof sketch.** A job that holds the row can hand it on until it is marked, and a scan finds it
after as many turns as there are rows before it. For the other direction, no step gives a stranded
row to a job, for time only takes rows out of the window, and new rows have new ids. -/
theorem deliverable_iff (hS : S.crmPushEnabled) (hs : (deliverySystem S).Reachable s) {m : Message}
    (hm : m ∈ s.outbox.messages) (hp : m.pushedAt = none) :
    (∃ ls t, (deliverySystem S).run s ls = some t ∧
      ∃ r ∈ t.outbox.messages, r.id = m.id ∧ r.pushedAt ≠ none ∧ Acknowledged t r) ↔
    InFlight s.outbox m.id ∨ Recoverable S s.outbox.now m ∨
      ∃ ids ∈ s.outbox.recoveries, m.id ∈ ids := by
  have hsound := sound_of_reachable hs
  constructor
  · rintro ⟨ls, t, hr, r, hrt, hid, hmarked, -⟩
    by_contra hlost
    rw [not_or, not_or] at hlost
    obtain ⟨hfly, hrec, hselected⟩ := hlost
    have hstranded : Stranded S s.outbox m.id :=
      { drawn := hsound.id_lt m hm
        rows := fun m' hm' hid => by
          obtain rfl := List.inj_on_of_nodup_map hsound.keyed hm' hm hid
          exact ⟨hp, hrec⟩
        queue := fun hi => hfly (Or.inl hi)
        syncs := fun ids hids hi => hfly (Or.inr (Or.inl ⟨ids, hids, hi⟩))
        dispatches := fun d hd hi => hfly (Or.inr (Or.inr ⟨d, hd, hi⟩))
        recoveries := fun ids hids hi => hselected ⟨ids, hids, hi⟩ }
    have hrun : (outboxSystem S).run s.outbox ls = some t.outbox := by
      rw [← run_outbox, hr, Option.map_some]
    exact hmarked ((hstranded.run hrun).rows r hrt hid).1
  · intro h
    have hi : m.id ∈ s.outbox.messages.map Message.id := List.mem_map_of_mem hm
    obtain ⟨o, marked, ho, hmem⟩ : ∃ o marked, Served S s.outbox o marked ∧ m.id ∈ marked := by
      rcases h with hfly | hrec | ⟨ids, hids, hmem⟩
      · exact serve_inFlight hS hi hfly
      · exact serve_recoverable hm hp hrec
      · obtain ⟨o, marked, ho, hmarked⟩ := serve_selected hids
        exact ⟨o, marked, ho, hmarked m.id hi hmem⟩
    obtain ⟨ls, -, hr⟩ := ho.run
    obtain ⟨t, ht, rfl⟩ := exists_run_of_outbox hr
    have hr : { m with pushedAt := some s.outbox.now } ∈ t.outbox.messages := by
      rw [ho.messages]
      exact List.mem_map.mpr ⟨m, hm, if_pos ⟨hmem, hp⟩⟩
    refine ⟨ls, t, ht, _, hr, rfl, by simp, ?_⟩
    exact (sound_of_reachable (System.Reachable.run hs ht)).acknowledged hr (by simp)

/-- **A complete outbox can be emptied.** From every state of every run in which the outbox is
complete, the jobs can mark every row by their own steps, while time does not pass and nothing
fails; no row is deleted for it, and the CRM has acknowledged every one of them.

**Proof sketch.** Induction on the number of undelivered rows. One of them is delivered, and none of
the steps for it loses another row, so that the outbox is still complete. -/
theorem outbox_can_empty (hS : S.crmPushEnabled) (hs : (deliverySystem S).Reachable s)
    (hcomplete : OutboxComplete S s.outbox) :
    ∃ ls t, (∀ l ∈ ls, Serving l) ∧ (deliverySystem S).run s ls = some t ∧
      t.outbox.messages.map Message.id = s.outbox.messages.map Message.id ∧
      ∀ r ∈ t.outbox.messages, r.pushedAt ≠ none ∧ Acknowledged t r := by
  have hempty : ∀ n (o : OutboxState), countPending o.messages = n → OutboxComplete S o →
      ∃ o' marked, Served S o o' marked ∧ ∀ r ∈ o'.messages, r.pushedAt ≠ none := by
    intro n
    induction n using Nat.strong_induction_on with
    | _ n ih =>
      intro o hcount hcomplete
      subst hcount
      by_cases hall : ∀ r ∈ o.messages, r.pushedAt ≠ none
      · exact ⟨o, [], .refl S o, hall⟩
      · obtain ⟨m, hm, hp⟩ : ∃ m ∈ o.messages, m.pushedAt = none := by simpa using hall
        obtain ⟨o', marked, ho, hmem⟩ : ∃ o' marked, Served S o o' marked ∧ m.id ∈ marked := by
          rcases hcomplete m hm hp with hfly | hrec
          · exact serve_inFlight hS (List.mem_map_of_mem hm) hfly
          · exact serve_recoverable hm hp hrec
        have hfewer : countPending o'.messages < countPending o.messages := by
          rw [ho.messages]
          exact countPending_markPushed_lt hm hp hmem
        have hcomplete' : OutboxComplete S o' := by
          refine ho.run.invariant (P := OutboxComplete S) (fun s l s' hs hl hn => ?_) hcomplete
          exact (outboxComplete_next_iff hS hs hn).mpr (losesNoRow_of_serving hl)
        obtain ⟨o'', marked', ho', hmarked⟩ := ih _ hfewer o' rfl hcomplete'
        exact ⟨o'', _, ho.trans ho', hmarked⟩
  obtain ⟨o, marked, ho, hmarked⟩ := hempty _ s.outbox rfl hcomplete
  obtain ⟨ls, hls, hr⟩ := ho.run
  obtain ⟨t, ht, rfl⟩ := exists_run_of_outbox hr
  have hsound := sound_of_reachable (System.Reachable.run hs ht)
  refine ⟨ls, t, hls, ht, ho.map_id, fun r hr => ?_⟩
  exact ⟨hmarked r hr, hsound.acknowledged hr (hmarked r hr)⟩

end Delivery

/-- The runs from the empty database. -/
theorem reachable_of_run {ls : List OutboxLabel} {s : DeliveryState}
    (hr : (deliverySystem oneHourWindow).run { outbox := emptyOutbox } ls = some s) :
    (deliverySystem oneHourWindow).Reachable s := by
  have hinit : (deliverySystem oneHourWindow).init { outbox := emptyOutbox } :=
    ⟨List.nodup_nil, fun m hm => (by cases hm), rfl, rfl⟩
  exact System.Reachable.run (.init hinit) hr

/-- The process dies between the commit and the enqueue. The row can still be delivered; two hours
later it cannot. -/
theorem deliverable_iff_crashed :
    ∃ s, (deliverySystem oneHourWindow).run { outbox := emptyOutbox }
        [oneCommit, .syncCrash [1]] = some s ∧
      ∃ t, (deliverySystem oneHourWindow).run { outbox := emptyOutbox }
        [oneCommit, .syncCrash [1], .tick 7200000000] = some t ∧
      (∃ ls u, (deliverySystem oneHourWindow).run s ls = some u ∧
        ∃ r ∈ u.outbox.messages, r.id = 1 ∧ r.pushedAt ≠ none ∧ Acknowledged u r) ∧
      ¬ ∃ ls u, (deliverySystem oneHourWindow).run t ls = some u ∧
        ∃ r ∈ u.outbox.messages, r.id = 1 ∧ r.pushedAt ≠ none ∧ Acknowledged u r := by
  obtain ⟨s, hs, m, hm, hp, hid, hrec⟩ :
      ∃ s, (deliverySystem oneHourWindow).run { outbox := emptyOutbox }
          [oneCommit, .syncCrash [1]] = some s ∧
        ∃ m ∈ s.outbox.messages, m.pushedAt = none ∧ m.id = 1 ∧
          Recoverable oneHourWindow s.outbox.now m :=
    ⟨_, rfl, by decide⟩
  obtain ⟨t, ht, m', hm', hp', hid', hlost⟩ :
      ∃ t, (deliverySystem oneHourWindow).run { outbox := emptyOutbox }
          [oneCommit, .syncCrash [1], .tick 7200000000] = some t ∧
        ∃ m ∈ t.outbox.messages, m.pushedAt = none ∧ m.id = 1 ∧
          ¬ (InFlight t.outbox m.id ∨ Recoverable oneHourWindow t.outbox.now m ∨
            ∃ ids ∈ t.outbox.recoveries, m.id ∈ ids) :=
    ⟨_, rfl, by decide⟩
  refine ⟨s, hs, t, ht, ?_, ?_⟩
  · have hiff := deliverable_iff (by decide) (reachable_of_run hs) hm hp
    rw [hid] at hiff
    exact hiff.mpr (Or.inr (Or.inl hrec))
  · have hiff := deliverable_iff (by decide) (reachable_of_run ht) hm' hp'
    rw [← hid', hiff]
    exact hlost

/-- The row of the process that has died is delivered by a scan. -/
theorem outbox_can_empty_crashed :
    ∃ s, (deliverySystem oneHourWindow).run { outbox := emptyOutbox }
        [oneCommit, .syncCrash [1]] = some s ∧
      ∃ ls t, (∀ l ∈ ls, Serving l) ∧ (deliverySystem oneHourWindow).run s ls = some t ∧
        t.outbox.messages.map Message.id = s.outbox.messages.map Message.id ∧
        ∀ r ∈ t.outbox.messages, r.pushedAt ≠ none ∧ Acknowledged t r := by
  obtain ⟨s, hs, hcomplete⟩ :
      ∃ s, (deliverySystem oneHourWindow).run { outbox := emptyOutbox }
          [oneCommit, .syncCrash [1]] = some s ∧ OutboxComplete oneHourWindow s.outbox :=
    ⟨_, rfl, by decide⟩
  exact ⟨s, hs, outbox_can_empty (by decide) (reachable_of_run hs) hcomplete⟩

end CrmPush

end MailAggregator
