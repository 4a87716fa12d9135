import MailAggregator.CrmPush.Delivery

set_option relaxedAutoImplicit false
set_option autoImplicit false

/-!
# What a delivery mark says

A row is marked only with the rows of its POST, after the CRM has answered 2xx to it. So whatever
the jobs do in between, a mark is backed by an acknowledged payload that contains the row, and it
stays as it is for as long as the row exists.

## Main definitions

* `MailAggregator.CrmPush.messageToIngest` — a row in the payload of a POST.
* `MailAggregator.CrmPush.DeliveryState` — the outbox, with the POSTs that the CRM acknowledged.
* `MailAggregator.CrmPush.deliverySystem` — the jobs of the outbox over these states.
* `MailAggregator.CrmPush.Sound` — the invariant of the marks.

## Main results

* `MailAggregator.CrmPush.messages_next`, `MailAggregator.CrmPush.accepted_next` — what a step does
  to the rows, and to the dispatches that mark rows.
* `MailAggregator.CrmPush.sound_next` — a step keeps the invariant.
* `MailAggregator.CrmPush.deliveryMark_sound_stable` — marks are backed and final.
-/

namespace MailAggregator

open PyText MessagesRepo SyncStore Transition

namespace CrmPush

/-! ## The payload -/

/-- A `MailIngestMessage`. -/
structure IngestMessage where
  mailAccountId : ℕ
  uidvalidity : ℕ
  uid : ℕ
  messageIdHeader : Option Text
  subject : Option Text
  fromAddr : Text
  fromName : Option Text
  toAddrs : Text
  ccAddrs : Option Text
  internalDate : Instant
  bodyText : Text
  bodyHtml : Option Text
  inReplyTo : Option Text
  refsHeader : Option Text
  deriving DecidableEq, Repr

/-- `_message_to_ingest`. -/
def messageToIngest (m : Message) : IngestMessage where
  mailAccountId := m.mailAccountId
  uidvalidity := m.uidvalidity
  uid := m.uid
  messageIdHeader := m.messageIdHeader
  subject := m.subject
  fromAddr := m.fromAddr
  fromName := m.fromName
  toAddrs := m.toAddrs
  ccAddrs := m.ccAddrs
  internalDate := m.internalDate
  bodyText := m.bodyText
  bodyHtml := m.bodyHtml
  inReplyTo := m.inReplyTo
  refsHeader := m.refsHeader

/-- The `messages` of the body of a POST. -/
def ingestBody (rows : List Message) : List IngestMessage := rows.map messageToIngest

/-- The payload of a row consists of inserted values. -/
theorem messageToIngest_congr {m r : Message} (h : m.toMessageValues = r.toMessageValues) :
    messageToIngest m = messageToIngest r := by
  simp only [messageToIngest, h]

/-! ## The system -/

/-- The outbox, with what the CRM knows of it. -/
structure DeliveryState where
  outbox : OutboxState
  /-- The rows of the POSTs that the CRM answered 2xx to, as they were loaded. -/
  acknowledged : List (List Message) := []

section System

variable (S : Settings)

/-- The POST of a step that the CRM answers 2xx to, if the step is one. -/
def acknowledgedBy (s : OutboxState) : OutboxLabel → List (List Message)
  | .post ids true =>
    let rows := listForCrmPush s.messages ids
    if rows = [] then [] else [rows]
  | _ => []

/-- A step of the outbox; the CRM keeps what it acknowledges. -/
def deliveryNext (s : DeliveryState) (l : OutboxLabel) : Option DeliveryState :=
  (outboxNext S s.outbox l).map fun outbox =>
    { outbox, acknowledged := acknowledgedBy s.outbox l ++ s.acknowledged }

/-- The jobs, from any tables with primary keys and without marks, while no dispatch is running. -/
def deliverySystem : System DeliveryState OutboxLabel where
  init s := (s.outbox.messages.map Message.id).Nodup ∧
    (∀ m ∈ s.outbox.messages, m.id < s.outbox.nextMessageId ∧ m.pushedAt = none) ∧
    s.outbox.dispatches = [] ∧ s.acknowledged = []
  next := deliveryNext S

end System

/-- The CRM has acknowledged a POST whose payload contained the row. -/
def Acknowledged (s : DeliveryState) (m : Message) : Prop :=
  ∃ rows ∈ s.acknowledged, (∃ r ∈ rows, r.id = m.id) ∧ messageToIngest m ∈ ingestBody rows

/-! ## What a step does -/

section Steps

variable {S : Settings}

/-- Rows that an insert adds: undelivered, and with ids from an interval, in increasing order. -/
structure FreshRows (lo hi : ℕ) (rows : List Message) : Prop where
  le : lo ≤ hi
  sorted : rows.Pairwise fun a b => a.id < b.id
  fresh : ∀ m ∈ rows, lo ≤ m.id ∧ m.id < hi ∧ m.pushedAt = none

/-- **What the loop over a batch adds.**

**Proof sketch.** Induction on the batch. An insert draws the next id whether or not it adds a row;
the rows of the later inserts have larger ids. -/
theorem insertMessages_rows (now : Instant) (vs : List MessageValues) :
    ∀ t : Inserts, ∃ added, (insertMessages now t vs).1.rows = t.rows ++ added ∧
      FreshRows t.nextId (insertMessages now t vs).1.nextId added := by
  induction vs with
  | nil => exact fun t => ⟨[], (List.append_nil _).symm, le_rfl, .nil, by simp⟩
  | cons v vs ih =>
    intro t
    unfold insertMessages
    cases hins : insertMessageIdempotent t.rows t.nextId now v with
    | error e => exact ⟨[], (List.append_nil _).symm, le_rfl, .nil, by simp⟩
    | ok r =>
      obtain ⟨added, hrows, hfresh⟩ := ih (t.add r)
      rcases (insertMessageIdempotent_eq_ok hins).2 with ⟨-, rfl⟩ | ⟨-, rfl⟩
      · have hle : t.nextId ≤ (t.add none).nextId := Nat.le_succ _
        exact ⟨added, hrows, hle.trans hfresh.le, hfresh.sorted, fun m hm =>
          ⟨hle.trans (hfresh.fresh m hm).1, (hfresh.fresh m hm).2⟩⟩
      · set row : Message := { v with id := t.nextId, fetchedAt := now } with hrow
        have hnext : (t.add (some row)).nextId = t.nextId + 1 := rfl
        rw [hnext] at hfresh
        refine ⟨row :: added, ?_, (Nat.le_succ _).trans hfresh.le, ?_, ?_⟩
        · rw [hrows]
          exact List.append_assoc _ _ _
        · exact List.pairwise_cons.mpr
            ⟨fun m hm => Nat.lt_of_succ_le (hfresh.fresh m hm).1, hfresh.sorted⟩
        · intro m hm
          rcases List.mem_cons.mp hm with rfl | hm
          · exact ⟨le_rfl, hfresh.le, rfl⟩
          · have hm := hfresh.fresh m hm
            exact ⟨by omega, hm.2⟩

/-- **What a step does to the rows**: it removes some, adds undelivered ones with fresh ids, or
marks the ones that an accepted dispatch holds.

**Proof sketch.** By cases on the label. A commit appends what its loop has inserted, with ids from
the sequence. A mark changes the rows of an accepted dispatch. The two deletions take rows away, and
all other steps leave the table alone. -/
theorem messages_next {s t : OutboxState} {l : OutboxLabel} (h : outboxNext S s l = some t) :
    (t.messages.Sublist s.messages ∧ t.nextMessageId = s.nextMessageId) ∨
      (∃ added, t.messages = s.messages ++ added ∧
        FreshRows s.nextMessageId t.nextMessageId added) ∨
      ∃ ids, .accepted ids ∈ s.dispatches ∧ t.messages = markPushed s.messages ids s.now ∧
        t.nextMessageId = s.nextMessageId := by
  cases l with
  | syncCommit startedAt values =>
    refine Or.inr (Or.inl ?_)
    have hrows := insertMessages_rows startedAt values
      { rows := s.messages, nextId := s.nextMessageId }
    simp only [outboxNext] at h
    split_ifs at h
    split at h
    · next ins hins =>
      obtain rfl := Option.some.inj h
      rwa [hins] at hrows
    · cases h
  | mark ids =>
    simp only [outboxNext] at h
    split_ifs at h with hd
    obtain rfl := Option.some.inj h
    exact Or.inr (Or.inr ⟨ids, hd, rfl, rfl⟩)
  | cleanupDelete ids =>
    simp only [outboxNext] at h
    split_ifs at h
    obtain rfl := Option.some.inj h
    exact Or.inl ⟨List.filter_sublist, rfl⟩
  | tick | recoverySelect | redisLoss =>
    obtain rfl := Option.some.inj h
    exact Or.inl ⟨List.Sublist.refl _, rfl⟩
  | syncEnqueue | syncCrash | pop | post | requeue | dispatchCrash | recoveryEnqueue
  | cleanupSelect =>
    simp only [outboxNext] at h
    split_ifs at h <;> obtain rfl := Option.some.inj h <;>
      exact Or.inl ⟨List.Sublist.refl _, rfl⟩

/-- **Which dispatches mark rows**: those whose POST the CRM has acknowledged.

**Proof sketch.** Only a POST makes a dispatch accepted, and it does so when the CRM has
acknowledged its rows, which are then the rows of the dispatch. Every other step hands the accepted
dispatches on or takes one away. -/
theorem accepted_next {s t : OutboxState} {l : OutboxLabel} (h : outboxNext S s l = some t)
    {ids : List ℕ} (hids : Dispatch.accepted ids ∈ t.dispatches) :
    Dispatch.accepted ids ∈ s.dispatches ∨
      ∃ rows ∈ acknowledgedBy s l, ids = rows.map Message.id := by
  cases l with
  | post ids' accepted =>
    simp only [outboxNext] at h
    split_ifs at h with hd hnil hacc <;> obtain rfl := Option.some.inj h
    · exact Or.inl (List.mem_of_mem_erase hids)
    · rcases List.mem_cons.mp hids with heq | hids
      · have hne : listForCrmPush s.messages ids' ≠ [] := fun h => hnil (by rw [h]; rfl)
        refine Or.inr ⟨listForCrmPush s.messages ids', ?_, Dispatch.accepted.inj heq⟩
        simp [acknowledgedBy, hacc, hne]
      · exact Or.inl (List.mem_of_mem_erase hids)
    · rcases List.mem_cons.mp hids with heq | hids
      · cases heq
      · exact Or.inl (List.mem_of_mem_erase hids)
  | syncCommit startedAt values =>
    simp only [outboxNext] at h
    split_ifs at h
    split at h
    · obtain rfl := Option.some.inj h
      exact Or.inl hids
    · cases h
  | pop =>
    simp only [outboxNext] at h
    split_ifs at h
    obtain rfl := Option.some.inj h
    rcases List.mem_cons.mp hids with heq | hids
    · cases heq
    · exact Or.inl hids
  | mark | requeue | dispatchCrash =>
    simp only [outboxNext] at h
    split_ifs at h <;> obtain rfl := Option.some.inj h <;>
      exact Or.inl (List.mem_of_mem_erase hids)
  | tick | recoverySelect | redisLoss =>
    obtain rfl := Option.some.inj h
    exact Or.inl hids
  | syncEnqueue | syncCrash | recoveryEnqueue | cleanupSelect | cleanupDelete =>
    simp only [outboxNext] at h
    split_ifs at h <;> obtain rfl := Option.some.inj h <;> exact Or.inl hids

end Steps

/-! ## The invariant -/

section Invariant

variable {S : Settings} {s t : DeliveryState} {l : OutboxLabel}

/-- **The invariant of the marks.** Every mark, and every id that is about to be marked, belongs to
an acknowledged row; and a row that is stored under the id of an acknowledged one has its values. -/
structure Sound (s : DeliveryState) : Prop where
  keyed : (s.outbox.messages.map Message.id).Nodup
  id_lt : ∀ m ∈ s.outbox.messages, m.id < s.outbox.nextMessageId
  acknowledged_lt : ∀ rows ∈ s.acknowledged, ∀ r ∈ rows, r.id < s.outbox.nextMessageId
  acknowledged_values : ∀ rows ∈ s.acknowledged, ∀ r ∈ rows, ∀ m ∈ s.outbox.messages,
    m.id = r.id → m.toMessageValues = r.toMessageValues
  accepted : ∀ ids, Dispatch.accepted ids ∈ s.outbox.dispatches → ∀ i ∈ ids,
    ∃ rows ∈ s.acknowledged, ∃ r ∈ rows, r.id = i
  marked : ∀ m ∈ s.outbox.messages, m.pushedAt ≠ none →
    ∃ rows ∈ s.acknowledged, ∃ r ∈ rows, r.id = m.id

/-- The mark of a row that an acknowledged payload contains is backed. -/
theorem Sound.acknowledged (h : Sound s) {m : Message} (hm : m ∈ s.outbox.messages)
    (hp : m.pushedAt ≠ none) : Acknowledged s m := by
  obtain ⟨rows, hrows, r, hr, hid⟩ := h.marked m hm hp
  have hvalues := h.acknowledged_values rows hrows r hr m hm hid.symm
  refine ⟨rows, hrows, ⟨r, hr, hid⟩, ?_⟩
  rw [messageToIngest_congr hvalues]
  exact List.mem_map_of_mem hr

/-- The rows after a step, by the rows before it: a row with an old id has the old values, and the
old mark if there was one. -/
theorem row_next (hn : outboxNext S s.outbox l = some t.outbox) {m : Message}
    (hm : m ∈ t.outbox.messages) :
    (∃ m' ∈ s.outbox.messages, m'.id = m.id ∧ m'.toMessageValues = m.toMessageValues ∧
      (m'.pushedAt ≠ none → m.pushedAt = m'.pushedAt) ∧
      (m'.pushedAt = none → m.pushedAt ≠ none →
        ∃ ids, Dispatch.accepted ids ∈ s.outbox.dispatches ∧ m.id ∈ ids)) ∨
    (s.outbox.nextMessageId ≤ m.id ∧ m.id < t.outbox.nextMessageId ∧ m.pushedAt = none) := by
  rcases messages_next hn with ⟨hsub, -⟩ | ⟨added, hrows, hfresh⟩ | ⟨ids, hids, hrows, -⟩
  · exact Or.inl ⟨m, hsub.subset hm, rfl, rfl, fun _ => rfl, fun h h' => absurd h h'⟩
  · rw [hrows, List.mem_append] at hm
    rcases hm with hm | hm
    · exact Or.inl ⟨m, hm, rfl, rfl, fun _ => rfl, fun h h' => absurd h h'⟩
    · exact Or.inr (hfresh.fresh m hm)
  · rw [hrows] at hm
    obtain ⟨m', hm', rfl⟩ := List.mem_map.mp hm
    refine Or.inl ⟨m', hm', ?_⟩
    split_ifs with hmark
    · exact ⟨rfl, rfl, fun h => absurd hmark.2 h, fun _ _ => ⟨ids, hids, hmark.1⟩⟩
    · exact ⟨rfl, rfl, fun _ => rfl, fun h h' => absurd h h'⟩

/-- The ids that are drawn only grow. -/
theorem nextMessageId_le (hn : outboxNext S s.outbox l = some t.outbox) :
    s.outbox.nextMessageId ≤ t.outbox.nextMessageId := by
  rcases messages_next hn with ⟨-, heq⟩ | ⟨_, -, hfresh⟩ | ⟨_, -, -, heq⟩
  · exact heq.ge
  · exact hfresh.le
  · exact heq.ge

/-- A step keeps the ids distinct. -/
theorem Sound.keyed_next (h : Sound s) (hn : outboxNext S s.outbox l = some t.outbox) :
    (t.outbox.messages.map Message.id).Nodup := by
  rcases messages_next hn with ⟨hsub, -⟩ | ⟨added, hrows, hfresh⟩ | ⟨ids, -, hrows, -⟩
  · exact h.keyed.sublist (hsub.map _)
  · have hnew : (added.map Message.id).Nodup :=
      List.pairwise_map.mpr (hfresh.sorted.imp fun hlt => ne_of_lt hlt)
    rw [hrows, List.map_append]
    refine h.keyed.append hnew fun i hi hi' => ?_
    obtain ⟨m, hm, rfl⟩ := List.mem_map.mp hi
    obtain ⟨m', hm', hid⟩ := List.mem_map.mp hi'
    have hlt := h.id_lt m hm
    have hle := (hfresh.fresh m' hm').1
    omega
  · rw [hrows, map_id_markPushed]
    exact h.keyed

/-- The rows of a POST are rows of the table. -/
theorem mem_acknowledgedBy {o : OutboxState} {rows : List Message}
    (hrows : rows ∈ acknowledgedBy o l) : ∀ r ∈ rows, r ∈ o.messages := by
  intro r hr
  unfold acknowledgedBy at hrows
  split at hrows
  · dsimp only at hrows
    split_ifs at hrows
    · cases hrows
    · obtain rfl := List.mem_singleton.mp hrows
      exact (mem_listForCrmPush.mp hr).1
  · cases hrows

/-- **A step keeps the marks sound.**

**Proof sketch.** A row of the table after the step is one of the table before it with the same
values, or a new one with a fresh id. What is acknowledged in the step are rows of the table at that
moment. Hence an acknowledged id always belongs to the values that the row has. A row is marked only
by a dispatch that was accepted, and its ids are acknowledged then. -/
theorem sound_next (h : Sound s) (hs : deliveryNext S s l = some t) : Sound t := by
  obtain ⟨outbox, hn, rfl⟩ := Option.map_eq_some_iff.mp hs
  set t : DeliveryState :=
    { outbox, acknowledged := acknowledgedBy s.outbox l ++ s.acknowledged } with ht
  have hnext : outboxNext S s.outbox l = some t.outbox := hn
  have hle := nextMessageId_le hnext
  have hback : ∀ {i : ℕ}, (∃ rows ∈ s.acknowledged, ∃ r ∈ rows, r.id = i) →
      ∃ rows ∈ t.acknowledged, ∃ r ∈ rows, r.id = i := fun ⟨rows, hrows, hr⟩ =>
    ⟨rows, List.mem_append_right _ hrows, hr⟩
  constructor
  case keyed => exact h.keyed_next hnext
  case id_lt =>
    intro m hm
    rcases row_next hnext hm with ⟨m', hm', hid, -⟩ | ⟨-, hlt, -⟩
    · exact hid ▸ (h.id_lt m' hm').trans_le hle
    · exact hlt
  case acknowledged_lt =>
    intro rows hrows r hr
    rcases List.mem_append.mp hrows with hrows | hrows
    · exact (h.id_lt r (mem_acknowledgedBy hrows r hr)).trans_le hle
    · exact (h.acknowledged_lt rows hrows r hr).trans_le hle
  case acknowledged_values =>
    intro rows hrows r hr m hm hid
    rcases List.mem_append.mp hrows with hrows | hrows
    · have hr := mem_acknowledgedBy hrows r hr
      rcases row_next hnext hm with ⟨m', hm', hid', hvalues, -⟩ | ⟨hge, -⟩
      · obtain rfl := List.inj_on_of_nodup_map h.keyed hm' hr (hid'.trans hid)
        exact hvalues.symm
      · have hlt := h.id_lt r hr
        omega
    · rcases row_next hnext hm with ⟨m', hm', hid', hvalues, -⟩ | ⟨hge, -⟩
      · rw [← hvalues]
        exact h.acknowledged_values rows hrows r hr m' hm' (hid'.trans hid)
      · have hlt := h.acknowledged_lt rows hrows r hr
        omega
  case accepted =>
    intro ids hids i hi
    rcases accepted_next hnext hids with hids | ⟨rows, hrows, rfl⟩
    · exact hback (h.accepted ids hids i hi)
    · obtain ⟨r, hr, hid⟩ := List.mem_map.mp hi
      exact ⟨rows, List.mem_append_left _ hrows, r, hr, hid⟩
  case marked =>
    intro m hm hp
    rcases row_next hnext hm with ⟨m', hm', hid, -, -, hmark⟩ | ⟨-, -, hnone⟩
    · by_cases hp' : m'.pushedAt = none
      · obtain ⟨ids, hids, hi⟩ := hmark hp' hp
        exact hback (h.accepted ids hids m.id hi)
      · exact hid ▸ hback (h.marked m' hm' hp')
    · exact absurd hnone hp

/-- Every reachable state is sound. -/
theorem sound_of_reachable (h : (deliverySystem S).Reachable s) : Sound s := by
  refine System.ReachableWhen.invariant (P := Sound) ?_ (fun _ _ _ hs _ hn => sound_next hs hn) h
  rintro s ⟨hkeyed, hrows, hnone, hack⟩
  exact
    { keyed := hkeyed
      id_lt := fun m hm => (hrows m hm).1
      acknowledged_lt := fun rows hr => by rw [hack] at hr; cases hr
      acknowledged_values := fun rows hr => by rw [hack] at hr; cases hr
      accepted := fun ids hids => by rw [hnone] at hids; cases hids
      marked := fun m hm hp => absurd (hrows m hm).2 hp }

/-- **Where the rows of a run come from**: a row with an id that was drawn before the run was there
before it, and keeps its mark.

**Proof sketch.** Induction on the run. Ids are drawn once, so a row that a step leaves under an old
id is one that it found there. -/
theorem row_run {ls : List OutboxLabel} (hrun : (deliverySystem S).run s ls = some t) {m : Message}
    (hm : m ∈ t.outbox.messages) (hold : m.id < s.outbox.nextMessageId) :
    ∃ m' ∈ s.outbox.messages, m'.id = m.id ∧ (m'.pushedAt ≠ none → m.pushedAt = m'.pushedAt) := by
  induction ls generalizing s with
  | nil =>
    obtain rfl := Option.some.inj hrun
    exact ⟨m, hm, rfl, fun _ => rfl⟩
  | cons l ls ih =>
    rw [System.run] at hrun
    cases hs : (deliverySystem S).next s l with
    | none => rw [hs] at hrun; cases hrun
    | some u =>
      rw [hs] at hrun
      obtain ⟨outbox, hn, rfl⟩ := Option.map_eq_some_iff.mp hs
      obtain ⟨u', hu', hid, hkeep⟩ := ih hrun (hold.trans_le (nextMessageId_le hn))
      rcases row_next hn hu' with ⟨m', hm', hid', -, hkeep', -⟩ | ⟨hge, -⟩
      · refine ⟨m', hm', hid'.trans hid, fun hp => ?_⟩
        have hsame := hkeep' hp
        rw [← hsame]
        exact hkeep (hsame ▸ hp)
      · omega

/-- **Delivery marks are backed and final.** In every reachable state a marked row was contained in
the payload of a POST that the CRM answered 2xx to; and in every later state in which the row still
exists, its mark is the same. -/
theorem deliveryMark_sound_stable (h : (deliverySystem S).Reachable s) :
    (∀ m ∈ s.outbox.messages, m.pushedAt ≠ none → Acknowledged s m) ∧
      ∀ ls t, (deliverySystem S).run s ls = some t →
        ∀ m ∈ s.outbox.messages, m.pushedAt ≠ none →
          ∀ m' ∈ t.outbox.messages, m'.id = m.id → m'.pushedAt = m.pushedAt := by
  have hsound := sound_of_reachable h
  refine ⟨fun m hm hp => hsound.acknowledged hm hp, fun ls t hrun m hm hp m' hm' hid => ?_⟩
  obtain ⟨m₀, hm₀, hid₀, hkeep⟩ := row_run hrun hm' (hid ▸ hsound.id_lt m hm)
  obtain rfl := List.inj_on_of_nodup_map hsound.keyed hm₀ hm (hid₀.trans hid)
  exact hkeep hp

end Invariant

/-- A delivery that runs to its end: the row it marks is acknowledged. -/
theorem deliveryMark_delivered :
    ∃ s, (deliverySystem oneHourWindow).run { outbox := emptyOutbox }
        [oneCommit, .syncEnqueue [1] true, .pop, .post [1] true, .mark [1]] = some s ∧
      (∃ m ∈ s.outbox.messages, m.pushedAt ≠ none) ∧
      ∀ m ∈ s.outbox.messages, m.pushedAt ≠ none → Acknowledged s m := by
  obtain ⟨s, hrun, hmarked⟩ : ∃ s, (deliverySystem oneHourWindow).run { outbox := emptyOutbox }
      [oneCommit, .syncEnqueue [1] true, .pop, .post [1] true, .mark [1]] = some s ∧
        ∃ m ∈ s.outbox.messages, m.pushedAt ≠ none := ⟨_, rfl, by decide⟩
  have hinit : (deliverySystem oneHourWindow).init { outbox := emptyOutbox } :=
    ⟨List.nodup_nil, fun m hm => (by cases hm), rfl, rfl⟩
  have hreach := System.Reachable.run (.init hinit) hrun
  exact ⟨s, hrun, hmarked, (deliveryMark_sound_stable hreach).1⟩

end CrmPush

end MailAggregator
