import MailAggregator.CrmPush.Outbox

set_option relaxedAutoImplicit false
set_option autoImplicit false

/-!
# Which steps lose a row of the outbox

The list is popped without an acknowledgement, and the recovery scan looks back for a limited
time. So a row can only be lost by a failure that hits it after that time, or by the time itself.

## Main definitions

* `MailAggregator.CrmPush.LosesNoRow` — the condition on a step.

## Main results

* `MailAggregator.CrmPush.outboxComplete_next_iff` — a step keeps the outbox complete exactly when
  it meets the condition.
* `MailAggregator.CrmPush.outboxComplete_along_iff` — so does a run.
* `MailAggregator.CrmPush.stranded_row` — a run that strands a row.
-/

namespace MailAggregator

open MessagesRepo SyncStore Transition

namespace CrmPush

variable (S : Settings)

/-- The ids are in flight in `t`, or their undelivered rows are recoverable. -/
def Spared (s t : OutboxState) (messageIds : List ℕ) : Prop :=
  ∀ m ∈ s.messages, m.pushedAt = none → m.id ∈ messageIds →
    InFlight t m.id ∨ Recoverable S s.now m

instance (s t : OutboxState) (messageIds : List ℕ) : Decidable (Spared S s t messageIds) :=
  inferInstanceAs (Decidable (∀ m ∈ s.messages, m.pushedAt = none → m.id ∈ messageIds →
    InFlight t m.id ∨ Recoverable S s.now m))

/-- **The condition on a step.** An undelivered row that time takes out of the recovery window is
in flight. And a crash, a failed command or the loss of the list hits no undelivered row that is
out of the window and not in flight elsewhere. -/
def LosesNoRow (s : OutboxState) : OutboxLabel → Prop
  | .tick d => ∀ m ∈ s.messages, m.pushedAt = none →
      Recoverable S s.now m → ¬ Recoverable S (s.now + d) m → InFlight s m.id
  | .syncEnqueue ids false | .syncCrash ids =>
    Spared S s { s with syncs := s.syncs.erase ids } ids
  | .requeue ids false =>
    Spared S s { s with dispatches := s.dispatches.erase (.rejected ids) } ids
  | .dispatchCrash d => Spared S s { s with dispatches := s.dispatches.erase d } d.messageIds
  | .redisLoss => Spared S s { s with queue := [] } s.queue
  | _ => True

instance (s : OutboxState) (l : OutboxLabel) : Decidable (LosesNoRow S s l) :=
  match l with
  | .tick d => inferInstanceAs (Decidable (∀ m ∈ s.messages, m.pushedAt = none →
      Recoverable S s.now m → ¬ Recoverable S (s.now + d) m → InFlight s m.id))
  | .syncEnqueue ids false | .syncCrash ids =>
    inferInstanceAs (Decidable (Spared S s { s with syncs := s.syncs.erase ids } ids))
  | .requeue ids false =>
    inferInstanceAs (Decidable
      (Spared S s { s with dispatches := s.dispatches.erase (.rejected ids) } ids))
  | .dispatchCrash d =>
    inferInstanceAs (Decidable
      (Spared S s { s with dispatches := s.dispatches.erase d } d.messageIds))
  | .redisLoss => inferInstanceAs (Decidable (Spared S s { s with queue := [] } s.queue))
  | .syncEnqueue _ true | .requeue _ true | .syncCommit _ _ | .pop | .post _ _ | .mark _
  | .recoverySelect | .recoveryEnqueue _ _ | .cleanupSelect _ | .cleanupDelete _ =>
    inferInstanceAs (Decidable True)

/-! ## What is in flight after a step -/

section InFlight

variable {S} {s t : OutboxState} {i : ℕ}

/-- Without one of the syncs, the ids that it does not hold are still in flight. -/
theorem InFlight.eraseSync {ids : List ℕ} (h : InFlight s i) (queue : List ℕ) (hi : i ∉ ids)
    (hqueue : s.queue ⊆ queue) :
    InFlight { s with syncs := s.syncs.erase ids, queue := queue } i := by
  rcases h with hq | ⟨ids', hids', hi'⟩ | hd
  · exact Or.inl (hqueue hq)
  · have hne : ids' ≠ ids := fun heq => hi (heq ▸ hi')
    exact Or.inr (Or.inl ⟨ids', (List.mem_erase_of_ne hne).mpr hids', hi'⟩)
  · exact Or.inr (Or.inr hd)

/-- Without one of the dispatches, the ids that it does not hold are still in flight. -/
theorem InFlight.eraseDispatch {d : Dispatch} (h : InFlight s i) (queue : List ℕ)
    (messages : List Message) (hi : i ∉ d.messageIds) (hqueue : s.queue ⊆ queue) :
    InFlight
      { s with dispatches := s.dispatches.erase d, queue := queue, messages := messages } i := by
  rcases h with hq | hs | ⟨d', hd', hi'⟩
  · exact Or.inl (hqueue hq)
  · exact Or.inr (Or.inl hs)
  · have hne : d' ≠ d := fun heq => hi (heq ▸ hi')
    exact Or.inr (Or.inr ⟨d', (List.mem_erase_of_ne hne).mpr hd', hi'⟩)

/-- Ids that are put on the list are in flight. -/
theorem mem_enqueuePushIds {queue ids : List ℕ} (hi : i ∈ ids) : i ∈ enqueuePushIds queue ids :=
  List.mem_append_left _ (List.mem_reverse.mpr hi)

theorem subset_enqueuePushIds (queue ids : List ℕ) : queue ⊆ enqueuePushIds queue ids :=
  List.subset_append_right _ _

/-- A step that keeps the rows it leaves undelivered in flight, or adds rows that are, keeps the
outbox complete. -/
theorem OutboxComplete.next_of_inFlight (h : OutboxComplete S s) (hnow : t.now = s.now)
    (hrows : ∀ m ∈ t.messages, m.pushedAt = none →
      InFlight t m.id ∨ m ∈ s.messages ∧ (InFlight s m.id → InFlight t m.id)) :
    OutboxComplete S t := by
  intro m hm hp
  rcases hrows m hm hp with hfly | ⟨hold, hkeep⟩
  · exact Or.inl hfly
  · rw [hnow]
    exact (h m hold hp).imp_left hkeep

/-- A step that takes some ids out of flight keeps the outbox complete exactly when it spares
them. -/
theorem OutboxComplete.next_iff_spared {ids : List ℕ} (h : OutboxComplete S s)
    (hnow : t.now = s.now) (hrows : t.messages = s.messages)
    (hkeep : ∀ i, i ∉ ids → InFlight s i → InFlight t i) :
    OutboxComplete S t ↔ Spared S s t ids := by
  constructor
  · intro ht m hm hp _
    rw [← hnow]
    exact ht m (hrows ▸ hm) hp
  · intro hspared m hm hp
    rw [hrows] at hm
    rw [hnow]
    by_cases hi : m.id ∈ ids
    · exact hspared m hm hp hi
    · exact (h m hm hp).imp_left (hkeep m.id hi)

/-- A step that hands ids over to the list keeps the outbox complete. -/
theorem OutboxComplete.next_of_enqueued {ids queue : List ℕ} (h : OutboxComplete S s)
    (hnow : t.now = s.now) (hrows : t.messages = s.messages)
    (hqueue : t.queue = enqueuePushIds queue ids)
    (hkeep : ∀ i, i ∉ ids → InFlight s i → InFlight t i) : OutboxComplete S t := by
  refine h.next_of_inFlight hnow fun m hm _ => Or.inr ⟨hrows ▸ hm, fun hfly => ?_⟩
  by_cases hi : m.id ∈ ids
  · refine Or.inl ?_
    rw [hqueue]
    exact mem_enqueuePushIds hi
  · exact hkeep m.id hi hfly

end InFlight

/-! ## The steps that lose nothing -/

section Steps

variable {S} {s t : OutboxState}

/-- The rows a sync commits are held by it. -/
theorem OutboxComplete.syncCommit (h : OutboxComplete S s) {startedAt : Instant}
    {values : List MessageValues} {ins : Inserts} {e : Option DataError}
    (hins : insertMessages startedAt { rows := s.messages, nextId := s.nextMessageId } values =
      (ins, e)) :
    OutboxComplete S { s with
      messages := ins.rows
      nextMessageId := ins.nextId
      syncs := ins.crmPushIds :: s.syncs } := by
  have hpush := (insertMessages_pushIds startedAt values
    { rows := s.messages, nextId := s.nextMessageId }).2
  rw [hins] at hpush
  refine h.next_of_inFlight rfl fun m hm _ => ?_
  rcases hpush m hm with hold | hnew
  · exact Or.inr ⟨hold, fun hfly => hfly.imp_right fun hfly =>
      hfly.imp_left fun ⟨ids, hids, hi⟩ => ⟨ids, List.mem_cons_of_mem _ hids, hi⟩⟩
  · exact Or.inl (Or.inr (Or.inl ⟨_, List.mem_cons_self, hnew⟩))

/-- A pop moves ids from the list to a dispatch. -/
theorem OutboxComplete.pop (h : OutboxComplete S s) (n : ℕ) :
    OutboxComplete S { s with
      queue := s.queue.drop n
      dispatches := .popped (s.queue.take n) :: s.dispatches } := by
  refine h.next_of_inFlight rfl fun m hm _ => Or.inr ⟨hm, fun hfly => ?_⟩
  rcases hfly with hq | hs | ⟨d, hd, hi⟩
  · rw [← List.take_append_drop n s.queue, List.mem_append] at hq
    rcases hq with htake | hdrop
    · exact Or.inr (Or.inr ⟨_, List.mem_cons_self, htake⟩)
    · exact Or.inl hdrop
  · exact Or.inr (Or.inl hs)
  · exact Or.inr (Or.inr ⟨d, List.mem_cons_of_mem _ hd, hi⟩)

/-- A dispatch goes on with ids that include those of the rows it has loaded. -/
theorem OutboxComplete.post (h : OutboxComplete S s) {ids : List ℕ} {rest : List Dispatch}
    (hrest : ∀ m ∈ listForCrmPush s.messages ids, ∃ d ∈ rest, m.id ∈ d.messageIds)
    (hkept : s.dispatches.erase (.popped ids) ⊆ rest) :
    OutboxComplete S { s with dispatches := rest } := by
  refine h.next_of_inFlight rfl fun m hm _ => Or.inr ⟨hm, fun hfly => ?_⟩
  by_cases hi : m.id ∈ ids
  · have hloaded : m ∈ listForCrmPush s.messages ids := mem_listForCrmPush.mpr ⟨hm, hi⟩
    exact Or.inr (Or.inr (hrest m hloaded))
  · have herased :=
      hfly.eraseDispatch (d := .popped ids) s.queue s.messages hi (List.Subset.refl _)
    exact herased.imp_right fun hfly => hfly.imp_right fun ⟨d, hd, hid⟩ => ⟨d, hkept hd, hid⟩

/-- A mark takes out of flight only rows that it delivers. -/
theorem OutboxComplete.mark (h : OutboxComplete S s) (ids : List ℕ) :
    OutboxComplete S { s with
      messages := markPushed s.messages ids s.now
      dispatches := s.dispatches.erase (.accepted ids) } := by
  refine h.next_of_inFlight rfl fun m hm hp => Or.inr ?_
  obtain ⟨m', hm', rfl⟩ := List.mem_map.mp hm
  split_ifs at hp ⊢ with hpushed
  refine ⟨hm', fun hfly => ?_⟩
  have hi : m'.id ∉ ids := fun hi => hpushed ⟨hi, hp⟩
  exact hfly.eraseDispatch (d := .accepted ids) _ _ hi (List.Subset.refl _)

/-- Time loses the rows that it takes out of the window and that are not in flight. -/
theorem outboxComplete_tick_iff (h : OutboxComplete S s) (d : ℕ)
    (ht : outboxNext S s (.tick d) = some t) :
    OutboxComplete S t ↔ LosesNoRow S s (.tick d) := by
  obtain rfl := Option.some.inj ht
  constructor
  · intro ht m hm hp _ hout
    exact (ht m hm hp).resolve_right hout
  · intro hl m hm hp
    by_cases hout : Recoverable S (s.now + d) m
    · exact Or.inr hout
    · exact Or.inl ((h m hm hp).elim id fun hin => hl m hm hp hin hout)

/-- A sync puts its ids on the list, or loses them when the command fails. -/
theorem outboxComplete_syncEnqueue_iff (hS : S.crmPushEnabled) (h : OutboxComplete S s)
    {ids : List ℕ} {ok : Bool} (ht : outboxNext S s (.syncEnqueue ids ok) = some t) :
    OutboxComplete S t ↔ LosesNoRow S s (.syncEnqueue ids ok) := by
  simp only [outboxNext] at ht
  by_cases hmem : ids ∈ s.syncs
  · rw [if_pos hmem] at ht
    obtain rfl := Option.some.inj ht
    cases ok with
    | false =>
      simp only [Bool.false_eq_true, and_false, if_false]
      exact h.next_iff_spared rfl rfl fun i hi hfly =>
        hfly.eraseSync s.queue hi (List.Subset.refl _)
    | true =>
      simp only [hS, and_self, if_true]
      refine iff_of_true (h.next_of_enqueued rfl rfl rfl fun i hi hfly => ?_) trivial
      exact hfly.eraseSync _ hi (subset_enqueuePushIds _ _)
  · rw [if_neg hmem] at ht
    cases ht

/-- A dispatch that has posted its rows is done if there were none, and otherwise goes on with their
ids or with all that it has popped. -/
theorem OutboxComplete.posted (h : OutboxComplete S s) {ids : List ℕ} {accepted : Bool}
    (ht : outboxNext S s (.post ids accepted) = some t) : OutboxComplete S t := by
  simp only [outboxNext] at ht
  split_ifs at ht with hd hnil hacc <;> obtain rfl := Option.some.inj ht
  · refine h.post (fun m hm => ?_) (List.Subset.refl _)
    rw [List.map_eq_nil_iff] at hnil
    rw [hnil] at hm
    cases hm
  · exact h.post (fun m hm => ⟨_, List.mem_cons_self, List.mem_map_of_mem hm⟩)
      (List.subset_cons_self _ _)
  · refine h.post (fun m hm => ⟨_, List.mem_cons_self, ?_⟩) (List.subset_cons_self _ _)
    exact (mem_listForCrmPush.mp hm).2

/-- A dispatch that was refused puts its ids back on the list, or loses them when the command
fails. -/
theorem outboxComplete_requeue_iff (h : OutboxComplete S s) {ids : List ℕ} {ok : Bool}
    (ht : outboxNext S s (.requeue ids ok) = some t) :
    OutboxComplete S t ↔ LosesNoRow S s (.requeue ids ok) := by
  simp only [outboxNext] at ht
  by_cases hmem : Dispatch.rejected ids ∈ s.dispatches
  · rw [if_pos hmem] at ht
    obtain rfl := Option.some.inj ht
    cases ok with
    | false =>
      exact h.next_iff_spared rfl rfl fun i hi hfly =>
        hfly.eraseDispatch (d := .rejected ids) s.queue s.messages hi (List.Subset.refl _)
    | true =>
      refine iff_of_true (h.next_of_enqueued rfl rfl rfl fun i hi hfly => ?_) trivial
      exact hfly.eraseDispatch (d := .rejected ids) _ s.messages hi (subset_enqueuePushIds _ _)
  · rw [if_neg hmem] at ht
    cases ht

/-- A recovery only adds to the list, whether its command fails or not. -/
theorem OutboxComplete.recoveryEnqueue (h : OutboxComplete S s) {ids : List ℕ} {ok : Bool}
    (ht : outboxNext S s (.recoveryEnqueue ids ok) = some t) : OutboxComplete S t := by
  simp only [outboxNext] at ht
  by_cases hmem : ids ∈ s.recoveries
  · rw [if_pos hmem] at ht
    obtain rfl := Option.some.inj ht
    refine h.next_of_inFlight rfl fun m hm _ => Or.inr ⟨hm, fun hfly => ?_⟩
    refine hfly.imp_left fun hq => ?_
    cases ok with
    | false => exact hq
    | true => exact subset_enqueuePushIds _ _ hq
  · rw [if_neg hmem] at ht
    cases ht

/-- **A step keeps the outbox complete exactly when it loses no row.**

**Proof sketch.** The steps that can lose a row take ids out of flight (a crash, a failed command,
the loss of the list) or rows out of the window (time); for them the condition says what is left.
Every other step hands its ids on: a commit to the sync, an enqueue and a requeue to the list, a
pop to the dispatch, and a mark takes out of flight only what it delivers. -/
theorem outboxComplete_next_iff (hS : S.crmPushEnabled) {l : OutboxLabel}
    (h : OutboxComplete S s) (ht : outboxNext S s l = some t) :
    OutboxComplete S t ↔ LosesNoRow S s l := by
  cases l with
  | tick d => exact outboxComplete_tick_iff h d ht
  | syncCommit startedAt values =>
    refine iff_of_true ?_ trivial
    simp only [outboxNext] at ht
    split_ifs at ht
    split at ht
    · next ins hins =>
      obtain rfl := Option.some.inj ht
      exact h.syncCommit hins
    · cases ht
  | syncEnqueue ids ok => exact outboxComplete_syncEnqueue_iff hS h ht
  | syncCrash ids =>
    simp only [outboxNext] at ht
    split_ifs at ht
    obtain rfl := Option.some.inj ht
    exact h.next_iff_spared rfl rfl fun i hi hfly =>
      hfly.eraseSync s.queue hi (List.Subset.refl _)
  | pop =>
    simp only [outboxNext] at ht
    split_ifs at ht
    obtain rfl := Option.some.inj ht
    exact iff_of_true (h.pop _) trivial
  | post ids accepted => exact iff_of_true (h.posted ht) trivial
  | mark ids =>
    simp only [outboxNext] at ht
    split_ifs at ht
    obtain rfl := Option.some.inj ht
    exact iff_of_true (h.mark ids) trivial
  | requeue ids ok => exact outboxComplete_requeue_iff h ht
  | dispatchCrash d =>
    simp only [outboxNext] at ht
    split_ifs at ht
    obtain rfl := Option.some.inj ht
    exact h.next_iff_spared rfl rfl fun i hi hfly =>
      hfly.eraseDispatch s.queue s.messages hi (List.Subset.refl _)
  | recoverySelect =>
    obtain rfl := Option.some.inj ht
    exact iff_of_true h trivial
  | recoveryEnqueue ids ok => exact iff_of_true (h.recoveryEnqueue ht) trivial
  | cleanupSelect startedAt =>
    simp only [outboxNext] at ht
    split_ifs at ht
    obtain rfl := Option.some.inj ht
    exact iff_of_true h trivial
  | cleanupDelete ids =>
    simp only [outboxNext] at ht
    split_ifs at ht
    obtain rfl := Option.some.inj ht
    exact iff_of_true (fun m hm hp => h m (mem_deleteMessages.mp hm).1 hp) trivial
  | redisLoss =>
    obtain rfl := Option.some.inj ht
    exact h.next_iff_spared rfl rfl fun i hi hfly => hfly.imp_left fun hq => absurd hq hi

/-- **A run keeps the outbox complete exactly when each of its steps loses no row.** -/
theorem outboxComplete_along_iff (hS : S.crmPushEnabled) {ls : List OutboxLabel}
    (hinit : (outboxSystem S).init s) (hrun : (outboxSystem S).run s ls = some t) :
    (outboxSystem S).Along (OutboxComplete S) s ls ↔
      (outboxSystem S).Meets (LosesNoRow S) s ls :=
  System.along_iff_meets (I := fun _ => True) (fun _ _ _ _ _ => trivial)
    (fun _ _ _ _ h ht => outboxComplete_next_iff hS h ht) trivial hinit hrun

end Steps

/-! ## Runs -/

/-- An accepted configuration in which the recovery scan looks back for one hour. -/
def oneHourWindow : Settings :=
  { Settings.defaults with
    crmIngestUrl := "https://crm.example.com".toList
    crmPushSecret := "secret".toList
    crmPushRecoveryWindowHours := 1
    crmPushRecoveryWindowHours_within := by decide }

/-- The outbox of an empty database. -/
def emptyOutbox : OutboxState where
  now := 0
  accounts := [{ id := 1, userId := 1, email := "a@example.com".toList }]
  messages := []
  nextMessageId := 1

/-- A sync that commits one message. -/
def oneCommit : OutboxLabel := .syncCommit 0 [{ mailAccountId := 1, uid := 1, uidvalidity := 1 }]

/-- A message that is delivered in time: the run loses no row, and its outbox stays complete. -/
theorem outboxComplete_delivered :
    (outboxSystem oneHourWindow).Along (OutboxComplete oneHourWindow) emptyOutbox
      [oneCommit, .syncEnqueue [1] true, .pop, .post [1] true, .mark [1], .tick 7200000000] := by
  obtain ⟨t, hrun⟩ : ∃ t, (outboxSystem oneHourWindow).run emptyOutbox
      [oneCommit, .syncEnqueue [1] true, .pop, .post [1] true, .mark [1], .tick 7200000000] =
        some t := ⟨_, rfl⟩
  have hinit : (outboxSystem oneHourWindow).init emptyOutbox := by
    intro m hm
    cases hm
  refine (outboxComplete_along_iff (by decide) hinit hrun).mpr ?_
  refine ⟨trivial, fun s hs => ?_⟩
  obtain rfl := Option.some.inj hs
  refine ⟨trivial, fun s hs => ?_⟩
  obtain rfl := Option.some.inj hs
  refine ⟨trivial, fun s hs => ?_⟩
  obtain rfl := Option.some.inj hs
  refine ⟨trivial, fun s hs => ?_⟩
  obtain rfl := Option.some.inj hs
  refine ⟨trivial, fun s hs => ?_⟩
  obtain rfl := Option.some.inj hs
  exact ⟨by decide, fun _ _ => trivial⟩

/-- **A stranded row.** The process dies between the commit and the enqueue, and is down for two
hours: the row stays stored for weeks, and no scan selects it any more. -/
theorem stranded_row :
    ¬ ∀ S : Settings, S.crmPushEnabled → ∀ s, (outboxSystem S).Reachable s →
      OutboxComplete S s := by
  intro h
  obtain ⟨s, hrun, hlost⟩ :
      ∃ s, (outboxSystem oneHourWindow).run emptyOutbox
          [oneCommit, .syncCrash [1], .tick 7200000000] = some s ∧
        ¬ OutboxComplete oneHourWindow s := ⟨_, rfl, by decide⟩
  have hinit : (outboxSystem oneHourWindow).init emptyOutbox := by
    intro m hm
    cases hm
  have hreach := System.Reachable.run (.init hinit) hrun
  exact hlost (h oneHourWindow (by decide) s hreach)

end CrmPush

end MailAggregator
