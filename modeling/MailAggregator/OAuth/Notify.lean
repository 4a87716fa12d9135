import MailAggregator.OAuth.OneShot

set_option relaxedAutoImplicit false
set_option autoImplicit false

/-!
# The CRM is notified at most once

After a callback has committed its mailbox it tells the CRM, in a request of its own: other
callbacks go on meanwhile, and the process may die before the request is sent. An attempt that did
not connect is repeated; any other one is the last, because the CRM may have received the body.

## Main definitions

* `MailAggregator.OutlookOAuthService.attemptsMade` — the attempts of `notify_crm_oauth_ingest`.
* `MailAggregator.OutlookOAuthService.notifySystem` — the callbacks, and the requests after them.

## Main results

* `MailAggregator.OutlookOAuthService.notifyAttempts_eq_true_iff` — what the result reports.
* `MailAggregator.OutlookOAuthService.notified_once` — the bodies that the CRM may have received
  are those of different starts.
-/

namespace MailAggregator

open PyText MailAccountsRepo Transition

namespace OutlookOAuthService

/-! ## The attempts -/

/-- The attempts that are made. -/
def attemptsMade : ℕ → List IngestEnd → List IngestEnd
  | 0, _ | _, [] => []
  | n + 1, .connectError :: later => .connectError :: attemptsMade n later
  | _ + 1, e :: _ => [e]

/-- The attempts in which the CRM may have received the body: those that have connected. -/
def bodiesSent (w : CallbackWorld) : List IngestEnd :=
  if w.ingestEnabled then
    (attemptsMade connectRetryAttempts w.ingest).filter (· ≠ .connectError)
  else []

theorem length_filter_attemptsMade_le (n : ℕ) (ends : List IngestEnd) :
    ((attemptsMade n ends).filter (· ≠ .connectError)).length ≤ 1 := by
  induction n generalizing ends with
  | zero => simp [attemptsMade]
  | succ n ih =>
    cases ends with
    | nil => simp [attemptsMade]
    | cons e later =>
      cases e with
      | connectError => simpa [attemptsMade] using ih later
      | otherError => simp [attemptsMade]
      | response status => simp [attemptsMade]

/-- **No body is sent twice.** -/
theorem length_bodiesSent_le (w : CallbackWorld) : (bodiesSent w).length ≤ 1 := by
  rw [bodiesSent]
  split_ifs
  · exact length_filter_attemptsMade_le _ _
  · exact Nat.zero_le 1

/-- **The result reports** a reply with a status of success, to one of the attempts made. -/
theorem notifyAttempts_eq_true_iff (n : ℕ) (ends : List IngestEnd) :
    notifyAttempts n ends = true ↔
      ∃ status, .response status ∈ attemptsMade n ends ∧ 200 ≤ status ∧ status < 300 := by
  induction n generalizing ends with
  | zero => simp [notifyAttempts, attemptsMade]
  | succ n ih =>
    cases ends with
    | nil => simp [notifyAttempts, attemptsMade]
    | cons e later =>
      cases e with
      | connectError => simpa [notifyAttempts, attemptsMade] using ih later
      | otherError => simp [notifyAttempts, attemptsMade]
      | response status => simp [notifyAttempts, attemptsMade]

/-! ## The system -/

/-- The callbacks; those that have committed a mailbox and have not told the CRM yet; and those
whose bodies the CRM may have received, one for each body. -/
structure NotifyState where
  flow : FlowState
  waiting : List PendingCallback
  received : List PendingCallback

/-- The steps. -/
inductive NotifyLabel where
  | flow (a : FlowLabel)
  /-- `notify_crm_oauth_ingest`, of the `j`-th callback that waits. -/
  | notify (j : ℕ) (w : CallbackWorld)
  /-- The process dies before. -/
  | crash (j : ℕ)

variable (dump : OAuthState → Text) (validate : Text → Option OAuthState) (ttl : ℕ)

/-- The state after a step, where it is enabled. -/
def notifyNext (s : NotifyState) : NotifyLabel → Option NotifyState
  | .flow a =>
    match (flowSystem dump validate ttl).next s.flow a with
    | none => none
    | some flow =>
      -- a callback that has written the table goes on to the CRM
      some { s with flow, waiting := s.waiting ++ flow.linked.drop s.flow.linked.length }
  | .notify j w =>
    match s.waiting[j]? with
    | none => none
    | some p =>
      some
        { s with
          waiting := s.waiting.eraseIdx j
          received := s.received ++ (bodiesSent w).map fun _ => p }
  | .crash j =>
    match s.waiting[j]? with
    | none => none
    | some _ => some { s with waiting := s.waiting.eraseIdx j }

/-- The callbacks, and the requests after them. -/
def notifySystem : System NotifyState NotifyLabel where
  init s := (flowSystem dump validate ttl).init s.flow ∧ s.waiting = [] ∧ s.received = []
  next := notifyNext dump validate ttl

/-! ## The numbers of the callbacks -/

/-- What a step does to the callbacks: none, one more that has asked Redis, or the end of one. -/
inductive CallbackStep (s s' : FlowState) : Prop
  | same (hpending : s'.pending = s.pending) (hlinked : s'.linked = s.linked)
    (hcallbacks : s'.callbacks = s.callbacks)
  | ask (p : PendingCallback) (hp : p.callback = s.callbacks)
    (hpending : s'.pending = s.pending ++ [p]) (hlinked : s'.linked = s.linked)
    (hcallbacks : s'.callbacks = s.callbacks + 1)
  | fail (i : ℕ) (hpending : s'.pending = s.pending.eraseIdx i) (hlinked : s'.linked = s.linked)
    (hcallbacks : s'.callbacks = s.callbacks)
  | link (i : ℕ) (p : PendingCallback) (hp : s.pending[i]? = some p)
    (hpending : s'.pending = s.pending.eraseIdx i) (hlinked : s'.linked = s.linked ++ [p])
    (hcallbacks : s'.callbacks = s.callbacks)

variable {dump validate ttl} {s s' : FlowState}

/-- **What a step of the flow does to the callbacks.**

**Proof sketch.** By cases on the label. Only two labels touch the list of the callbacks: the
arrival, which adds one unless the request is answered at once, and the second half, which takes one
away and links it or not. All others keep the list, the links and the count. -/
theorem callbackStep_of_next {a : FlowLabel}
    (hn : (flowSystem dump validate ttl).next s a = some s') : CallbackStep s s' := by
  cases a with
  | tick now =>
    simp only [flowSystem] at hn
    split_ifs at hn
    obtain rfl := Option.some.inj hn
    exact .same rfl rfl rfl
  | mint state payload =>
    obtain rfl := Option.some.inj hn
    exact .same rfl rfl rfl
  | forget key =>
    obtain rfl := Option.some.inj hn
    exact .same rfl rfl rfl
  | corrupt key raw =>
    simp only [flowSystem] at hn
    split at hn
    · cases hn
    · split_ifs at hn
      obtain rfl := Option.some.inj hn
      exact .same rfl rfl rfl
  | callback q w replyLost =>
    obtain rfl := Option.some.inj hn
    unfold arrive
    split_ifs
    · exact .same rfl rfl rfl
    · exact .same rfl rfl rfl
    · exact .same rfl rfl rfl
    · split
      · exact .ask _ rfl rfl rfl rfl
      · exact .same rfl rfl rfl
  | finish i w =>
    simp only [flowSystem] at hn
    cases hp : s.pending[i]? with
    | none => rw [hp] at hn; cases hn
    | some p =>
      simp only [hp] at hn
      split_ifs at hn
      obtain rfl := Option.some.inj hn
      rw [finishStep]
      split
      · exact .link i p hp rfl rfl rfl
      · exact .fail i rfl rfl rfl
  | elsewhere accounts =>
    obtain rfl := Option.some.inj hn
    exact .same rfl rfl rfl

/-- The callbacks that are pending or have written the table have different numbers, which were
given out. -/
structure Numbered (s : FlowState) : Prop where
  nodup : ((s.pending ++ s.linked).map PendingCallback.callback).Nodup
  lt : ∀ p ∈ s.pending ++ s.linked, p.callback < s.callbacks

/-- An element of a list, and the others. -/
theorem perm_of_getElem?_eq_some {α : Type*} {l : List α} {i : ℕ} {a : α} (h : l[i]? = some a) :
    (a :: l.eraseIdx i).Perm l := by
  obtain ⟨hi, rfl⟩ := List.getElem?_eq_some_iff.mp h
  exact List.getElem_cons_eraseIdx_perm hi

/-- A step keeps the numbers of the callbacks distinct.

**Proof sketch.** A callback that asks for the exchange gets the next number, which is larger than
all numbers before; one that fails drops its number, and one that links moves it from the pending to
the linked ones. The list of the numbers stays without repetition in all three cases. -/
theorem Numbered.step (h : Numbered s) (hstep : CallbackStep s s') : Numbered s' := by
  cases hstep with
  | same hpending hlinked hcallbacks =>
    exact ⟨by rw [hpending, hlinked]; exact h.nodup,
      by rw [hpending, hlinked, hcallbacks]; exact h.lt⟩
  | ask p hp hpending hlinked hcallbacks =>
    have hperm : (s'.pending ++ s'.linked).Perm (p :: (s.pending ++ s.linked)) := by
      rw [hpending, hlinked, List.append_assoc]
      exact List.perm_middle
    constructor
    · rw [(hperm.map _).nodup_iff, List.map_cons, List.nodup_cons]
      refine ⟨fun hmem => ?_, h.nodup⟩
      obtain ⟨q, hq, heq⟩ := List.mem_map.mp hmem
      have hlt := h.lt q hq
      omega
    · intro q hq
      rw [hcallbacks]
      rcases List.mem_cons.mp (hperm.mem_iff.mp hq) with rfl | hq
      · omega
      · exact Nat.lt_succ_of_lt (h.lt q hq)
  | fail i hpending hlinked hcallbacks =>
    have hsub : (s'.pending ++ s'.linked).Sublist (s.pending ++ s.linked) := by
      rw [hpending, hlinked]
      exact (List.eraseIdx_sublist _ _).append_right _
    exact ⟨h.nodup.sublist (hsub.map _), fun q hq => hcallbacks ▸ h.lt q (hsub.subset hq)⟩
  | link i p hp hpending hlinked hcallbacks =>
    have hperm : (s'.pending ++ s'.linked).Perm (s.pending ++ s.linked) := by
      rw [hpending, hlinked, ← List.append_assoc]
      refine (List.perm_append_singleton p _).trans ?_
      exact (perm_of_getElem?_eq_some hp).append_right s.linked
    exact ⟨((hperm.map _).nodup_iff).mpr h.nodup,
      fun q hq => hcallbacks ▸ h.lt q (hperm.mem_iff.mp hq)⟩

/-! ## At most once -/

/-- **Different partners.** Where elements with a common partner have the same key, elements with
different keys have different partners. -/
theorem exists_nodup_forall₂ {α β : Type*} {R : α → β → Prop} {key : α → ℕ} {l : List α}
    (htotal : ∀ a ∈ l, ∃ b, R a b) (hkey : ∀ a a' b, R a b → R a' b → key a = key a')
    (hnodup : (l.map key).Nodup) : ∃ partners : List β, partners.Nodup ∧
      List.Forall₂ R l partners := by
  induction l with
  | nil => exact ⟨[], List.nodup_nil, .nil⟩
  | cons a l ih =>
    rw [List.map_cons, List.nodup_cons] at hnodup
    obtain ⟨b, hb⟩ := htotal a List.mem_cons_self
    obtain ⟨partners, hpartners, hforall⟩ :=
      ih (fun a' ha' => htotal a' (List.mem_cons_of_mem a ha')) hnodup.2
    refine ⟨b :: partners, List.nodup_cons.mpr ⟨fun hmem => ?_, hpartners⟩, .cons hb hforall⟩
    obtain ⟨i, hi, rfl⟩ := List.getElem_of_mem hmem
    have hlength := hforall.length_eq
    have hpartner := List.forall₂_iff_get.mp hforall |>.2 i (by omega) hi
    have hsame := hkey a _ _ hb hpartner
    exact hnodup.1 (hsame ▸ List.mem_map_of_mem (List.get_mem l _))

/-- The start that a callback has consumed; it is one of the headless flow. -/
structure StartOf (s : FlowState) (p : PendingCallback) (m : Mint) : Prop where
  linked : p ∈ s.linked
  minted : m ∈ s.minted
  state_eq : m.state = p.state
  payload : p.consumed = .ok m.payload
  headless : m.payload.crmState ≠ none
  consumed : ∃ time, ⟨m, p.callback, time⟩ ∈ s.consumed

/-- The callbacks that wait, and those whose bodies were received, are among those that have written
the table, each of them once. -/
structure NotifyInv (dump : OAuthState → Text) (validate : Text → Option OAuthState) (ttl : ℕ)
    (s : NotifyState) : Prop where
  reachable : (flowSystem dump validate ttl).Reachable s.flow
  numbered : Numbered s.flow
  subperm : (s.waiting ++ s.received).Subperm s.flow.linked

/-- What a step appends to the callbacks that have written the table. -/
theorem CallbackStep.linked_eq (h : CallbackStep s s') :
    s'.linked = s.linked ++ s'.linked.drop s.linked.length := by
  cases h with
  | same _ hlinked _ => rw [hlinked]; simp
  | ask _ _ _ hlinked _ => rw [hlinked]; simp
  | fail _ _ hlinked _ => rw [hlinked]; simp
  | link _ p _ _ hlinked _ => rw [hlinked]; simp

/-- Every step keeps the invariant.

**Proof sketch.** The waiting and the received notifications together are, as a multiset, part of
what has been linked. A step of the flow that links puts the new link at the end of the waiting
ones. A notification takes one waiting entry away and adds it to the received ones at most once, as
at most one body is sent. A crash takes one away. -/
theorem NotifyInv.next {s s' : NotifyState} {a : NotifyLabel} (h : NotifyInv dump validate ttl s)
    (hn : (notifySystem dump validate ttl).next s a = some s') :
    NotifyInv dump validate ttl s' := by
  cases a with
  | flow a =>
    simp only [notifySystem, notifyNext] at hn
    cases hflow : (flowSystem dump validate ttl).next s.flow a with
    | none => rw [hflow] at hn; cases hn
    | some flow =>
      rw [hflow] at hn
      obtain rfl := Option.some.inj hn
      have hstep := callbackStep_of_next hflow
      refine ⟨h.reachable.next hflow, h.numbered.step hstep, ?_⟩
      -- the callback that has written the table is the one that begins to wait
      have hperm : ((s.waiting ++ flow.linked.drop s.flow.linked.length) ++ s.received).Perm
          ((s.waiting ++ s.received) ++ flow.linked.drop s.flow.linked.length) := by
        rw [List.append_assoc, List.append_assoc]
        exact List.perm_append_comm.append_left s.waiting
      have hsub : ((s.waiting ++ s.received) ++ flow.linked.drop s.flow.linked.length).Subperm
          (s.flow.linked ++ flow.linked.drop s.flow.linked.length) :=
        (List.subperm_append_right _).mpr h.subperm
      rw [← hstep.linked_eq] at hsub
      exact hperm.subperm.trans hsub
  | notify j w =>
    simp only [notifySystem, notifyNext] at hn
    cases hj : s.waiting[j]? with
    | none => rw [hj] at hn; cases hn
    | some p =>
      rw [hj] at hn
      obtain rfl := Option.some.inj hn
      refine ⟨h.reachable, h.numbered, List.Subperm.trans ?_ h.subperm⟩
      have hbody : ((bodiesSent w).map fun _ => p).Sublist [p] := by
        rw [List.map_const']
        exact (List.replicate_sublist_replicate p).mpr (length_bodiesSent_le w)
      have hperm : (s.waiting.eraseIdx j ++ (s.received ++ [p])).Perm
          (s.waiting ++ s.received) := by
        rw [← List.append_assoc]
        refine (List.perm_append_singleton p _).trans ?_
        exact (perm_of_getElem?_eq_some hj).append_right s.received
      exact ((hbody.append_left s.received).append_left _).subperm.trans hperm.subperm
  | crash j =>
    simp only [notifySystem, notifyNext] at hn
    cases hj : s.waiting[j]? with
    | none => rw [hj] at hn; cases hn
    | some p =>
      rw [hj] at hn
      obtain rfl := Option.some.inj hn
      refine ⟨h.reachable, h.numbered, List.Subperm.trans ?_ h.subperm⟩
      exact ((List.eraseIdx_sublist _ _).append_right s.received).subperm

/-- **The CRM is notified at most once for each start**, in every interleaving of starts, callbacks,
losses, other writers of the table, requests to the CRM and crashes before them: the bodies that the
CRM may have received are those of callbacks that have written the table, and these have consumed
different starts of the headless flow.

**Proof sketch.** A callback that has written the table waits once, and of its attempts only the
last one may have reached the CRM. Callbacks have different numbers, and a start is consumed by one
of them. -/
theorem notified_once (hround : ∀ st, validate (dump st) = some st) {s : NotifyState}
    (hs : (notifySystem dump validate ttl).Reachable s) :
    ∃ starts : List Mint, starts.Nodup ∧
      List.Forall₂ (StartOf s.flow) s.received starts := by
  have hinv : NotifyInv dump validate ttl s := by
    refine hs.invariant (fun s₀ hinit => ?_) fun _ _ _ h _ hn => h.next hn
    obtain ⟨hflow, hwaiting, hreceived⟩ := hinit
    refine ⟨.init hflow, ?_, by simp [hwaiting, hreceived]⟩
    obtain ⟨-, -, hpending, -, hlinked⟩ := hflow
    constructor <;> simp [hpending, hlinked]
  have honce := oauth_state_one_shot dump ttl hround hinv.reachable
  have hreceived : s.received.Subperm s.flow.linked :=
    (List.sublist_append_right s.waiting s.received).subperm.trans hinv.subperm
  have hnodup : (s.received.map PendingCallback.callback).Nodup := by
    obtain ⟨l, hperm, hsub⟩ := hreceived
    rw [← (hperm.map PendingCallback.callback).nodup_iff]
    exact hinv.numbered.nodup.sublist ((hsub.trans (List.sublist_append_right _ _)).map _)
  refine exists_nodup_forall₂ (fun p hp => ?_) (fun p p' m h h' => ?_) hnodup
  · have hlinked := hreceived.subset hp
    obtain ⟨st, hst, hcrm, ⟨mint, callback, time⟩, hc, rfl, hstate, rfl⟩ := honce.linked p hlinked
    exact ⟨mint, hlinked, (honce.inTime _ hc).1, hstate, hst, hcrm, time, hc⟩
  · obtain ⟨time, hc⟩ := h.consumed
    obtain ⟨time', hc'⟩ := h'.consumed
    exact congrArg Consumption.callback (List.inj_on_of_nodup_map honce.once hc hc' rfl)

/-- An ingest to which the first attempt does not connect, and the reply to the second one is
lost. -/
def notifyingCallback : CallbackWorld :=
  { linkingCallback with ingestEnabled := true, ingest := [.connectError, .otherError] }

/-- The replay of a callback, and the request to the CRM. -/
def notifiedReplay : List NotifyLabel :=
  replay.map NotifyLabel.flow ++ [.notify 0 notifyingCallback]

/-- Of two callbacks with one state, one notifies the CRM, and the CRM may have received one
body. -/
theorem notified_once_replay : ∃ s,
    (notifySystem dumpJson validateJson 600).run ⟨idleFlow, [], []⟩ notifiedReplay = some s ∧
      s.received.map PendingCallback.callback = [0] ∧
      ∃ starts : List Mint, starts.Nodup ∧ List.Forall₂ (StartOf s.flow) s.received starts := by
  have hrun : ((notifySystem dumpJson validateJson 600).run ⟨idleFlow, [], []⟩ notifiedReplay).map
      (fun s => s.received.map PendingCallback.callback) = some [0] := by decide +kernel
  obtain ⟨s, hs, hreceived⟩ := Option.map_eq_some_iff.mp hrun
  have hreachable : (notifySystem dumpJson validateJson 600).Reachable s :=
    System.Reachable.run (.init ⟨⟨rfl, rfl, rfl, rfl, rfl⟩, rfl, rfl⟩) hs
  exact ⟨s, hs, hreceived, notified_once validateJson_dumpJson hreachable⟩

end OutlookOAuthService

end MailAggregator
