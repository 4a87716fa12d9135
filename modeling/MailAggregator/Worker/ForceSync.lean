import MailAggregator.Lib.Transition
import MailAggregator.Repositories.MailAccounts

set_option relaxedAutoImplicit false
set_option autoImplicit false

/-!
# Forced syncs

A request to sync a mailbox at once is a marker in Redis that lives for a minute. A job drains the
markers, deleting each one as it goes, then loads the accounts, and then syncs them. What it has
drained is in its memory only, so a failure before the syncs start loses it; and while the job is
busy with syncs, the markers that are set meanwhile may expire.

## Main definitions

* `MailAggregator.ForceSync.forceSystem` — requests, the passing of time, and the job.
* `MailAggregator.ForceSync.TakesEffect` — no request is lost, and a job that ends well has begun a
  sync for every request from before it.
* `MailAggregator.ForceSync.Undisturbed` — the condition on a step.

## Main results

* `MailAggregator.ForceSync.kept_next_iff` — which steps lose a request.
* `MailAggregator.ForceSync.takesEffect_iff` — exactly the undisturbed runs take effect.
-/

namespace MailAggregator

open Transition MailAccountsRepo

namespace ForceSync

/-! ## The system -/

/-- The seconds that a marker lives. -/
def markerTtl : ℕ := 60

/-- The job `force_sync_dispatcher`, of which one instance runs at a time. -/
inductive ForceJob where
  | idle
  /-- The scan of the markers: the keys that have been there since it began, those that it has
  returned, the rest of the batch at hand, and the ids that are drained. -/
  | draining (steady returned batch out : List ℕ)
  /-- The drained accounts are being loaded. -/
  | loading (out : List ℕ)
  /-- The accounts whose sync has not started. -/
  | running (todo : List ℕ)
  deriving DecidableEq, Repr

/-- Redis, the job, and two things that are observed: the mailboxes with a request that no sync has
followed, and those of them whose request is older than the job. -/
structure ForceState where
  /-- The time in seconds. -/
  now : ℕ
  /-- When the marker of an account expires, if one has been set. -/
  expiry : ℕ → Option ℕ
  job : ForceJob
  waiting : List ℕ
  owed : List ℕ

/-- The steps. -/
inductive ForceLabel where
  /-- `force_sync` of an active mailbox sets the marker; the answer is `queued`. -/
  | request (accountId : ℕ)
  | pass (n : ℕ)
  /-- The scheduler starts the job. -/
  | tick
  /-- `SCAN` returns a batch of keys. -/
  | scan (batch : List ℕ)
  /-- The next key of the batch is taken down and deleted. -/
  | delete
  /-- The scan is complete. -/
  | drained
  /-- The accounts are loaded. -/
  | load
  /-- The sync of an account starts. -/
  | start (accountId : ℕ)
  /-- All syncs have ended, and the job ends. -/
  | finish
  /-- Redis or the database fails, and the job ends with the exception. A `DEL` may have been
  carried out although its reply is lost. -/
  | fail (executed : Bool)
  deriving DecidableEq, Repr

/-- The marker of the account has not expired at a time. -/
def LiveAt (s : ForceState) (time accountId : ℕ) : Prop := ∃ t ∈ s.expiry accountId, time ≤ t

/-- The marker of the account is in Redis. -/
def Live (s : ForceState) (accountId : ℕ) : Prop := LiveAt s s.now accountId

instance (s : ForceState) (time : ℕ) : DecidablePred (LiveAt s time) := fun accountId =>
  inferInstanceAs (Decidable (∃ t ∈ s.expiry accountId, time ≤ t))

instance (s : ForceState) : DecidablePred (Live s) := fun accountId =>
  inferInstanceAs (Decidable (LiveAt s s.now accountId))

/-- The ids of the active accounts. -/
def activeIds (accounts : List MailAccount) : List ℕ :=
  (accounts.filter fun a => a.isActive).map MailAccount.id

/-- The keys that a scan has to return: those that do not expire meanwhile. -/
def ForceJob.pass (live : ℕ → Bool) : ForceJob → ForceJob
  | .draining steady returned batch out => .draining (steady.filter live) returned batch out
  | job => job

/-- The key that the job is about to delete. -/
def ForceJob.current : ForceJob → Option ℕ
  | .draining _ _ batch _ => batch.head?
  | _ => none

/-- Delete a marker. -/
def deleteMarker (s : ForceState) (accountId : Option ℕ) : ForceState :=
  match accountId with
  | none => s
  | some a => { s with expiry := Function.update s.expiry a none }

variable (accounts : List MailAccount)

/-- One step of the job, which deletes markers while it drains. -/
def jobNext (s : ForceState) : ForceLabel → Option ForceState
  | .tick =>
    match s.job with
    | .idle =>
      some
        { s with
          job := .draining ((activeIds accounts).filter fun a => Live s a) [] [] []
          owed := s.waiting }
    | _ => none
  | .scan batch =>
    match s.job with
    | .draining steady returned [] out =>
      if ∀ a ∈ batch, Live s a then
        some { s with job := .draining steady (batch ++ returned) batch out }
      else none
    | _ => none
  | .delete =>
    match s.job with
    | .draining steady returned (a :: batch) out =>
      some
        { deleteMarker s (some a) with
          job := .draining (steady.filter (· ≠ a)) returned batch (out.insert a) }
    | _ => none
  | .drained =>
    match s.job with
    | .draining steady returned [] out =>
      if ∀ a ∈ steady, a ∈ returned then
        some { s with job := if out = [] then .idle else .loading out }
      else none
    | _ => none
  | .load =>
    match s.job with
    | .loading out =>
      some { s with job := .running ((listActiveByIds accounts out).map MailAccount.id) }
    | _ => none
  | .start a =>
    match s.job with
    | .running todo =>
      if a ∈ todo then
        some
          { s with
            job := .running (todo.filter (· ≠ a))
            waiting := s.waiting.filter (· ≠ a)
            owed := s.owed.filter (· ≠ a) }
      else none
    | _ => none
  | .finish =>
    match s.job with
    | .running [] => some { s with job := .idle }
    | _ => none
  | .fail executed =>
    match s.job with
    | .draining _ _ _ _ =>
      some
        { deleteMarker s (if executed then s.job.current else none) with
          job := .idle
          owed := [] }
    | .loading _ => some { s with job := .idle, owed := [] }
    | .running [] => some { s with job := .idle }
    | _ => none
  | _ => none

/-- Requests for active mailboxes, the passing of time, and the job. -/
def forceSystem : System ForceState ForceLabel where
  init s := (∀ a, s.expiry a = none) ∧ s.job = .idle ∧ s.waiting = [] ∧ s.owed = []
  next s
    | .request a =>
      if a ∈ activeIds accounts then
        some
          { s with
            expiry := Function.update s.expiry a (some (s.now + markerTtl))
            waiting := a :: s.waiting }
      else none
    | .pass n =>
      some { s with now := s.now + n, job := s.job.pass fun a => LiveAt s (s.now + n) a }
    | label => jobNext accounts s label

/-! ## The promise and the condition -/

/-- The accounts that the job has in its memory. -/
def ForceJob.held : ForceJob → List ℕ
  | .idle => []
  | .draining _ _ batch out => batch ++ out
  | .loading out => out
  | .running todo => todo

/-- No request is lost: a mailbox that waits has its marker in Redis, or is with the job. -/
def Kept (s : ForceState) : Prop := ∀ a ∈ s.waiting, Live s a ∨ a ∈ s.job.held

instance (s : ForceState) : Decidable (Kept s) :=
  inferInstanceAs (Decidable (∀ a ∈ s.waiting, _))

/-- **A request takes effect**: until a sync has followed it, it is on its way, and after a job that
ended well no request from before that job waits. -/
structure TakesEffect (s : ForceState) : Prop where
  onItsWay : Kept s
  served : s.job = .idle → s.owed = []

/-- **The condition on a step**: no marker of a waiting mailbox expires before the job has it, and
the job fails only while each waiting mailbox has a marker that stays. -/
def Undisturbed (s : ForceState) : ForceLabel → Prop
  | .pass n => ∀ a ∈ s.waiting, a ∉ s.job.held → LiveAt s (s.now + n) a
  | .fail executed =>
    ∀ a ∈ s.waiting, Live s a ∧ ¬ (executed = true ∧ s.job.current = some a)
  | _ => True

/-! ## What a step does -/

variable {accounts} {s s' : ForceState} {label : ForceLabel}

/-- **The steps and the states after them.** -/
inductive Step (accounts : List MailAccount) (s : ForceState) : ForceLabel → ForceState → Prop
  | request {a : ℕ} (hactive : a ∈ activeIds accounts) :
      Step accounts s (.request a)
        { s with
          expiry := Function.update s.expiry a (some (s.now + markerTtl))
          waiting := a :: s.waiting }
  | pass (n : ℕ) :
      Step accounts s (.pass n)
        { s with now := s.now + n, job := s.job.pass fun a => LiveAt s (s.now + n) a }
  | tick (hjob : s.job = .idle) :
      Step accounts s .tick
        { s with
          job := .draining ((activeIds accounts).filter fun a => Live s a) [] [] []
          owed := s.waiting }
  | scan {steady returned batch out : List ℕ} (hjob : s.job = .draining steady returned [] out)
      (hlive : ∀ a ∈ batch, Live s a) :
      Step accounts s (.scan batch)
        { s with job := .draining steady (batch ++ returned) batch out }
  | delete {steady returned batch out : List ℕ} {a : ℕ}
      (hjob : s.job = .draining steady returned (a :: batch) out) :
      Step accounts s .delete
        { deleteMarker s (some a) with
          job := .draining (steady.filter (· ≠ a)) returned batch (out.insert a) }
  | drainedNone {steady returned : List ℕ} (hjob : s.job = .draining steady returned [] [])
      (hall : ∀ a ∈ steady, a ∈ returned) : Step accounts s .drained { s with job := .idle }
  | drained {steady returned out : List ℕ} (hjob : s.job = .draining steady returned [] out)
      (hall : ∀ a ∈ steady, a ∈ returned) : Step accounts s .drained { s with job := .loading out }
  | load {out : List ℕ} (hjob : s.job = .loading out) :
      Step accounts s .load
        { s with job := .running ((listActiveByIds accounts out).map MailAccount.id) }
  | start {todo : List ℕ} {a : ℕ} (hjob : s.job = .running todo) (hmem : a ∈ todo) :
      Step accounts s (.start a)
        { s with
          job := .running (todo.filter (· ≠ a))
          waiting := s.waiting.filter (· ≠ a)
          owed := s.owed.filter (· ≠ a) }
  | finish (hjob : s.job = .running []) : Step accounts s .finish { s with job := .idle }
  | failDraining {steady returned batch out : List ℕ} (executed : Bool)
      (hjob : s.job = .draining steady returned batch out) :
      Step accounts s (.fail executed)
        { deleteMarker s (if executed then s.job.current else none) with
          job := .idle
          owed := [] }
  | failLoading {out : List ℕ} (executed : Bool) (hjob : s.job = .loading out) :
      Step accounts s (.fail executed) { s with job := .idle, owed := [] }
  | failRunning (executed : Bool) (hjob : s.job = .running []) :
      Step accounts s (.fail executed) { s with job := .idle }

/-- **Every step is one of these.**

**Proof sketch.** By cases on the label. A request needs an active mailbox; every label of the job
is enabled in one phase of the job only, except for a failure, which has a constructor for each
phase that can fail. -/
theorem step_of_next (h : (forceSystem accounts).next s label = some s') :
    Step accounts s label s' := by
  cases label with
  | request a =>
    have h : (if a ∈ activeIds accounts then some _ else none) = some s' := h
    split_ifs at h with hactive
    cases h
    exact .request hactive
  | pass n => cases h; exact .pass n
  | tick =>
    have h : jobNext accounts s .tick = some s' := h
    rw [jobNext] at h
    split at h
    · next hjob => cases h; exact .tick hjob
    · cases h
  | scan batch =>
    have h : jobNext accounts s (.scan batch) = some s' := h
    rw [jobNext] at h
    split at h
    · next hjob =>
      split_ifs at h with hlive
      cases h
      exact .scan hjob hlive
    · cases h
  | delete =>
    have h : jobNext accounts s .delete = some s' := h
    rw [jobNext] at h
    split at h
    · next hjob => cases h; exact .delete hjob
    · cases h
  | drained =>
    have h : jobNext accounts s .drained = some s' := h
    rw [jobNext] at h
    split at h
    · next hjob =>
      split_ifs at h with hall hout
      · cases h
        subst hout
        exact .drainedNone hjob hall
      · cases h
        exact .drained hjob hall
    · cases h
  | load =>
    have h : jobNext accounts s .load = some s' := h
    rw [jobNext] at h
    split at h
    · next hjob => cases h; exact .load hjob
    · cases h
  | start a =>
    have h : jobNext accounts s (.start a) = some s' := h
    rw [jobNext] at h
    split at h
    · next hjob =>
      split_ifs at h with hmem
      cases h
      exact .start hjob hmem
    · cases h
  | finish =>
    have h : jobNext accounts s .finish = some s' := h
    rw [jobNext] at h
    split at h
    · next hjob => cases h; exact .finish hjob
    · cases h
  | fail executed =>
    have h : jobNext accounts s (.fail executed) = some s' := h
    rw [jobNext] at h
    split at h
    · next hjob => cases h; exact .failDraining executed hjob
    · next hjob => cases h; exact .failLoading executed hjob
    · next hjob => cases h; exact .failRunning executed hjob
    · cases h

/-! ## The markers -/

theorem liveAt_update_of_ne {expiry : ℕ → Option ℕ} {a b : ℕ} (hne : b ≠ a) (value : Option ℕ)
    (time : ℕ) :
    (∃ t ∈ Function.update expiry a value b, time ≤ t) ↔ ∃ t ∈ expiry b, time ≤ t := by
  rw [Function.update_of_ne hne]

@[simp] theorem deleteMarker_waiting (s : ForceState) (deleted : Option ℕ) :
    (deleteMarker s deleted).waiting = s.waiting := by
  cases deleted <;> rfl

/-- A deleted marker is gone, and no other. -/
theorem live_deleteMarker_iff (s : ForceState) (deleted : Option ℕ) (a : ℕ) :
    Live (deleteMarker s deleted) a ↔ Live s a ∧ deleted ≠ some a := by
  cases deleted with
  | none => simp [deleteMarker]
  | some b =>
    by_cases hne : a = b
    · subst hne
      simp [deleteMarker, Live, LiveAt]
    · have hkeep : some b ≠ some a := fun h => hne (Option.some.inj h).symm
      rw [and_iff_left hkeep]
      exact liveAt_update_of_ne hne none s.now

/-- The ids that are loaded. -/
theorem mem_map_listActiveByIds (out : List ℕ) (a : ℕ) :
    a ∈ (listActiveByIds accounts out).map MailAccount.id ↔ a ∈ activeIds accounts ∧ a ∈ out := by
  simp only [listActiveByIds, activeIds, List.mem_map, List.mem_insertionSort, List.mem_filter,
    Bool.decide_and, Bool.and_eq_true, decide_eq_true_eq]
  constructor
  · rintro ⟨row, ⟨hmem, hactive, hout⟩, rfl⟩
    exact ⟨⟨row, ⟨hmem, hactive⟩, rfl⟩, hout⟩
  · rintro ⟨⟨row, ⟨hmem, hactive⟩, rfl⟩, hout⟩
    exact ⟨row, ⟨hmem, hactive, hout⟩, rfl⟩

/-! ## The invariants -/

/-- Only active mailboxes wait, and what a job owes waits. -/
structure Scoped (accounts : List MailAccount) (s : ForceState) : Prop where
  active : ∀ a ∈ s.waiting, a ∈ activeIds accounts
  owed : ∀ a ∈ s.owed, a ∈ s.waiting

theorem Scoped.next (h : Scoped accounts s)
    (hn : (forceSystem accounts).next s label = some s') : Scoped accounts s' := by
  cases step_of_next hn with
  | request hactive =>
    refine ⟨fun b hb => ?_, fun b hb => List.mem_cons_of_mem _ (h.owed b hb)⟩
    rcases List.mem_cons.mp hb with rfl | hb
    · exact hactive
    · exact h.active b hb
  | pass n => exact ⟨h.active, h.owed⟩
  | tick hjob => exact ⟨h.active, fun _ hb => hb⟩
  | scan hjob hlive => exact ⟨h.active, h.owed⟩
  | delete hjob => exact ⟨h.active, h.owed⟩
  | drainedNone hjob hall => exact ⟨h.active, h.owed⟩
  | drained hjob hall => exact ⟨h.active, h.owed⟩
  | load hjob => exact ⟨h.active, h.owed⟩
  | start hjob hmem =>
    refine ⟨fun b hb => h.active b (List.mem_filter.mp hb).1, fun b hb => ?_⟩
    obtain ⟨howed, hne⟩ := List.mem_filter.mp hb
    exact List.mem_filter.mpr ⟨h.owed b howed, hne⟩
  | finish hjob => exact ⟨h.active, h.owed⟩
  | failDraining executed hjob =>
    refine ⟨fun b hb => h.active b ?_, fun b hb => absurd hb List.not_mem_nil⟩
    simpa only [deleteMarker_waiting] using hb
  | failLoading executed hjob => exact ⟨h.active, fun b hb => absurd hb List.not_mem_nil⟩
  | failRunning executed hjob => exact ⟨h.active, h.owed⟩

/-- A step that leaves time, markers and requests alone and lets the job drop nothing keeps the
requests. -/
theorem Kept.of_held (h : Kept s) (hwaiting : s'.waiting = s.waiting)
    (hlive : ∀ a ∈ s.waiting, Live s a → Live s' a ∨ a ∈ s'.job.held)
    (hheld : ∀ a ∈ s.waiting, a ∈ s.job.held → a ∈ s'.job.held) : Kept s' := by
  intro a ha
  rw [hwaiting] at ha
  rcases h a ha with hmarker | hjob
  · exact hlive a ha hmarker
  · exact Or.inr (hheld a ha hjob)

/-- A request sets the marker of its mailbox, and leaves the others where they are. -/
theorem Kept.request (h : Kept s) (a : ℕ) :
    Kept { s with
      expiry := Function.update s.expiry a (some (s.now + markerTtl))
      waiting := a :: s.waiting } := by
  intro b hb
  by_cases hsame : b = a
  · subst hsame
    refine Or.inl ⟨s.now + markerTtl, ?_, ?_⟩
    · simp
    · simp
  · have hb' : b ∈ s.waiting := (List.mem_cons.mp hb).resolve_left hsame
    rcases h b hb' with hmarker | hjob
    · exact Or.inl ((liveAt_update_of_ne hsame _ s.now).mpr hmarker)
    · exact Or.inr hjob

/-- Time loses the requests whose markers expire before the job has them.

**Proof sketch.** Time takes nothing from what the job holds. A mailbox that the job does not hold
is on its way only by its marker, which has to be there at the later time. -/
theorem kept_pass_iff (n : ℕ) :
    Kept { s with now := s.now + n, job := s.job.pass fun a => LiveAt s (s.now + n) a } ↔
      ∀ a ∈ s.waiting, a ∉ s.job.held → LiveAt s (s.now + n) a := by
  have hheld : (s.job.pass fun a => decide (LiveAt s (s.now + n) a)).held = s.job.held := by
    cases s.job <;> rfl
  constructor
  · intro h a ha hnot
    rcases h a ha with hmarker | hjob
    · exact hmarker
    · exact absurd (hheld ▸ hjob) hnot
  · intro h a ha
    by_cases hjob : a ∈ s.job.held
    · exact Or.inr (hheld.symm ▸ hjob)
    · exact Or.inl (h a ha hjob)

/-- A deletion hands its mailbox over from the marker and the batch to the drained ids. -/
theorem Kept.delete (h : Kept s) {steady returned batch out : List ℕ} {b : ℕ}
    (hjob : s.job = .draining steady returned (b :: batch) out) :
    Kept { deleteMarker s (some b) with
      job := .draining (steady.filter (· ≠ b)) returned batch (out.insert b) } := by
  refine h.of_held rfl (fun a _ h => ?_) fun a _ h => ?_
  · by_cases hsame : a = b
    · subst hsame
      exact Or.inr (List.mem_append_right _ (List.mem_insert_self))
    · refine Or.inl ((live_deleteMarker_iff s (some b) a).mpr ⟨h, fun hb => hsame ?_⟩)
      exact (Option.some.inj hb).symm
  · rw [hjob] at h
    rcases List.mem_append.mp h with hbatch | hout
    · rcases List.mem_cons.mp hbatch with rfl | hrest
      · exact List.mem_append_right _ List.mem_insert_self
      · exact List.mem_append_left _ hrest
    · exact List.mem_append_right _ (List.mem_insert_of_mem hout)

/-- A sync that starts serves its mailbox, which waits no more. -/
theorem Kept.start (h : Kept s) {todo : List ℕ} {b : ℕ} (hjob : s.job = .running todo) :
    Kept { s with
      job := .running (todo.filter (· ≠ b))
      waiting := s.waiting.filter (· ≠ b)
      owed := s.owed.filter (· ≠ b) } := by
  intro a ha
  obtain ⟨hwaiting, hne⟩ := List.mem_filter.mp ha
  rcases h a hwaiting with hmarker | hheld
  · exact Or.inl hmarker
  · rw [hjob] at hheld
    exact Or.inr (List.mem_filter.mpr ⟨hheld, hne⟩)

/-- A drain that fails loses what it has drained, and the marker whose `DEL` was carried out. -/
theorem kept_failDraining_iff (executed : Bool) :
    Kept { deleteMarker s (if executed then s.job.current else none) with
        job := .idle, owed := [] } ↔
      ∀ a ∈ s.waiting, Live s a ∧ ¬ (executed = true ∧ s.job.current = some a) := by
  have hlive (a : ℕ) :
      Live { deleteMarker s (if executed then s.job.current else none) with
        job := .idle, owed := [] } a ↔
        Live s a ∧ ¬ (executed = true ∧ s.job.current = some a) := by
    refine (live_deleteMarker_iff s (if executed then s.job.current else none) a).trans ?_
    cases executed <;> simp
  constructor
  · intro h a ha
    rcases h a (by simpa only [deleteMarker_waiting] using ha) with hmarker | hheld
    · exact (hlive a).mp hmarker
    · exact absurd hheld List.not_mem_nil
  · intro h a ha
    exact Or.inl ((hlive a).mpr (h a (by simpa only [deleteMarker_waiting] using ha)))

/-- A job that fails after the drain loses all that it has, so that only markers are left. -/
theorem kept_fail_iff (executed : Bool) (owed : List ℕ) (hcurrent : s.job.current = none) :
    Kept { s with job := .idle, owed } ↔
      ∀ a ∈ s.waiting, Live s a ∧ ¬ (executed = true ∧ s.job.current = some a) := by
  constructor
  · intro h a ha
    refine ⟨(h a ha).resolve_right List.not_mem_nil, fun hdeleted => ?_⟩
    rw [hcurrent] at hdeleted
    cases hdeleted.2
  · intro h a ha
    exact Or.inl (h a ha).1

/-- **Which steps lose a request.** From a state in which every request is on its way, a step loses
none exactly when it is undisturbed.

**Proof sketch.** One case for each step. Time loses the marker of a mailbox that the job does not
have; a failure loses what the job has. Every other step hands a mailbox over: from its marker to
the batch and from there to the drained ids, the loaded accounts and its sync. -/
theorem kept_next_iff (hscope : Scoped accounts s) (hkept : Kept s)
    (hn : (forceSystem accounts).next s label = some s') : Kept s' ↔ Undisturbed s label := by
  cases step_of_next hn with
  | @request a hactive => exact iff_of_true (hkept.request a) trivial
  | pass n => exact kept_pass_iff n
  | tick hjob =>
    refine iff_of_true (hkept.of_held rfl (fun a _ h => Or.inl h) fun a _ h => ?_) trivial
    rw [hjob] at h
    exact absurd h List.not_mem_nil
  | scan hjob hlive =>
    refine iff_of_true (hkept.of_held rfl (fun a _ h => Or.inl h) fun a _ h => ?_) trivial
    rw [hjob] at h
    exact List.mem_append_right _ h
  | delete hjob => exact iff_of_true (hkept.delete hjob) trivial
  | drainedNone hjob hall | drained hjob hall | finish hjob =>
    refine iff_of_true (hkept.of_held rfl (fun a _ h => Or.inl h) fun a _ h => ?_) trivial
    rw [hjob] at h
    exact h
  | load hjob =>
    refine iff_of_true (hkept.of_held rfl (fun a _ h => Or.inl h) fun a ha h => ?_) trivial
    rw [hjob] at h
    exact (mem_map_listActiveByIds _ a).mpr ⟨hscope.active a ha, h⟩
  | start hjob hmem => exact iff_of_true (hkept.start hjob) trivial
  | failDraining executed hjob => exact kept_failDraining_iff executed
  | failLoading executed hjob => exact kept_fail_iff executed [] (by rw [hjob]; rfl)
  | failRunning executed hjob => exact kept_fail_iff executed s.owed (by rw [hjob]; rfl)

/-- **Where the requests are that a job owes**: with a marker that the scan has to return, in the
batch, or drained; and from then on with the job. -/
def Carried (s : ForceState) : Prop :=
  match s.job with
  | .idle => s.owed = []
  | .draining steady returned batch out =>
    (∀ a ∈ returned, a ∈ batch ∨ a ∈ out) ∧
      ∀ a ∈ s.owed, a ∈ steady ∨ a ∈ batch ∨ a ∈ out
  | .loading out => ∀ a ∈ s.owed, a ∈ out
  | .running todo => ∀ a ∈ s.owed, a ∈ todo

/-- A complete scan has drained what the job owes. -/
theorem mem_out_of_drained {steady returned out owed : List ℕ}
    (hreturned : ∀ a ∈ returned, a ∈ ([] : List ℕ) ∨ a ∈ out)
    (howed : ∀ a ∈ owed, a ∈ steady ∨ a ∈ ([] : List ℕ) ∨ a ∈ out)
    (hall : ∀ a ∈ steady, a ∈ returned) : ∀ a ∈ owed, a ∈ out := by
  intro a ha
  rcases howed a ha with hsteady | hbatch | hout
  · exact (hreturned a (hall a hsteady)).resolve_left List.not_mem_nil
  · exact absurd hbatch List.not_mem_nil
  · exact hout

/-- **What a job owes stays with it** in the steps that lose no request.

**Proof sketch.** Only the steps of the job change where it stands. When it starts, a waiting
mailbox has a live marker, since the job has nothing yet. A marker that the scan still has to return
can only expire, and then the request would be lost. A deletion moves the mailbox to the drained
ids, and the phases after it hand these on as a whole. -/
theorem Carried.next (h : Carried s) (hscope : Scoped accounts s) (hkept : Kept s)
    (hkept' : Kept s') (hn : (forceSystem accounts).next s label = some s') : Carried s' := by
  cases step_of_next hn with
  | request hactive => exact h
  | pass n =>
    rw [Carried] at h
    cases hjob : s.job with
    | draining steady returned batch out =>
      rw [hjob] at h
      simp only [Carried, ForceJob.pass]
      refine ⟨h.1, fun a ha => ?_⟩
      rcases h.2 a ha with hsteady | hrest
      · -- a marker that the scan has to return has not expired, or the request is lost
        rcases hkept' a (hscope.owed a ha) with hmarker | hheld
        · have hlive : LiveAt s (s.now + n) a := hmarker
          exact Or.inl (List.mem_filter.mpr ⟨hsteady, decide_eq_true hlive⟩)
        · rw [hjob] at hheld
          exact Or.inr (List.mem_append.mp hheld)
      · exact Or.inr hrest
    | idle => rw [hjob] at h; simpa only [Carried, ForceJob.pass] using h
    | loading out => rw [hjob] at h; simpa only [Carried, ForceJob.pass] using h
    | running todo => rw [hjob] at h; simpa only [Carried, ForceJob.pass] using h
  | tick hjob =>
    refine ⟨fun a ha => absurd ha List.not_mem_nil, fun a ha => Or.inl ?_⟩
    have hlive : Live s a := by
      rcases hkept a ha with hmarker | hheld
      · exact hmarker
      · rw [hjob] at hheld
        exact absurd hheld List.not_mem_nil
    exact List.mem_filter.mpr ⟨hscope.active a ha, decide_eq_true hlive⟩
  | scan hjob hlive =>
    rw [Carried, hjob] at h
    obtain ⟨hreturned, howed⟩ := h
    refine ⟨fun a ha => ?_, fun a ha => ?_⟩
    · rcases List.mem_append.mp ha with hbatch | hold
      · exact Or.inl hbatch
      · exact Or.inr ((hreturned a hold).resolve_left List.not_mem_nil)
    · rcases howed a ha with hsteady | hbatch | hout
      · exact Or.inl hsteady
      · exact absurd hbatch List.not_mem_nil
      · exact Or.inr (Or.inr hout)
  | @delete steady returned batch out b hjob =>
    rw [Carried, hjob] at h
    obtain ⟨hreturned, howed⟩ := h
    have hmove {a : ℕ} (ha : a ∈ b :: batch ∨ a ∈ out) : a ∈ batch ∨ a ∈ out.insert b := by
      rcases ha with hbatch | hout
      · rcases List.mem_cons.mp hbatch with rfl | hrest
        · exact Or.inr List.mem_insert_self
        · exact Or.inl hrest
      · exact Or.inr (List.mem_insert_of_mem hout)
    refine ⟨fun a ha => hmove (hreturned a ha), fun a ha => ?_⟩
    rcases howed a ha with hsteady | hrest
    · by_cases hsame : a = b
      · subst hsame
        exact Or.inr (Or.inr List.mem_insert_self)
      · exact Or.inl (List.mem_filter.mpr ⟨hsteady, by simpa using hsame⟩)
    · exact Or.inr (hmove hrest)
  | drainedNone hjob hall =>
    rw [Carried, hjob] at h
    exact List.eq_nil_iff_forall_not_mem.mpr fun a ha =>
      absurd (mem_out_of_drained h.1 h.2 hall a ha) List.not_mem_nil
  | drained hjob hall =>
    rw [Carried, hjob] at h
    exact mem_out_of_drained h.1 h.2 hall
  | load hjob =>
    rw [Carried, hjob] at h
    intro a ha
    exact (mem_map_listActiveByIds _ a).mpr ⟨hscope.active a (hscope.owed a ha), h a ha⟩
  | start hjob hmem =>
    rw [Carried, hjob] at h
    intro a ha
    obtain ⟨howed, hne⟩ := List.mem_filter.mp ha
    exact List.mem_filter.mpr ⟨h a howed, hne⟩
  | finish hjob =>
    rw [Carried, hjob] at h
    exact List.eq_nil_iff_forall_not_mem.mpr fun a ha => absurd (h a ha) List.not_mem_nil
  | failDraining executed hjob => exact rfl
  | failLoading executed hjob => exact rfl
  | failRunning executed hjob =>
    rw [Carried, hjob] at h
    exact List.eq_nil_iff_forall_not_mem.mpr fun a ha => absurd (h a ha) List.not_mem_nil

/-! ## The runs -/

/-- What a job owes is carried, and no request is lost. -/
theorem TakesEffect.of_carried (hkept : Kept s) (hcarried : Carried s) : TakesEffect s := by
  refine ⟨hkept, fun hjob => ?_⟩
  rw [Carried, hjob] at hcarried
  exact hcarried

/-- **Exactly the undisturbed runs take effect**: every request of a run is on its way until a sync
has followed it, and every job that ends well has begun a sync for the requests from before it, in
each state of the run, if and only if each step of the run is undisturbed.

**Proof sketch.** One step keeps the requests on their way exactly if it is undisturbed, and a step
that keeps them keeps also what the job owes. So in an undisturbed run both hold in every state,
which gives the effect; and a run that takes effect keeps the requests on their way, which makes
each of its steps undisturbed. -/
theorem takesEffect_iff {as : List ForceLabel} (hinit : (forceSystem accounts).init s)
    (hrun : (forceSystem accounts).run s as = some s') :
    (forceSystem accounts).Along TakesEffect s as ↔
      (forceSystem accounts).Meets Undisturbed s as := by
  obtain ⟨hexpiry, hjob, hwaiting, howed⟩ := hinit
  have hscope : Scoped accounts s := by
    refine ⟨fun a ha => ?_, fun a ha => ?_⟩
    · rw [hwaiting] at ha
      cases ha
    · rw [howed] at ha
      cases ha
  have hkept : Kept s := by
    intro a ha
    rw [hwaiting] at ha
    cases ha
  have hcarried : Carried s := by
    rw [Carried, hjob]
    exact howed
  have hkeeps : (forceSystem accounts).Along Kept s as ↔
      (forceSystem accounts).Meets Undisturbed s as :=
    System.along_iff_meets (I := Scoped accounts) (fun _ _ _ h hn => h.next hn)
      (fun _ _ _ h hk hn => kept_next_iff h hk hn) hscope hkept hrun
  have hboth : (forceSystem accounts).Along (fun t => Kept t ∧ Carried t) s as ↔
      (forceSystem accounts).Meets Undisturbed s as := by
    refine System.along_iff_meets (I := Scoped accounts) (fun _ _ _ h hn => h.next hn)
      (fun t label t' h hk hn => ?_) hscope ⟨hkept, hcarried⟩ hrun
    rw [← kept_next_iff h hk.1 hn]
    exact ⟨fun h' => h'.1, fun hkept' => ⟨hkept', hk.2.next h hk.1 hkept' hn⟩⟩
  constructor
  · intro h
    exact hkeeps.mp (h.mono fun _ hs => hs.onItsWay)
  · intro h
    exact (hboth.mpr h).mono fun _ hs => .of_carried hs.1 hs.2

/-- A run without a failure in which no time passes is undisturbed. -/
theorem meets_of_calm {as : List ForceLabel} (h : ∀ label ∈ as, ∀ t, Undisturbed t label) :
    (forceSystem accounts).Meets Undisturbed s as := by
  induction as generalizing s with
  | nil => exact trivial
  | cons label as ih =>
    obtain ⟨hhead, htail⟩ := List.forall_mem_cons.mp h
    exact ⟨hhead s, fun _ _ => ih htail⟩

/-- Two active mailboxes. -/
def twoMailboxes : List MailAccount :=
  [{ id := 1, userId := 1, email := "a@x.org".toList },
    { id := 2, userId := 1, email := "b@x.org".toList }]

/-- Nothing has happened. -/
def quiet : ForceState where
  now := 0
  expiry := fun _ => none
  job := .idle
  waiting := []
  owed := []

theorem init_quiet : (forceSystem twoMailboxes).init quiet := ⟨fun _ => rfl, rfl, rfl, rfl⟩

/-- A request, and the job that serves it. -/
def servedRun : List ForceLabel :=
  [.request 1, .tick, .scan [1], .delete, .drained, .load, .start 1, .finish]

/-- That run takes effect. -/
theorem takesEffect_servedRun : (forceSystem twoMailboxes).Along TakesEffect quiet servedRun := by
  have hsome : ((forceSystem twoMailboxes).run quiet servedRun).isSome = true := by decide
  obtain ⟨t, ht⟩ := Option.isSome_iff_exists.mp hsome
  refine (takesEffect_iff init_quiet ht).mpr (meets_of_calm fun label hlabel t => ?_)
  simp only [servedRun, List.mem_cons, List.not_mem_nil, or_false] at hlabel
  rcases hlabel with rfl | rfl | rfl | rfl | rfl | rfl | rfl | rfl <;> trivial

/-- The job deletes the marker of the first mailbox, and fails at that of the second. -/
def drainFails : List ForceLabel :=
  [.request 1, .request 2, .tick, .scan [1, 2], .delete, .fail false]

/-- The marker of the second mailbox expires while the first is synced. -/
def markerExpires : List ForceLabel :=
  [.request 1, .tick, .scan [1], .delete, .drained, .load, .start 1, .request 2, .pass 61, .finish]

/-- Both runs lose a request. -/
theorem requests_lost :
    ((forceSystem twoMailboxes).run quiet drainFails).map (fun t => decide (Kept t)) = some false ∧
      ((forceSystem twoMailboxes).run quiet markerExpires).map (fun t => decide (Kept t)) =
        some false ∧
      ¬ ∀ accounts s, (forceSystem accounts).Reachable s → TakesEffect s := by
  have hdrain : ((forceSystem twoMailboxes).run quiet drainFails).map
      (fun t => decide (Kept t)) = some false := by decide
  refine ⟨hdrain, by decide, fun h => ?_⟩
  obtain ⟨t, ht, hlost⟩ := Option.map_eq_some_iff.mp hdrain
  have hreach : (forceSystem twoMailboxes).Reachable t :=
    System.Reachable.run (.init init_quiet) ht
  exact of_decide_eq_false hlost (h twoMailboxes t hreach).onItsWay

end ForceSync

end MailAggregator
