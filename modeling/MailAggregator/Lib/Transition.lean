import Mathlib.Logic.Basic
import Mathlib.Data.List.Basic

set_option relaxedAutoImplicit false
set_option autoImplicit false

/-!
# Labelled transition systems with a partial step function

A system is a set of initial states and, for every label, a partial step function: a label
that is not enabled in a state has no successor there.  An interleaving of concurrent parties
is a list of labels, so "for every interleaving" is "for every list of labels", and a concrete
interleaving is evaluated by `System.run`.

A *guard* restricts which steps a run may take.  A statement about all runs whose steps meet a
condition is a statement about `System.ReachableWhen guard`.

## Main definitions

* `Transition.System` — initial states and a partial labelled step function.
* `Transition.System.run` — the state after a list of labels.
* `Transition.System.ReachableWhen` — the states of the runs whose steps all meet a guard.
* `Transition.System.restrict` — the system of the steps that meet a guard.
* `Transition.System.ReachesBy` — a run by labels of a kind leads from a state to another.
* `Transition.System.Along`, `Transition.System.Meets` — a predicate holds in every state of a
  run; a guard is met by every step of a run.
* `Transition.System.countSteps` — how many steps of a run are of a kind.

## Main results

* `Transition.System.ReachableWhen.invariant` — the induction rule for invariants.
* `Transition.System.ReachableWhen.of_invariant` — a guard that an invariant strengthens.
* `Transition.System.run_map`, `Transition.System.Reachable.map` — functional simulation.
* `Transition.System.along_iff_meets` — if each single step keeps `P` exactly when it meets the
  guard, then a whole run keeps `P` exactly when all of its steps meet the guard.
-/

namespace Transition

universe u v

/-- A labelled transition system: its initial states, and the state each enabled label leads
to. -/
structure System (σ : Type u) (α : Type v) where
  /-- The initial states. -/
  init : σ → Prop
  /-- The state after a label, `none` where the label is not enabled. -/
  next : σ → α → Option σ

namespace System

variable {σ : Type u} {α : Type v} (S : System σ α)

/-- The state after a list of labels, `none` if one of them is not enabled in its turn. -/
def run : σ → List α → Option σ
  | s, [] => some s
  | s, a :: as =>
    match S.next s a with
    | none => none
    | some s' => run s' as

/-- The states of the runs from an initial state whose steps all meet `guard`. -/
inductive ReachableWhen (guard : σ → α → Prop) : σ → Prop
  | init {s : σ} (h : S.init s) : ReachableWhen guard s
  | step {s s' : σ} {a : α} (h : ReachableWhen guard s) (hg : guard s a)
      (hn : S.next s a = some s') : ReachableWhen guard s'

/-- The states of all runs from an initial state. -/
def Reachable (s : σ) : Prop := S.ReachableWhen (fun _ _ => True) s

variable {S}

/-- A run whose first label is enabled continues from the state after it. -/
theorem run_cons {s s' : σ} {a : α} (h : S.next s a = some s') (as : List α) :
    S.run s (a :: as) = S.run s' as := by
  rw [run, h]

/-- A run of two parts. -/
theorem run_append (s : σ) (as bs : List α) :
    S.run s (as ++ bs) = (S.run s as).bind fun t => S.run t bs := by
  induction as generalizing s with
  | nil => rfl
  | cons a as ih =>
    rw [List.cons_append, run, run]
    cases S.next s a with
    | none => rfl
    | some s' => exact ih s'

/-- **The invariant rule**: what holds initially and is kept by every step that meets the guard
holds in every state of the runs whose steps meet it. -/
theorem ReachableWhen.invariant {guard : σ → α → Prop} {P : σ → Prop}
    (hinit : ∀ s, S.init s → P s)
    (hstep : ∀ s a s', P s → guard s a → S.next s a = some s' → P s')
    {s : σ} (h : S.ReachableWhen guard s) : P s := by
  induction h with
  | init h => exact hinit _ h
  | step _ hg hn ih => exact hstep _ _ _ ih hg hn

/-- **A guard that an invariant strengthens.** If a guarded run keeps `P`, and a guarded step from a
state with `P` also meets `guard'`, then the run is one of steps that meet `guard'`. -/
theorem ReachableWhen.of_invariant {guard guard' : σ → α → Prop} {P : σ → Prop}
    (hinit : ∀ s, S.init s → P s)
    (hstep : ∀ s a s', P s → guard s a → S.next s a = some s' → P s')
    (hguard : ∀ s a s', P s → guard s a → S.next s a = some s' → guard' s a)
    {s : σ} (h : S.ReachableWhen guard s) : S.ReachableWhen guard' s := by
  have hboth : P s ∧ S.ReachableWhen guard' s := by
    induction h with
    | init h => exact ⟨hinit _ h, .init h⟩
    | step _ hg hn ih => exact ⟨hstep _ _ _ ih.1 hg hn, .step ih.2 (hguard _ _ _ ih.1 hg hn) hn⟩
  exact hboth.2

/-- Fewer steps reach fewer states. -/
theorem ReachableWhen.mono {guard guard' : σ → α → Prop} (hg : ∀ s a, guard s a → guard' s a)
    {s : σ} (h : S.ReachableWhen guard s) : S.ReachableWhen guard' s := by
  induction h with
  | init h => exact .init h
  | step _ hgs hn ih => exact .step ih (hg _ _ hgs) hn

/-- One enabled step from a reachable state. -/
theorem Reachable.next {s s' : σ} {a : α} (h : S.Reachable s) (hn : S.next s a = some s') :
    S.Reachable s' :=
  ReachableWhen.step h trivial hn

/-- The end of a run from a reachable state is reachable. -/
theorem Reachable.run {s t : σ} {as : List α} (h : S.Reachable s)
    (hr : S.run s as = some t) : S.Reachable t := by
  induction as generalizing s with
  | nil => cases hr; exact h
  | cons a as ih =>
    rw [System.run] at hr
    cases hn : S.next s a with
    | none => rw [hn] at hr; cases hr
    | some s' => rw [hn] at hr; exact ih (h.next hn) hr

/-- The system whose steps are the ones that meet `guard`. -/
def restrict (S : System σ α) (guard : σ → α → Prop) [∀ s a, Decidable (guard s a)] :
    System σ α where
  init := S.init
  next s a := if guard s a then S.next s a else none

/-- The end of a run whose steps all meet the guard, from a state that guarded steps reach. -/
theorem ReachableWhen.run {guard : σ → α → Prop} [∀ s a, Decidable (guard s a)] {s t : σ}
    {as : List α} (h : S.ReachableWhen guard s) (hr : (S.restrict guard).run s as = some t) :
    S.ReachableWhen guard t := by
  induction as generalizing s with
  | nil => cases hr; exact h
  | cons a as ih =>
    rw [System.run] at hr
    by_cases hg : guard s a
    · rw [show (S.restrict guard).next s a = S.next s a from if_pos hg] at hr
      cases hn : S.next s a with
      | none => rw [hn] at hr; cases hr
      | some s' => rw [hn] at hr; exact ih (.step h hg hn) hr
    · rw [show (S.restrict guard).next s a = none from if_neg hg] at hr
      cases hr

/-! ## Runs by steps of a kind -/

/-- A run by labels of a kind leads from `s` to `t`. -/
def ReachesBy (S : System σ α) (kind : α → Prop) (s t : σ) : Prop :=
  ∃ as, (∀ a ∈ as, kind a) ∧ S.run s as = some t

section ReachesBy

variable {kind : α → Prop} {s t u : σ}

theorem ReachesBy.refl (s : σ) : S.ReachesBy kind s s :=
  ⟨[], by simp, rfl⟩

theorem ReachesBy.single {a : α} (ha : kind a) (hn : S.next s a = some t) :
    S.ReachesBy kind s t :=
  ⟨[a], by simpa using ha, run_cons hn []⟩

theorem ReachesBy.trans (h : S.ReachesBy kind s t) (h' : S.ReachesBy kind t u) :
    S.ReachesBy kind s u := by
  obtain ⟨as, has, hr⟩ := h
  obtain ⟨bs, hbs, hr'⟩ := h'
  refine ⟨as ++ bs, fun a ha => (List.mem_append.mp ha).elim (has a) (hbs a), ?_⟩
  rw [run_append, hr, Option.bind_some, hr']

/-- What holds at the start of a run and is kept by the steps of the kind holds at its end. -/
theorem ReachesBy.invariant {P : σ → Prop} (h : S.ReachesBy kind s t)
    (hstep : ∀ s a s', P s → kind a → S.next s a = some s' → P s') (hs : P s) : P t := by
  obtain ⟨as, has, hr⟩ := h
  induction as generalizing s with
  | nil =>
    cases hr
    exact hs
  | cons a as ih =>
    rw [run] at hr
    cases hn : S.next s a with
    | none =>
      rw [hn] at hr
      cases hr
    | some s' =>
      rw [hn] at hr
      have hs' := hstep s a s' hs (has a List.mem_cons_self) hn
      exact ih hs' (fun b hb => has b (List.mem_cons_of_mem a hb)) hr

end ReachesBy

/-! ## Simulation -/

section Simulation

universe w

variable {τ : Type w} {T : System τ α} {I : σ → Prop} {abs : σ → τ}

/-- **Functional simulation.** If from states with an invariant every step of `S` is, after
abstraction, the step of `T` with the same label, then so is every run. -/
theorem run_map (hkeep : ∀ s a s', I s → S.next s a = some s' → I s')
    (hstep : ∀ s a, I s → (S.next s a).map abs = T.next (abs s) a) {s : σ} (hs : I s)
    (as : List α) : (S.run s as).map abs = T.run (abs s) as := by
  induction as generalizing s with
  | nil => rfl
  | cons a as ih =>
    have hnext := hstep s a hs
    rw [System.run, System.run, ← hnext]
    cases hn : S.next s a with
    | none => rfl
    | some s' => exact ih (hkeep s a s' hs hn)

/-- The abstraction of a reachable state is reachable. -/
theorem Reachable.map (hinit : ∀ s, S.init s → I s ∧ T.init (abs s))
    (hkeep : ∀ s a s', I s → S.next s a = some s' → I s')
    (hstep : ∀ s a, I s → (S.next s a).map abs = T.next (abs s) a) {s : σ} (h : S.Reachable s) :
    I s ∧ T.Reachable (abs s) := by
  induction h with
  | init h => exact ⟨(hinit _ h).1, .init (hinit _ h).2⟩
  | @step s s' a _ _ hn ih =>
    refine ⟨hkeep s a s' ih.1 hn, ih.2.next (?_ : T.next (abs s) a = some (abs s'))⟩
    rw [← hstep s a ih.1, hn, Option.map_some]

end Simulation

/-! ## Predicates along a run -/

/-- `P` holds in every state of the run from `s` by the labels `as`. -/
def Along (S : System σ α) (P : σ → Prop) : σ → List α → Prop
  | s, [] => P s
  | s, a :: as => P s ∧ ∀ s', S.next s a = some s' → Along S P s' as

/-- Every step of the run from `s` by the labels `as` meets `guard`. -/
def Meets (S : System σ α) (guard : σ → α → Prop) : σ → List α → Prop
  | _, [] => True
  | s, a :: as => guard s a ∧ ∀ s', S.next s a = some s' → Meets S guard s' as

/-- A run of the restricted system meets the guard. -/
theorem meets_of_restrict {guard : σ → α → Prop} [∀ s a, Decidable (guard s a)] {s t : σ}
    {as : List α} (hr : (S.restrict guard).run s as = some t) : S.Meets guard s as := by
  induction as generalizing s with
  | nil => trivial
  | cons a as ih =>
    rw [System.run] at hr
    by_cases hg : guard s a
    · rw [show (S.restrict guard).next s a = S.next s a from if_pos hg] at hr
      refine ⟨hg, fun s' hn => ih ?_⟩
      rwa [hn] at hr
    · rw [show (S.restrict guard).next s a = none from if_neg hg] at hr
      cases hr

/-- A predicate that holds along a run holds at its start. -/
theorem Along.head {P : σ → Prop} {s : σ} {as : List α} (h : S.Along P s as) : P s := by
  cases as with
  | nil => exact h
  | cons a as => exact h.1

/-- What holds along a run implies what it implies in each state. -/
theorem Along.mono {P Q : σ → Prop} (hPQ : ∀ s, P s → Q s) {s : σ} {as : List α}
    (h : S.Along P s as) : S.Along Q s as := by
  induction as generalizing s with
  | nil => exact hPQ s h
  | cons a as ih => exact ⟨hPQ s h.1, fun s' hn => ih (h.2 s' hn)⟩

/-- What the steps from states with `P` keep holds along a run with `P` as well. -/
theorem along_and_iff {P Q : σ → Prop}
    (hkeep : ∀ s a s', P s → Q s → S.next s a = some s' → Q s') {s : σ} (hs : Q s) {as : List α} :
    S.Along P s as ↔ S.Along (fun s => P s ∧ Q s) s as := by
  refine ⟨fun h => ?_, fun h => h.mono fun _ hboth => hboth.1⟩
  induction as generalizing s with
  | nil => exact ⟨h, hs⟩
  | cons a as ih =>
    exact ⟨⟨h.1, hs⟩, fun s' hn => ih (hkeep s a s' h.1 hs hn) (h.2 s' hn)⟩

/-- **Exact guards.** Let `I` be kept by every step, and suppose that from a state with `I` and
`P` a step leads to `P` exactly when it meets `guard`. Then a run from such a state stays in
`P` exactly when each of its steps meets `guard`.

**Proof sketch.** Induction on the labels. At each label both sides say that the first step is
fine and that the rest of the run is; the first halves agree by hypothesis, and once they hold
the rest starts in a state with `I` and `P` again. -/
theorem along_iff_meets {guard : σ → α → Prop} {I P : σ → Prop}
    (hI : ∀ s a s', I s → S.next s a = some s' → I s')
    (hstep : ∀ s a s', I s → P s → S.next s a = some s' → (P s' ↔ guard s a))
    {s t : σ} {as : List α} (hs : I s) (hp : P s) (hr : S.run s as = some t) :
    S.Along P s as ↔ S.Meets guard s as := by
  induction as generalizing s with
  | nil => exact ⟨fun _ => trivial, fun _ => hp⟩
  | cons a as ih =>
    rw [System.run] at hr
    cases hn : S.next s a with
    | none => rw [hn] at hr; cases hr
    | some s' =>
      rw [hn] at hr
      have hiff := hstep s a s' hs hp hn
      have hs' := hI s a s' hs hn
      constructor
      · intro h
        have hrest := h.2 s' hn
        refine ⟨hiff.mp hrest.head, fun s'' hn' => ?_⟩
        obtain rfl : s' = s'' := Option.some.inj (hn.symm.trans hn')
        exact (ih hs' hrest.head hr).mp hrest
      · intro h
        have hp' := hiff.mpr h.1
        refine ⟨hp, fun s'' hn' => ?_⟩
        obtain rfl : s' = s'' := Option.some.inj (hn.symm.trans hn')
        exact (ih hs' hp' hr).mpr (h.2 s' hn)

/-! ## Counting steps -/

/-- How many of the steps of the run from `s` by the labels `as` are of a kind. -/
def countSteps (S : System σ α) (kind : σ → α → Bool) : σ → List α → ℕ
  | _, [] => 0
  | s, a :: as =>
    (if kind s a then 1 else 0) +
      match S.next s a with
      | none => 0
      | some s' => countSteps S kind s' as

section Count

variable {kind : σ → α → Bool} {guard : σ → α → Prop} {I Q : σ → Prop}

theorem countSteps_cons {s s' : σ} {a : α} (h : S.next s a = some s') (as : List α) :
    S.countSteps kind s (a :: as) = (if kind s a then 1 else 0) + S.countSteps kind s' as := by
  rw [countSteps, h]

/-- A run that keeps `Q` has no step of a kind that `Q` excludes. -/
theorem countSteps_eq_zero (hkeep : ∀ s a s', Q s → guard s a → S.next s a = some s' → Q s')
    (hexcludes : ∀ s a, Q s → kind s a = false) {s t : σ} {as : List α} (hs : Q s)
    (hm : S.Meets guard s as) (hr : S.run s as = some t) : S.countSteps kind s as = 0 := by
  induction as generalizing s with
  | nil => rfl
  | cons a as ih =>
    rw [System.run] at hr
    cases hn : S.next s a with
    | none => rw [hn] at hr; cases hr
    | some s' =>
      rw [hn] at hr
      rw [countSteps_cons hn, hexcludes s a hs, ih (hkeep s a s' hs hm.1 hn) (hm.2 s' hn) hr]
      rfl

/-- **A step that makes itself impossible** is taken at most once in a run whose steps meet a guard:
it leads to `Q`, which excludes it and is kept by the steps that meet the guard. -/
theorem countSteps_le_one (hI : ∀ s a s', I s → S.next s a = some s' → I s')
    (hfirst : ∀ s a s', I s → kind s a = true → S.next s a = some s' → Q s')
    (hkeep : ∀ s a s', Q s → guard s a → S.next s a = some s' → Q s')
    (hexcludes : ∀ s a, Q s → kind s a = false) {s t : σ} {as : List α} (hs : I s)
    (hm : S.Meets guard s as) (hr : S.run s as = some t) : S.countSteps kind s as ≤ 1 := by
  induction as generalizing s with
  | nil => exact Nat.zero_le 1
  | cons a as ih =>
    rw [System.run] at hr
    cases hn : S.next s a with
    | none => rw [hn] at hr; cases hr
    | some s' =>
      rw [hn] at hr
      rw [countSteps_cons hn]
      by_cases hk : kind s a = true
      · have hzero := countSteps_eq_zero hkeep hexcludes (hfirst s a s' hs hk hn) (hm.2 s' hn) hr
        simp [hk, hzero]
      · simpa [hk] using ih (hI s a s' hs hn) (hm.2 s' hn) hr

end Count

end System

end Transition
