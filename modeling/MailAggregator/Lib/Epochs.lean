import Mathlib.Algebra.Order.Monoid.Defs
import Mathlib.Data.List.Basic
import Mathlib.Data.List.MinMax
import Mathlib.Order.Basic

set_option relaxedAutoImplicit false
set_option autoImplicit false

/-!
# Events in epochs

Events happen at times and belong to epochs. If every third epoch begins at least a window after
the first one has ended, an interval as long as the window meets two epochs at most, so that a bound
on the events of each epoch gives twice this bound for the interval.

## Main definitions

* `Epochs.Separated` — between the events of an epoch and those of the second next one lies a
  window.

## Main results

* `Epochs.length_filter_interval_le` — the bound on the events of an interval.
-/

namespace Epochs

variable {α ι τ : Type*} [LinearOrder ι] [AddCommMonoid τ] [LinearOrder τ] (epoch : α → ι)
  (time : α → τ)

/-- Events with an epoch between theirs lie a window apart. -/
def Separated (window : τ) (events : List α) : Prop :=
  ∀ a ∈ events, ∀ b ∈ events, ∀ c ∈ events, epoch a < epoch b → epoch b < epoch c →
    time a + window ≤ time c

variable {epoch time} {window : τ} {events : List α}

@[simp] theorem separated_nil : Separated epoch time window [] := by
  intro a ha
  cases ha

/-- An event of the last epoch is added. -/
theorem Separated.cons (h : Separated epoch time window events) {x : α}
    (hlast : ∀ a ∈ events, epoch a ≤ epoch x)
    (hapart : ∀ a ∈ events, ∀ b ∈ events, epoch a < epoch b → epoch b < epoch x →
      time a + window ≤ time x) : Separated epoch time window (x :: events) := by
  have hmax (a : α) (ha : a ∈ x :: events) : epoch a ≤ epoch x := by
    rcases List.mem_cons.mp ha with rfl | ha
    · exact le_rfl
    · exact hlast a ha
  have hold {a b : α} (ha : a ∈ x :: events) (hb : b ∈ x :: events) (hlt : epoch a < epoch b) :
      a ∈ events := by
    rcases List.mem_cons.mp ha with rfl | ha
    · exact absurd hlt (hmax b hb).not_gt
    · exact ha
  intro a ha b hb c hc hab hbc
  rcases List.mem_cons.mp hc with rfl | hc'
  · exact hapart a (hold ha hb hab) b (hold hb hc hbc) hab hbc
  · exact h a (hold ha hb hab) b (hold hb hc hbc) c hc' hab hbc

/-- Events that belong to one of two epochs are as many as those of both epochs at most. -/
theorem length_le_of_two_epochs {cap : ℕ}
    (hcap : ∀ e, (events.filter fun a => epoch a = e).length ≤ cap) {first last : ι}
    (htwo : ∀ a ∈ events, epoch a = first ∨ epoch a = last) : events.length ≤ 2 * cap := by
  have hsplit := List.length_eq_countP_add_countP (fun a => decide (epoch a = first)) (l := events)
  have hrest : events.countP (fun a => decide ¬ decide (epoch a = first) = true) ≤
      events.countP fun a => decide (epoch a = last) := by
    refine List.countP_mono_left fun a ha hne => ?_
    rcases htwo a ha with hfirst | hlast
    · simp [hfirst] at hne
    · simpa using hlast
  have hfirst := hcap first
  have hlast := hcap last
  rw [← List.countP_eq_length_filter] at hfirst hlast
  omega

/-- **An interval as long as the window** has at most twice the events of an epoch.

**Proof sketch.** The interval meets a first and a last epoch. An event of the interval in an epoch
between them would put a window between two events of the interval. -/
theorem length_filter_interval_le [IsOrderedAddMonoid τ] {cap : ℕ}
    (hcap : ∀ e, (events.filter fun a => epoch a = e).length ≤ cap)
    (hsep : Separated epoch time window events) (t : τ) :
    (events.filter fun a => t ≤ time a ∧ time a < t + window).length ≤ 2 * cap := by
  set inside := events.filter fun a => t ≤ time a ∧ time a < t + window with hinside
  have hmem (a : α) (ha : a ∈ inside) : a ∈ events ∧ t ≤ time a ∧ time a < t + window := by
    simpa [hinside] using ha
  cases hfirst : inside.argmin epoch with
  | none =>
    rw [List.argmin_eq_none] at hfirst
    simp [hfirst]
  | some first =>
    cases hlast : inside.argmax epoch with
    | none =>
      rw [List.argmax_eq_none] at hlast
      simp [hlast]
    | some last =>
      have hfirst' : first ∈ inside := List.argmin_mem hfirst
      have hlast' : last ∈ inside := List.argmax_mem hlast
      have hcap' (e : ι) : (inside.filter fun a => epoch a = e).length ≤ cap :=
        le_trans (List.Sublist.filter _ List.filter_sublist).length_le (hcap e)
      refine length_le_of_two_epochs hcap' (?_ : ∀ a ∈ inside, epoch a = epoch first ∨
        epoch a = epoch last)
      intro a ha
      have hle : epoch first ≤ epoch a := List.le_of_mem_argmin ha hfirst
      have hge : epoch a ≤ epoch last := List.le_of_mem_argmax ha hlast
      rcases hle.lt_or_eq with hlt | heq
      · rcases hge.lt_or_eq with hlt' | heq'
        · have hgap := hsep first (hmem first hfirst').1 a (hmem a ha).1 last (hmem last hlast').1
            hlt hlt'
          have hstart := add_le_add_left (hmem first hfirst').2.1 window
          exact absurd (hstart.trans hgap) (not_le_of_gt (hmem last hlast').2.2)
        · exact Or.inr heq'
      · exact Or.inl heq.symm

end Epochs
