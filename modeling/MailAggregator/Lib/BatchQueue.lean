import Mathlib.Data.List.Basic

set_option relaxedAutoImplicit false
set_option autoImplicit false

/-!
# Batches popped from a stack

A list is worked off in batches from its left end. A batch that is rejected goes back to the left
end, the last element first, so that the next batch is made of the same elements: nothing behind
a rejected batch is ever reached.

## Main definitions

* `BatchQueue.turn` — the list after one batch.
* `BatchQueue.popped` — the elements that are popped in a number of turns.

## Main results

* `BatchQueue.mem_popped_of_rejected` — behind a rejected batch nothing is popped.
* `BatchQueue.all_popped_iff` — which lists are worked off in a given number of turns.
-/

namespace BatchQueue

variable {α : Type*} (batchSize : ℕ) (Rejected : List α → Prop) [DecidablePred Rejected]

/-- The list after one batch: the rest, on top of which a rejected batch is put back. -/
def turn (queue : List α) : List α :=
  if Rejected (queue.take batchSize) then
    (queue.take batchSize).reverse ++ queue.drop batchSize
  else queue.drop batchSize

/-- The elements that are popped in the first `n` turns. -/
def popped : ℕ → List α → List α
  | 0, _ => []
  | n + 1, queue => queue.take batchSize ++ popped n (turn batchSize Rejected queue)

variable {batchSize Rejected}

/-- **A rejected batch stays on top**: if a rejection depends on the elements of a batch only, the
turns from a list whose first batch is rejected pop no element but those of that batch.

**Proof sketch.** Induction on the turns. The batch that is put back has the same elements, and it
is again the first one: either it is full, or there is nothing behind it. -/
theorem mem_popped_of_rejected
    (hperm : ∀ xs ys : List α, (∀ x, x ∈ xs ↔ x ∈ ys) → (Rejected xs ↔ Rejected ys)) {n : ℕ}
    {queue : List α} (h : Rejected (queue.take batchSize)) {x : α}
    (hx : x ∈ popped batchSize Rejected n queue) : x ∈ queue.take batchSize := by
  induction n generalizing queue with
  | zero => cases hx
  | succ n ih =>
    rw [popped, List.mem_append] at hx
    rcases hx with hx | hx
    · exact hx
    · have hturn : turn batchSize Rejected queue =
          (queue.take batchSize).reverse ++ queue.drop batchSize := if_pos h
      have htop : (turn batchSize Rejected queue).take batchSize =
          (queue.take batchSize).reverse := by
        rw [hturn]
        rcases Nat.le_total batchSize queue.length with hle | hle
        · have hlen : (queue.take batchSize).reverse.length = batchSize := by simp [hle]
          exact List.take_left' hlen
        · have hlen : queue.reverse.length ≤ batchSize := by simpa using hle
          simp [List.drop_eq_nil_of_le hle, List.take_of_length_le hle,
            List.take_of_length_le hlen]
      have hsame : ∀ y, y ∈ (queue.take batchSize).reverse ↔ y ∈ queue.take batchSize :=
        fun _ => List.mem_reverse
      have hagain : Rejected ((turn batchSize Rejected queue).take batchSize) := by
        rw [htop]
        exact (hperm _ _ hsame).mpr h
      have hmem := ih hagain hx
      rw [htop] at hmem
      exact (hsame x).mp hmem

/-- **Which lists are worked off.** In enough turns for the length of the list, all elements with a
property are popped exactly when those behind a rejected batch also stand in that batch or before
it.

**Proof sketch.** Induction on the turns, for every property. If the first batch is rejected, only
its elements are popped, and the condition says that this is enough. If it is not, the rest is
worked off next, and what is left to pop there are the elements that the first batch lacks. -/
theorem all_popped_iff
    (hperm : ∀ xs ys : List α, (∀ x, x ∈ xs ↔ x ∈ ys) → (Rejected xs ↔ Rejected ys)) {n : ℕ}
    {queue : List α} (hn : queue.length ≤ n * batchSize) (P : α → Prop) :
    (∀ x ∈ queue, P x → x ∈ popped batchSize Rejected n queue) ↔
      ∀ i, Rejected ((queue.drop (batchSize * i)).take batchSize) →
        ∀ x ∈ queue.drop (batchSize * (i + 1)), P x → x ∈ queue.take (batchSize * (i + 1)) := by
  induction n generalizing queue P with
  | zero =>
    have hnil : queue = [] := List.eq_nil_of_length_eq_zero (by omega)
    subst hnil
    simp
  | succ n ih =>
    by_cases hrej : Rejected (queue.take batchSize)
    · constructor
      · intro hall i _ x hx hP
        have hmem := mem_popped_of_rejected hperm hrej (hall x (List.mem_of_mem_drop hx) hP)
        have hle : batchSize ≤ batchSize * (i + 1) := Nat.le_mul_of_pos_right _ (Nat.succ_pos i)
        exact (List.take_subset_take_left queue hle) hmem
      · intro hcond x hx hP
        rw [popped, List.mem_append]
        refine Or.inl ?_
        rw [← List.take_append_drop batchSize queue, List.mem_append] at hx
        rcases hx with hx | hx
        · exact hx
        · have h0 := hcond 0 (by simpa using hrej) x (by simpa using hx) hP
          simpa using h0
    · have hturn : turn batchSize Rejected queue = queue.drop batchSize := if_neg hrej
      have hlen : (queue.drop batchSize).length ≤ n * batchSize := by
        rw [List.length_drop, Nat.sub_le_iff_le_add, ← Nat.succ_mul]
        exact hn
      have hrest := ih hlen fun x => P x ∧ x ∉ queue.take batchSize
      have hdrop : ∀ i, (queue.drop batchSize).drop (batchSize * i) =
          queue.drop (batchSize * (i + 1)) := fun i => by
        rw [List.drop_drop, Nat.mul_succ, Nat.add_comm]
      have htake : ∀ i x, x ∈ queue.take (batchSize * (i + 1)) ↔
          x ∈ queue.take batchSize ∨ x ∈ (queue.drop batchSize).take (batchSize * i) :=
        fun i x => by
        rw [Nat.mul_succ, Nat.add_comm, List.take_add, List.mem_append]
      constructor
      · intro hall i hi x hx hP
        cases i with
        | zero => exact absurd (by simpa using hi) hrej
        | succ i =>
          rw [htake]
          by_cases hfirst : x ∈ queue.take batchSize
          · exact Or.inl hfirst
          · refine Or.inr (hrest.mp (fun y hy hPy => ?_) i ?_ x ?_ ⟨hP, hfirst⟩)
            · have hmem := hall y (List.mem_of_mem_drop hy) hPy.1
              rw [popped, List.mem_append, hturn] at hmem
              exact hmem.resolve_left hPy.2
            · rw [hdrop]
              exact hi
            · rw [hdrop]
              exact hx
      · intro hcond x hx hP
        rw [popped, List.mem_append, hturn]
        by_cases hfirst : x ∈ queue.take batchSize
        · exact Or.inl hfirst
        · rw [← List.take_append_drop batchSize queue, List.mem_append] at hx
          refine Or.inr (hrest.mpr (fun i hi y hy hPy => ?_) x (hx.resolve_left hfirst)
            ⟨hP, hfirst⟩)
          rw [hdrop] at hi hy
          have hmem := hcond (i + 1) hi y hy hPy.1
          rw [htake] at hmem
          exact hmem.resolve_left hPy.2

end BatchQueue
