import Mathlib.Data.List.Basic

set_option relaxedAutoImplicit false
set_option autoImplicit false

/-!
# Words

The words of a list are its maximal runs without a separator.

## Main definitions

* `Lib.words` — the words of a list, in their order.

## Main results

* `Lib.words_append_append` — a run of separators keeps the words on its two sides apart.
* `Lib.words_of_word` — a word is its own only word.
-/

namespace Lib

universe u

variable {α : Type u} (sep : α → Bool)

/-- The words of a list: its maximal runs without a separator. -/
def words (xs : List α) : List (List α) := (xs.splitOnP sep).filter fun w => !w.isEmpty

variable {sep} {c : α} {xs ys s w : List α}

@[simp] theorem words_nil : words sep [] = [] := rfl

/-- A separator keeps the words on its two sides apart. -/
theorem words_append_cons (h : sep c = true) :
    words sep (xs ++ c :: ys) = words sep xs ++ words sep ys := by
  rw [words, List.splitOnP_append_cons _ _ h, List.filter_append]
  rfl

theorem words_cons (h : sep c = true) : words sep (c :: ys) = words sep ys := by
  rw [← List.nil_append (c :: ys), words_append_cons h, words_nil, List.nil_append]

/-- Separators in front change nothing. -/
theorem words_append_of_forall_sep (h : ∀ c ∈ s, sep c = true) :
    words sep (s ++ ys) = words sep ys := by
  induction s with
  | nil => rfl
  | cons c s ih =>
    rw [List.cons_append, words_cons (h c List.mem_cons_self)]
    exact ih fun d hd => h d (List.mem_cons_of_mem _ hd)

/-- A run of separators keeps the words on its two sides apart, however long it is. -/
theorem words_append_append (hne : s ≠ []) (h : ∀ c ∈ s, sep c = true) :
    words sep (xs ++ (s ++ ys)) = words sep xs ++ words sep ys := by
  cases s with
  | nil => exact absurd rfl hne
  | cons c s =>
    rw [List.cons_append, words_append_cons (h c List.mem_cons_self),
      words_append_of_forall_sep fun d hd => h d (List.mem_cons_of_mem _ hd)]

/-- A word is its own only word. -/
theorem words_of_word (hne : w ≠ []) (h : ∀ c ∈ w, sep c = false) : words sep w = [w] := by
  rw [words, List.splitOnP_eq_singleton h, List.filter_singleton]
  cases w with
  | nil => exact absurd rfl hne
  | cons c w => rfl

/-- Only the items of a list matter for its words. -/
theorem words_congr {sep' : α → Bool} (h : ∀ c ∈ xs, sep c = sep' c) :
    words sep xs = words sep' xs := by
  have hsplit : xs.splitOnP sep = xs.splitOnP sep' := by
    induction xs with
    | nil => rfl
    | cons c xs ih =>
      rw [List.splitOnP_cons_eq_if_modifyHead, List.splitOnP_cons_eq_if_modifyHead,
        h c List.mem_cons_self, ih fun d hd => h d (List.mem_cons_of_mem _ hd)]
  rw [words, words, hsplit]

/-- The parts between separators are parts of the list, and the first one begins it.

**Proof sketch.** Induction on the list: a separator puts an empty part in front, and any other item
is put in front of the first part, which is why that has to begin the list. -/
theorem infix_of_mem_splitOnP (xs : List α) :
    (∀ part ∈ xs.splitOnP sep, part <:+: xs) ∧ ∀ part ∈ (xs.splitOnP sep).head?, part <+: xs := by
  induction xs with
  | nil => simp
  | cons c xs ih =>
    obtain ⟨hparts, hhead⟩ := ih
    rw [List.splitOnP_cons_eq_if_modifyHead]
    split_ifs with hsep
    · refine ⟨List.forall_mem_cons.mpr ⟨List.nil_infix, fun part hpart => ?_⟩, by simp⟩
      exact (hparts part hpart).trans (List.suffix_cons c xs).isInfix
    · cases hsplit : xs.splitOnP sep with
      | nil => simp
      | cons first rest =>
        rw [hsplit] at hparts hhead
        have hfirst : (c :: first) <+: (c :: xs) :=
          List.cons_prefix_cons.mpr ⟨rfl, hhead first rfl⟩
        rw [List.modifyHead_cons]
        refine ⟨List.forall_mem_cons.mpr ⟨hfirst.isInfix, fun part hpart => ?_⟩, ?_⟩
        · exact (hparts part (List.mem_cons_of_mem _ hpart)).trans
            (List.suffix_cons c xs).isInfix
        · intro part hpart
          obtain rfl := Option.some.inj hpart
          exact hfirst

/-- A word is a part of the list. -/
theorem infix_of_mem_words (hw : w ∈ words sep xs) : w <:+: xs :=
  (infix_of_mem_splitOnP xs).1 w (List.mem_of_mem_filter hw)

end Lib
