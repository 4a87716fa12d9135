import MailAggregator.Lib.Words

set_option relaxedAutoImplicit false
set_option autoImplicit false

/-!
# Substitution of matches

A pattern is given by the length of its match at the start of a list; zero is no match. A
substitution goes through a list from left to right, puts a replacement for each match and goes on
behind it, as `re.sub` does for a pattern that does not match the empty text.

## Main definitions

* `Lib.sub` — the list with its matches replaced.

## Main results

* `Lib.sub_of_match`, `Lib.sub_of_noMatch` — one step of the substitution.
* `Lib.sub_induction` — induction along a substitution.
* `Lib.sub_of_free` — a list without a match is left alone.
* `Lib.words_sub` — a substitution of separators for separators keeps the words.
* `Lib.sub_nil_eq_self_iff` — a deletion that changes nothing has found no match.
-/

namespace Lib

universe u

variable {α : Type u} (m : List α → ℕ) (repl : List α)

/-- The rest of a list, of which so many items still belong to the last match. -/
def subFrom : ℕ → List α → List α
  | _, [] => []
  | skip + 1, _ :: xs => subFrom skip xs
  | 0, x :: xs =>
    match m (x :: xs) with
    | 0 => x :: subFrom 0 xs
    | n + 1 => repl ++ subFrom n xs

/-- The list with its matches replaced. -/
def sub (xs : List α) : List α := subFrom m repl 0 xs

variable {m repl} {x : α} {xs : List α}

theorem subFrom_eq_sub_drop (skip : ℕ) (xs : List α) :
    subFrom m repl skip xs = sub m repl (xs.drop skip) := by
  induction xs generalizing skip with
  | nil => rw [List.drop_nil, sub]; cases skip <;> rfl
  | cons x xs ih =>
    cases skip with
    | zero => rfl
    | succ skip => exact ih skip

@[simp] theorem sub_nil : sub m repl [] = [] := rfl

/-- An item at which no match begins is kept. -/
theorem sub_of_noMatch (h : m (x :: xs) = 0) : sub m repl (x :: xs) = x :: sub m repl xs := by
  rw [sub, subFrom, h]
  rfl

/-- A match is replaced, and the substitution goes on behind it. -/
theorem sub_of_match (hne : xs ≠ []) (h : m xs ≠ 0) :
    sub m repl xs = repl ++ sub m repl (xs.drop (m xs)) := by
  cases xs with
  | nil => exact absurd rfl hne
  | cons x xs =>
    obtain ⟨n, hn⟩ := Nat.exists_eq_succ_of_ne_zero h
    rw [sub, subFrom, hn]
    simp only
    rw [subFrom_eq_sub_drop]
    rfl

/-- **Induction along a substitution**: item by item where no match begins, and match by match. -/
theorem sub_induction {motive : List α → Prop} (nil : motive [])
    (kept : ∀ x xs, m (x :: xs) = 0 → motive xs → motive (x :: xs))
    (matched : ∀ xs, xs ≠ [] → m xs ≠ 0 → motive (xs.drop (m xs)) → motive xs) :
    ∀ xs, motive xs := by
  have hbound : ∀ (n : ℕ) (xs : List α), xs.length ≤ n → motive xs := by
    intro n
    induction n with
    | zero =>
      intro xs hlen
      rw [List.eq_nil_of_length_eq_zero (Nat.le_zero.mp hlen)]
      exact nil
    | succ n ih =>
      intro xs hlen
      cases xs with
      | nil => exact nil
      | cons x xs =>
        rw [List.length_cons] at hlen
        by_cases hm : m (x :: xs) = 0
        · exact kept x xs hm (ih xs (by omega))
        · refine matched (x :: xs) (List.cons_ne_nil x xs) hm (ih _ ?_)
          rw [List.length_drop, List.length_cons]
          omega
  exact fun xs => hbound xs.length xs (Nat.le_refl _)

/-- A list in which no match begins is left alone. -/
theorem sub_of_free (h : ∀ t, t <:+ xs → m t = 0) : sub m repl xs = xs := by
  induction xs with
  | nil => rfl
  | cons x xs ih =>
    rw [sub_of_noMatch (h _ List.suffix_rfl),
      ih fun t ht => h t (ht.trans (List.suffix_cons x xs))]

/-- **A substitution of separators for separators keeps the words.**

**Proof sketch.** Induction along the substitution, with anything in front: an item that is kept
moves to the front; a match and its replacement are runs of separators, so that the front keeps its
words and the induction goes on with nothing in front. -/
theorem words_sub {sep : α → Bool} (hrepl : repl ≠ []) (hsep : ∀ c ∈ repl, sep c = true)
    (hmatch : ∀ ys : List α, ∀ c ∈ ys.take (m ys), sep c = true) (xs : List α) :
    words sep (sub m repl xs) = words sep xs := by
  suffices h : ∀ front, words sep (front ++ sub m repl xs) = words sep (front ++ xs) from h []
  induction xs using sub_induction (m := m) with
  | nil => exact fun front => rfl
  | kept x xs hm ih =>
    intro front
    rw [sub_of_noMatch hm, List.append_cons, ih, ← List.append_cons]
  | matched xs hne hm ih =>
    intro front
    have htake : xs.take (m xs) ≠ [] := by
      rw [Ne, List.take_eq_nil_iff, not_or]
      exact ⟨hm, hne⟩
    have hrest := ih []
    rw [List.nil_append, List.nil_append] at hrest
    calc words sep (front ++ sub m repl xs)
        = words sep front ++ words sep (sub m repl (xs.drop (m xs))) := by
          rw [sub_of_match hne hm, words_append_append hrepl hsep]
      _ = words sep front ++ words sep (xs.drop (m xs)) := by rw [hrest]
      _ = words sep (front ++ (xs.take (m xs) ++ xs.drop (m xs))) := by
          rw [words_append_append htake (hmatch xs)]
      _ = words sep (front ++ xs) := by rw [List.take_append_drop]

/-! ## Deletion -/

/-- What is left after a deletion stands in the list, in its order. -/
theorem sub_nil_sublist (xs : List α) : (sub m [] xs).Sublist xs := by
  induction xs using sub_induction (m := m) with
  | nil => exact List.Sublist.refl []
  | kept x xs hm ih =>
    rw [sub_of_noMatch hm]
    exact ih.cons_cons x
  | matched xs hne hm ih =>
    rw [sub_of_match hne hm, List.nil_append]
    exact ih.trans (List.drop_sublist _ _)

/-- **A deletion that changes nothing** has found no match: a match makes the list shorter. -/
theorem sub_nil_eq_self_iff :
    sub m [] xs = xs ↔ ∀ t, t ≠ [] → t <:+ xs → m t = 0 := by
  constructor
  · induction xs with
    | nil => exact fun _ t hne ht => absurd (List.suffix_nil.mp ht) hne
    | cons x xs ih =>
      intro heq t hne ht
      have hnone : m (x :: xs) = 0 := by
        by_contra hm
        rw [sub_of_match (List.cons_ne_nil x xs) hm, List.nil_append] at heq
        have hle := (sub_nil_sublist (m := m) ((x :: xs).drop (m (x :: xs)))).length_le
        rw [heq, List.length_drop, List.length_cons] at hle
        omega
      rw [sub_of_noMatch hnone, List.cons_eq_cons] at heq
      rcases List.suffix_cons_iff.mp ht with rfl | ht
      · exact hnone
      · exact ih heq.2 t hne ht
  · intro h
    induction xs with
    | nil => rfl
    | cons x xs ih =>
      rw [sub_of_noMatch (h _ (List.cons_ne_nil x xs) List.suffix_rfl),
        ih fun t hne ht => h t hne (ht.trans (List.suffix_cons x xs))]

/-- A deletion on items that are looked at through a map. -/
theorem map_sub {β : Type*} (f : β → α) (ys : List β) :
    (sub (fun l => m (l.map f)) [] ys).map f = sub m [] (ys.map f) := by
  induction ys using sub_induction (m := fun l => m (l.map f)) with
  | nil => rfl
  | kept y ys hm ih =>
    have hitems : m (f y :: ys.map f) = 0 := hm
    have hkept : sub (fun l => m (l.map f)) [] (y :: ys) =
        y :: sub (fun l => m (l.map f)) [] ys := sub_of_noMatch hm
    rw [hkept, List.map_cons, List.map_cons, ih, sub_of_noMatch hitems]
  | matched ys hne hm ih =>
    have hitems : m (ys.map f) ≠ 0 := hm
    have hmatched : sub (fun l => m (l.map f)) [] ys =
        [] ++ sub (fun l => m (l.map f)) [] (ys.drop (m (ys.map f))) := sub_of_match hne hm
    rw [hmatched, sub_of_match (mt List.map_eq_nil_iff.mp hne) hitems, List.nil_append,
      List.nil_append, ih, List.map_drop]

/-- An item that a deletion leaves stands in the list where no match begins, and the deletion goes
on behind it. -/
theorem exists_of_sub_nil {before s : List α} (h : sub m [] xs = before ++ x :: s) :
    ∃ before₁ t, xs = before₁ ++ x :: t ∧ m (x :: t) = 0 ∧ s = sub m [] t := by
  induction xs using sub_induction (m := m) generalizing before with
  | nil => exact absurd h.symm (by simp)
  | kept y ys hm ih =>
    rw [sub_of_noMatch hm] at h
    cases before with
    | nil =>
      obtain ⟨rfl, rfl⟩ := List.cons_eq_cons.mp h
      exact ⟨[], ys, rfl, hm, rfl⟩
    | cons z before =>
      obtain ⟨before₁, t, rfl, hnone, hs⟩ := ih (List.cons_eq_cons.mp h).2
      exact ⟨y :: before₁, t, rfl, hnone, hs⟩
  | matched ys hne hm ih =>
    rw [sub_of_match hne hm, List.nil_append] at h
    obtain ⟨before₁, t, heq, hnone, hs⟩ := ih h
    refine ⟨ys.take (m ys) ++ before₁, t, ?_, hnone, hs⟩
    rw [List.append_assoc, ← heq, List.take_append_drop]

end Lib
