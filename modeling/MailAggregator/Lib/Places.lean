import MailAggregator.Lib.Substitute
import Mathlib.Data.List.Chain

set_option relaxedAutoImplicit false
set_option autoImplicit false

/-!
# Deletion with places

The items of a list carry their places. A deletion leaves some of them, and an unbroken run of
places that is left was as unbroken before the deletion.

## Main definitions

* `Lib.Ordered` — the places go up.
* `Lib.Unbroken` — the places go up one by one.

## Main results

* `Lib.exists_of_unbroken` — an unbroken run among the items of a list is a stretch of the list.
* `Lib.exists_gap` — a broken run is unbroken up to a gap.
* `Lib.sub_layer` — an unbroken run that a deletion leaves stood in the list, and no match began
  there.
-/

namespace Lib

universe u

variable {α : Type u}

/-- The items of a list with places. -/
def items (l : List (α × ℕ)) : List α := l.map Prod.fst

/-- The places of a list go up. -/
def Ordered (l : List (α × ℕ)) : Prop := l.Pairwise fun a b => a.2 < b.2

/-- The places of a list go up one by one. -/
def Unbroken (l : List (α × ℕ)) : Prop := l.IsChain fun a b => b.2 = a.2 + 1

instance : DecidablePred (Unbroken (α := α)) := fun l =>
  inferInstanceAs (Decidable (l.IsChain fun a b => b.2 = a.2 + 1))

@[simp] theorem items_nil : items ([] : List (α × ℕ)) = [] := rfl

@[simp] theorem items_append (l l' : List (α × ℕ)) : items (l ++ l') = items l ++ items l' :=
  List.map_append

@[simp] theorem items_cons (a : α × ℕ) (l : List (α × ℕ)) : items (a :: l) = a.1 :: items l := rfl

theorem items_sublist {l l' : List (α × ℕ)} (h : l.Sublist l') : (items l).Sublist (items l') :=
  h.map _

theorem ordered_zipIdx (xs : List α) (n : ℕ) : Ordered (xs.zipIdx n) := by
  have hplaces : ((xs.zipIdx n).map Prod.snd).Pairwise (· < ·) := by
    rw [List.zipIdx_map_snd]
    exact List.pairwise_lt_range'
  exact List.pairwise_map.mp hplaces

/-- The places of a list that is numbered go up one by one. -/
theorem unbroken_zipIdx (xs : List α) (n : ℕ) : Unbroken (xs.zipIdx n) := by
  induction xs generalizing n with
  | nil => exact List.IsChain.nil
  | cons x xs ih =>
    cases xs with
    | nil => exact List.IsChain.singleton _
    | cons y xs => exact List.isChain_cons_cons.mpr ⟨rfl, ih (n + 1)⟩

/-- A run that is broken goes up to a gap one by one. -/
theorem exists_gap {run : List (α × ℕ)} (h : ¬ Unbroken run) :
    ∃ start a b more, run = start ++ a :: b :: more ∧ Unbroken (start ++ [a]) ∧ b.2 ≠ a.2 + 1 := by
  induction run with
  | nil => exact absurd List.IsChain.nil h
  | cons a run ih =>
    cases run with
    | nil => exact absurd (List.IsChain.singleton a) h
    | cons b more =>
      by_cases hnext : b.2 = a.2 + 1
      · have hrest : ¬ Unbroken (b :: more) := fun hchain =>
          h (List.isChain_cons_cons.mpr ⟨hnext, hchain⟩)
        obtain ⟨start, a', b', more', hrun, hstart, hgap⟩ := ih hrest
        refine ⟨a :: start, a', b', more', by rw [hrun]; rfl, ?_, hgap⟩
        cases start with
        | nil =>
          obtain ⟨rfl, -⟩ := List.cons_eq_cons.mp hrun
          exact List.isChain_cons_cons.mpr ⟨hnext, hstart⟩
        | cons c start =>
          obtain ⟨rfl, -⟩ := List.cons_eq_cons.mp hrun
          exact List.isChain_cons_cons.mpr ⟨hnext, hstart⟩
      · exact ⟨[], a, b, more, rfl, List.IsChain.singleton a, hnext⟩

namespace Ordered

variable {a b : α × ℕ} {l l' t before rest : List (α × ℕ)}

theorem sublist (h : Ordered l) (hs : l'.Sublist l) : Ordered l' := List.Pairwise.sublist hs h

theorem of_cons (h : Ordered (a :: l)) : Ordered l := h.sublist (List.sublist_cons_self a l)

theorem lt_of_mem (h : Ordered (a :: l)) (hb : b ∈ l) : a.2 < b.2 :=
  (List.pairwise_cons.mp h).1 b hb

/-- The item at the next place comes next. -/
theorem eq_cons_of_mem (h : Ordered (a :: t)) (hb : b ∈ t) (hnext : b.2 = a.2 + 1) :
    ∃ t', t = b :: t' := by
  cases t with
  | nil => cases hb
  | cons c t =>
    rcases List.mem_cons.mp hb with rfl | hb
    · exact ⟨t, rfl⟩
    · have hc : a.2 < c.2 := h.lt_of_mem List.mem_cons_self
      have hcb : c.2 < b.2 := h.of_cons.lt_of_mem hb
      omega

end Ordered

/-- A list with an unbroken run and what follows in it goes on with that run. -/
theorem exists_of_unbroken_cons {a : α × ℕ} {run rest t : List (α × ℕ)} (hl : Ordered (a :: t))
    (hrun : Unbroken (a :: run)) (hsub : (run ++ rest).Sublist t) :
    ∃ rest₁, t = run ++ rest₁ ∧ rest.Sublist rest₁ := by
  induction run generalizing a t with
  | nil => exact ⟨t, rfl, hsub⟩
  | cons b run ih =>
    obtain ⟨hnext, hrun⟩ := List.isChain_cons_cons.mp hrun
    obtain ⟨t', rfl⟩ := hl.eq_cons_of_mem (hsub.subset List.mem_cons_self) hnext
    obtain ⟨rest₁, rfl, hrest⟩ := ih hl.of_cons hrun (List.cons_sublist_cons.mp hsub)
    exact ⟨rest₁, rfl, hrest⟩

/-- **An unbroken run among the items of a list** is a stretch of the list, between what stands
before it and after it. -/
theorem exists_of_unbroken {before run after l : List (α × ℕ)} (hl : Ordered l)
    (hrun : Unbroken run) (hne : run ≠ []) (hsub : (before ++ run ++ after).Sublist l) :
    ∃ u v, l = u ++ run ++ v ∧ before.Sublist u ∧ after.Sublist v := by
  rw [List.append_assoc] at hsub
  obtain ⟨l₁, l₂, rfl, hbefore, hsub⟩ := List.append_sublist_iff.mp hsub
  cases run with
  | nil => exact absurd rfl hne
  | cons a run =>
    rw [List.cons_append] at hsub
    obtain ⟨r₁, r₂, rfl, hmem, hlater⟩ := List.cons_sublist_iff.mp hsub
    obtain ⟨p, q, rfl⟩ := List.append_of_mem hmem
    have hordered : Ordered (a :: (q ++ r₂)) := by
      refine hl.sublist ?_
      simp
    obtain ⟨v, hv, hafter⟩ := exists_of_unbroken_cons hordered hrun
      (hlater.trans (List.sublist_append_right q r₂))
    refine ⟨l₁ ++ p, v, ?_, hbefore.trans (List.sublist_append_left l₁ p), hafter⟩
    simp [hv]

/-- **An unbroken run that a deletion leaves** stood in the list. No match began there, and what
follows the run is what the deletion leaves of what followed it.

**Proof sketch.** The first item stands where no match begins. After it, induction on the run: the
next item is left, so it stands in the list, and by its place it comes next; a match that began
there would have taken it. -/
theorem sub_layer {m : List (α × ℕ) → ℕ} {before run rest l : List (α × ℕ)} (hl : Ordered l)
    (hrun : Unbroken run) (hne : run ≠ []) (h : sub m [] l = before ++ run ++ rest) :
    ∃ before₁ rest₁, l = before₁ ++ run ++ rest₁ ∧ rest = sub m [] rest₁ ∧
      m (run ++ rest₁) = 0 := by
  have hfollow : ∀ (run : List (α × ℕ)) (a : α × ℕ) (t : List (α × ℕ)), Ordered (a :: t) →
      Unbroken (a :: run) → run ++ rest = sub m [] t →
        ∃ rest₁, t = run ++ rest₁ ∧ rest = sub m [] rest₁ := by
    intro run
    induction run with
    | nil => exact fun a t _ _ heq => ⟨t, rfl, heq⟩
    | cons b run ih =>
      intro a t hordered hchain heq
      obtain ⟨hnext, hchain⟩ := List.isChain_cons_cons.mp hchain
      have hmem : b ∈ sub m [] t := heq ▸ List.mem_cons_self
      obtain ⟨t', rfl⟩ := hordered.eq_cons_of_mem ((sub_nil_sublist t).subset hmem) hnext
      have hnone : m (b :: t') = 0 := by
        by_contra hm
        obtain ⟨n, hn⟩ := Nat.exists_eq_succ_of_ne_zero hm
        rw [sub_of_match (List.cons_ne_nil b t') hm, hn, List.nil_append,
          List.drop_succ_cons] at hmem
        have hlater := (List.drop_sublist n t').subset ((sub_nil_sublist _).subset hmem)
        exact Nat.lt_irrefl _ (hordered.of_cons.lt_of_mem hlater)
      rw [sub_of_noMatch hnone, List.cons_append, List.cons_eq_cons] at heq
      obtain ⟨rest₁, rfl, hrest⟩ := ih b t' hordered.of_cons hchain heq.2
      exact ⟨rest₁, rfl, hrest⟩
  cases run with
  | nil => exact absurd rfl hne
  | cons a run =>
    rw [List.append_assoc, List.cons_append] at h
    obtain ⟨before₁, t, rfl, hnone, hs⟩ := exists_of_sub_nil h
    have hordered : Ordered (a :: t) := hl.sublist (List.sublist_append_right before₁ _)
    obtain ⟨rest₁, rfl, hrest⟩ := hfollow run a t hordered hrun hs
    exact ⟨before₁, rest₁, by rw [List.append_assoc, List.cons_append], hrest, hnone⟩

end Lib
