import Mathlib.Data.List.Basic
import Mathlib.Data.List.Nodup
import Mathlib.Data.List.Count

set_option relaxedAutoImplicit false
set_option autoImplicit false

/-!
# Keys up to a normal form

Rows have an id and a key. A database keeps the keys apart; a lookup compares their normal forms,
and expects at most one row. Whether a write keeps the normal forms apart as well depends on how the
other rows spell the new key.

## Main definitions

* `NormalKey.Unique` — rows with one normal form have one id.
* `NormalKey.Taken` — another row has the key itself.
* `NormalKey.SpelledAlike` — another row with the normal form of a key has the key itself.

## Main results

* `NormalKey.unique_put_iff` — which writes keep the normal forms apart.
* `NormalKey.unique_iff_length_filter_le_one` — a lookup finds at most one row.
-/

namespace NormalKey

variable {α ι κ ν : Type*} (ident : α → ι) (key : α → κ) (norm : κ → ν)

/-- Rows with one normal form have one id. -/
def Unique (rows : List α) : Prop :=
  ∀ a ∈ rows, ∀ b ∈ rows, norm (key a) = norm (key b) → ident a = ident b

/-- Another row than `i` has the key. -/
def Taken (rows : List α) (i : ι) (k : κ) : Prop := ∃ b ∈ rows, ident b ≠ i ∧ key b = k

/-- Another row than `i` with the normal form of the key has the key itself. -/
def SpelledAlike (rows : List α) (i : ι) (k : κ) : Prop :=
  ∀ b ∈ rows, ident b ≠ i → norm (key b) = norm k → key b = k

variable {ident key norm} {rows rows' : List α}

/-- Fewer rows are still apart. -/
theorem Unique.mono (h : Unique ident key norm rows) (hsub : ∀ a ∈ rows', a ∈ rows) :
    Unique ident key norm rows' :=
  fun a ha b hb hnorm => h a (hsub a ha) b (hsub b hb) hnorm

/-- **A write keeps the normal forms apart** exactly when the other rows with the normal form of the
new key spell it alike, if the database has let it pass.

**Proof sketch.** A row that spells the new key alike is one that the database would have refused
the write for. So there is no other row with its normal form, and the rows that are left were apart
before. -/
theorem unique_put_iff (h : Unique ident key norm rows) {r : α}
    (hput : ∀ a, a ∈ rows' ↔ a = r ∨ a ∈ rows ∧ ident a ≠ ident r)
    (hfree : ¬ Taken ident key rows (ident r) (key r)) :
    Unique ident key norm rows' ↔ SpelledAlike ident key norm rows (ident r) (key r) := by
  have hr : r ∈ rows' := (hput r).mpr (Or.inl rfl)
  constructor
  · intro hunique b hb hne hnorm
    have hb' : b ∈ rows' := (hput b).mpr (Or.inr ⟨hb, hne⟩)
    exact absurd (hunique b hb' r hr hnorm) hne
  · intro halike
    have hother : ∀ b ∈ rows, ident b ≠ ident r → norm (key b) ≠ norm (key r) :=
      fun b hb hne hnorm => hfree ⟨b, hb, hne, halike b hb hne hnorm⟩
    intro a ha b hb hnorm
    rcases (hput a).mp ha with rfl | ⟨ha, hane⟩
    · rcases (hput b).mp hb with rfl | ⟨hb, hbne⟩
      · rfl
      · exact absurd hnorm.symm (hother b hb hbne)
    · rcases (hput b).mp hb with rfl | ⟨hb, hbne⟩
      · exact absurd hnorm (hother a ha hane)
      · exact h a ha b hb hnorm

/-- **A lookup finds at most one row** exactly when the normal forms are apart.

**Proof sketch.** Two rows of one normal form are two elements of the filtered list, with different
identities; so the list has at most one element exactly if rows with one normal form are the same
row. -/
theorem unique_iff_length_filter_le_one [DecidableEq ν] (hn : (rows.map ident).Nodup) :
    Unique ident key norm rows ↔ ∀ n, (rows.filter fun a => norm (key a) = n).length ≤ 1 := by
  constructor
  · intro h n
    have hnodup := hn.sublist (List.filter_sublist (p := fun a => norm (key a) = n).map ident)
    match hfound : rows.filter fun a => norm (key a) = n with
    | [] => simp
    | [a] => simp
    | a :: b :: bs =>
      have ha : a ∈ rows.filter fun a => norm (key a) = n := by simp [hfound]
      have hb : b ∈ rows.filter fun a => norm (key a) = n := by simp [hfound]
      simp only [List.mem_filter, decide_eq_true_eq] at ha hb
      have hid := h a ha.1 b hb.1 (ha.2.trans hb.2.symm)
      rw [hfound] at hnodup
      simp [hid] at hnodup
  · intro h a ha b hb hnorm
    have ha' : a ∈ rows.filter fun a => norm (key a) = norm (key b) :=
      List.mem_filter.mpr ⟨ha, decide_eq_true hnorm⟩
    have hb' : b ∈ rows.filter fun a => norm (key a) = norm (key b) :=
      List.mem_filter.mpr ⟨hb, decide_eq_true rfl⟩
    obtain ⟨i, hi, rfl⟩ := List.getElem_of_mem ha'
    obtain ⟨j, hj, hij⟩ := List.getElem_of_mem hb'
    have hone := h (norm (key b))
    obtain rfl : i = j := by omega
    rw [hij]

end NormalKey
