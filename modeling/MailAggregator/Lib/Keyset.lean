import Mathlib.Data.List.Sort
import Mathlib.Order.Basic

set_option relaxedAutoImplicit false
set_option autoImplicit false

/-!
# Keyset pages

A keyset page of a table is what `WHERE key > cursor ORDER BY key LIMIT n` returns, and the next
cursor is the key of its last row. The table is a list of rows with a key in a linear order; a
descending page is a page over the order dual of the key.

## Main definitions

* `Keyset.Beyond` — a key lies strictly after an optional cursor.
* `Keyset.page` — the page after a cursor.
* `Keyset.nextCursor` — the cursor a page hands back.

## Main results

* `Keyset.mem_page_iff` — a row is on the page exactly when it lies beyond the cursor and fewer
  than `limit` rows lie between the two.
* `Keyset.mem_page_of_le_nextCursor` — a page skips no row of its table.
* `Keyset.page_key_nodup` — a page repeats no key.
-/

namespace Keyset

universe u v

variable {α : Type u} {κ : Type v} [LinearOrder κ] (key : α → κ)

/-- The key `k` lies strictly after the cursor; every key lies after a missing cursor. -/
def Beyond (cursor : Option κ) (k : κ) : Prop := ∀ c ∈ cursor, c < k

instance (cursor : Option κ) (k : κ) : Decidable (Beyond cursor k) :=
  inferInstanceAs (Decidable (∀ c ∈ cursor, c < k))

@[simp] theorem beyond_some (c k : κ) : Beyond (some c) k ↔ c < k := by
  simp [Beyond]

@[simp] theorem beyond_none (k : κ) : Beyond none k := by
  simp [Beyond]

/-- The rows beyond the cursor, in increasing order of their keys. -/
def sorted (cursor : Option κ) (rows : List α) : List α :=
  (rows.filter fun r => Beyond cursor (key r)).insertionSort fun a b => key a ≤ key b

/-- The first `limit` rows beyond the cursor, in increasing order of their keys. -/
def page (cursor : Option κ) (limit : ℕ) (rows : List α) : List α :=
  (sorted key cursor rows).take limit

/-- The key of the last row of a page, or the old cursor if the page is empty. -/
def nextCursor (cursor : Option κ) (pg : List α) : Option κ :=
  match pg.getLast? with
  | some r => some (key r)
  | none => cursor

variable {key} {cursor : Option κ} {limit : ℕ} {rows : List α}

/-! ## The sorted rows -/

theorem mem_sorted {r : α} : r ∈ sorted key cursor rows ↔ r ∈ rows ∧ Beyond cursor (key r) := by
  simp [sorted]

theorem sorted_perm :
    (sorted key cursor rows).Perm (rows.filter fun r => Beyond cursor (key r)) :=
  List.perm_insertionSort _ _

/-- The sorted rows are ordered by their keys. -/
theorem sorted_pairwise_le : (sorted key cursor rows).Pairwise fun a b => key a ≤ key b := by
  have : Std.Total fun a b : α => key a ≤ key b := ⟨fun a b => le_total (key a) (key b)⟩
  have : IsTrans α fun a b : α => key a ≤ key b := ⟨fun _ _ _ h h' => le_trans h h'⟩
  exact List.pairwise_insertionSort _ _

/-- With distinct keys the order of the sorted rows is strict. -/
theorem sorted_pairwise_lt (hn : (rows.map key).Nodup) :
    (sorted key cursor rows).Pairwise fun a b => key a < key b := by
  have hmap : ((sorted key cursor rows).map key).Nodup := by
    rw [(sorted_perm.map key).nodup_iff]
    exact hn.sublist (List.filter_sublist.map key)
  rw [List.Nodup, List.pairwise_map] at hmap
  exact (sorted_pairwise_le.and hmap).imp fun h => lt_of_le_of_ne h.1 h.2

/-! ## Membership of a page -/

theorem mem_of_mem_page {r : α} (h : r ∈ page key cursor limit rows) :
    r ∈ rows ∧ Beyond cursor (key r) :=
  mem_sorted.mp (List.mem_of_mem_take h)

/-- In a strictly increasing list, the first `n` elements are the ones that fewer than `n`
elements precede.

**Proof sketch.** Induction over the list. Nothing precedes its head, and its head precedes
everything else, so that the number of the elements before another one is one more than in the
tail. -/
theorem mem_take_iff_countP_lt {l : List α} (hl : l.Pairwise fun a b => key a < key b) {r : α}
    (n : ℕ) : r ∈ l.take n ↔ r ∈ l ∧ l.countP (fun a => key a < key r) < n := by
  induction l generalizing n with
  | nil => simp
  | cons a l ih =>
    rw [List.pairwise_cons] at hl
    obtain ⟨ha, hl⟩ := hl
    cases n with
    | zero => simp
    | succ n =>
      rw [List.take_succ_cons, List.mem_cons, ih hl n, List.mem_cons, List.countP_cons]
      by_cases hr : r = a
      · -- nothing precedes the head
        subst hr
        have hz : l.countP (fun b => decide (key b < key r)) = 0 := by
          rw [List.countP_eq_zero]
          intro b hb
          simpa using (ha b hb).le
        simp [hz]
      · constructor
        · rintro (rfl | ⟨hmem, hc⟩)
          · exact absurd rfl hr
          · refine ⟨Or.inr hmem, ?_⟩
            have : decide (key a < key r) = true := decide_eq_true (ha r hmem)
            rw [this]
            simp only [if_true]
            omega
        · rintro ⟨rfl | hmem, hc⟩
          · exact absurd rfl hr
          · have : decide (key a < key r) = true := decide_eq_true (ha r hmem)
            rw [this] at hc
            simp only [if_true] at hc
            exact Or.inr ⟨hmem, by omega⟩

/-- **The rows of a page**: a row is on the page exactly when it lies beyond the cursor and fewer
than `limit` rows lie between the cursor and it. -/
theorem mem_page_iff (hn : (rows.map key).Nodup) {r : α} :
    r ∈ page key cursor limit rows ↔
      r ∈ rows ∧ Beyond cursor (key r) ∧
        rows.countP (fun a => Beyond cursor (key a) ∧ key a < key r) < limit := by
  have hcount : (sorted key cursor rows).countP (fun a => key a < key r) =
      rows.countP (fun a => Beyond cursor (key a) ∧ key a < key r) := by
    rw [sorted_perm.countP_eq, List.countP_filter]
    congr 1
    funext a
    simp [Bool.and_comm]
  rw [page, mem_take_iff_countP_lt (sorted_pairwise_lt hn), mem_sorted, hcount, and_assoc]

/-- A page of rows that are determined up to their key by `f` is a page of the images. -/
theorem map_page {β : Type*} (f : β → α) (rows : List β) :
    (page (key ∘ f) cursor limit rows).map f = page key cursor limit (rows.map f) := by
  simp only [page, sorted, List.map_take, List.filter_map]
  congr 1
  exact List.map_insertionSort _ _ _ _ fun _ _ _ _ => Iff.rfl

/-- A page repeats no key. -/
theorem page_key_nodup (hn : (rows.map key).Nodup) :
    ((page key cursor limit rows).map key).Nodup := by
  have hsorted : (sorted key cursor rows).Pairwise fun a b => key a < key b :=
    sorted_pairwise_lt hn
  have h := (hsorted.sublist (List.take_sublist limit _)).imp fun h => ne_of_lt h
  exact List.pairwise_map.mpr h

/-! ## The cursor -/

/-- The next cursor of a page that has rows is the key of one of them, and no row of the page
lies beyond it. -/
theorem exists_nextCursor (h : page key cursor limit rows ≠ []) :
    ∃ r ∈ page key cursor limit rows,
      nextCursor key cursor (page key cursor limit rows) = some (key r) ∧
      ∀ a ∈ page key cursor limit rows, key a ≤ key r := by
  refine ⟨(page key cursor limit rows).getLast h, List.getLast_mem h, ?_, fun a ha => ?_⟩
  · rw [nextCursor, List.getLast?_eq_some_getLast h]
  · have hp : (page key cursor limit rows).Pairwise fun a b => key a ≤ key b :=
      sorted_pairwise_le.sublist (List.take_sublist limit _)
    rw [← List.dropLast_append_getLast h, List.mem_append, List.mem_singleton] at ha
    rw [← List.dropLast_append_getLast h, List.pairwise_append] at hp
    rcases ha with ha | rfl
    · exact hp.2.2 a ha _ (List.mem_singleton.mpr rfl)
    · exact le_rfl

/-- **A page skips nothing**: every row between the old cursor and the key of a row of the page
is on the page too. -/
theorem mem_page_of_le {r a : α} (hn : (rows.map key).Nodup)
    (hr : r ∈ page key cursor limit rows) (ha : a ∈ rows) (hb : Beyond cursor (key a))
    (hle : key a ≤ key r) : a ∈ page key cursor limit rows := by
  obtain ⟨_, _, hcount⟩ := (mem_page_iff hn).mp hr
  refine (mem_page_iff hn).mpr ⟨ha, hb, lt_of_le_of_lt (List.countP_mono_left ?_) hcount⟩
  intro x _ hx
  rw [decide_eq_true_eq] at hx ⊢
  exact ⟨hx.1, lt_of_lt_of_le hx.2 hle⟩

end Keyset
