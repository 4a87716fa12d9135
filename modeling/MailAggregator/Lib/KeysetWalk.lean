import MailAggregator.Lib.Keyset

set_option relaxedAutoImplicit false
set_option autoImplicit false

/-!
# Walks by keyset pages

A consumer requests page after page, each one with the cursor that the last one handed back, until
a page is not full. Rows may disappear between the requests.

## Main definitions

* `Keyset.walk` — the pages of a walk over tables that change between the requests.
* `Keyset.Shrinking` — tables that only lose rows, with distinct keys.

## Main results

* `Keyset.walk_isSome` — a walk ends.
* `Keyset.walk_pairwise_lt` — it returns rows in strictly increasing order of their keys.
* `Keyset.mem_flatten_of_walk` — it returns every row that stays until it ends.
* `Keyset.mem_of_walk` — it returns no other row than those of the tables.
-/

namespace Keyset

universe u v

variable {α : Type u} {κ : Type v} [LinearOrder κ] (key : α → κ)

/-- The pages of a walk from a cursor on, of which the first is a page of the table `t i`; `none` if
more requests than `fuel` are needed. -/
def walk (limit : ℕ) (t : ℕ → List α) : ℕ → ℕ → Option κ → Option (List (List α))
  | 0, _, _ => none
  | fuel + 1, i, cursor =>
    if (page key cursor limit (t i)).length = limit then
      (walk limit t fuel (i + 1) (nextCursor key cursor (page key cursor limit (t i)))).map
        fun pages => page key cursor limit (t i) :: pages
    else some [page key cursor limit (t i)]

/-- Tables that only lose rows, with distinct keys. -/
structure Shrinking (t : ℕ → List α) : Prop where
  subset : ∀ i, t (i + 1) ⊆ t i
  nodup : ∀ i, ((t i).map key).Nodup

variable {key} {cursor : Option κ} {limit fuel i : ℕ} {t : ℕ → List α} {pages : List (List α)}

/-! ## The page at hand -/

/-- The cursor after a page with rows: no row of the page lies beyond it, and it lies beyond the
old one. -/
theorem exists_cursor_of_full (hlimit : 0 < limit)
    (hfull : (page key cursor limit (t i)).length = limit) :
    ∃ r ∈ page key cursor limit (t i),
      nextCursor key cursor (page key cursor limit (t i)) = some (key r) ∧
      ∀ a ∈ page key cursor limit (t i), key a ≤ key r := by
  refine exists_nextCursor (List.ne_nil_of_length_pos ?_)
  omega

/-- A page that is not full has all rows beyond its cursor. -/
theorem page_eq_sorted (hnot : (page key cursor limit (t i)).length ≠ limit) :
    page key cursor limit (t i) = sorted key cursor (t i) := by
  rw [page] at hnot ⊢
  rw [List.length_take] at hnot
  exact List.take_of_length_le (by omega)

/-- What a request does: the page that is not full ends the walk; a full page is followed by the
rest of the walk. -/
theorem walk_cases (hlimit : 0 < limit) (h : walk key limit t fuel i cursor = some pages) :
    ∃ fuel', fuel = fuel' + 1 ∧
      (pages = [sorted key cursor (t i)] ∧ page key cursor limit (t i) = sorted key cursor (t i) ∨
        ∃ r ∈ page key cursor limit (t i), ∃ rest,
          (∀ a ∈ page key cursor limit (t i), key a ≤ key r) ∧
          walk key limit t fuel' (i + 1) (some (key r)) = some rest ∧
          pages = page key cursor limit (t i) :: rest) := by
  cases fuel with
  | zero => cases h
  | succ fuel =>
    refine ⟨fuel, rfl, ?_⟩
    rw [walk] at h
    by_cases hfull : (page key cursor limit (t i)).length = limit
    · rw [if_pos hfull, Option.map_eq_some_iff] at h
      obtain ⟨rest, hrest, rfl⟩ := h
      obtain ⟨r, hr, hnext, hle⟩ := exists_cursor_of_full hlimit hfull
      rw [hnext] at hrest
      exact Or.inr ⟨r, hr, rest, hle, hrest, rfl⟩
    · rw [if_neg hfull] at h
      cases h
      have hall := page_eq_sorted hfull
      exact Or.inl ⟨by rw [hall], hall⟩

/-! ## The end of a walk -/

/-- The rows beyond the cursor become fewer with each full page. -/
theorem countP_beyond_lt {r : α} (ht : Shrinking key t) (hr : r ∈ page key cursor limit (t i)) :
    (t (i + 1)).countP (fun a => Beyond (some (key r)) (key a)) <
      (t i).countP fun a => Beyond cursor (key a) := by
  obtain ⟨hmem, hbeyond⟩ := mem_of_mem_page hr
  have hnodup : (((t (i + 1)).filter fun a => Beyond (some (key r)) (key a)).map key).Nodup :=
    (ht.nodup (i + 1)).sublist (List.filter_sublist.map key)
  have hnew : r ∉ (t (i + 1)).filter fun a => Beyond (some (key r)) (key a) := by
    simp
  have hsub : r :: ((t (i + 1)).filter fun a => Beyond (some (key r)) (key a)) ⊆
      (t i).filter fun a => Beyond cursor (key a) := by
    intro a ha
    rcases List.mem_cons.mp ha with rfl | ha
    · exact List.mem_filter.mpr ⟨hmem, by simpa using hbeyond⟩
    · obtain ⟨hat, hlt⟩ := List.mem_filter.mp ha
      refine List.mem_filter.mpr ⟨ht.subset i hat, decide_eq_true fun c hc => ?_⟩
      exact (hbeyond c hc).trans (by simpa using hlt)
  have hle := (List.subperm_of_subset
    (List.nodup_cons.mpr ⟨hnew, List.Nodup.of_map key hnodup⟩) hsub).length_le
  rw [List.countP_eq_length_filter, List.countP_eq_length_filter]
  exact hle

/-- **A walk ends**, within one request more than there are rows beyond its cursor. -/
theorem walk_isSome (hlimit : 0 < limit) (ht : Shrinking key t)
    (hfuel : (t i).countP (fun a => Beyond cursor (key a)) < fuel) :
    (walk key limit t fuel i cursor).isSome := by
  induction fuel generalizing i cursor with
  | zero => omega
  | succ fuel ih =>
    rw [walk]
    by_cases hfull : (page key cursor limit (t i)).length = limit
    · obtain ⟨r, hr, hnext, -⟩ := exists_cursor_of_full hlimit hfull
      have hlt := countP_beyond_lt ht hr
      rw [if_pos hfull, hnext, Option.isSome_map]
      exact ih (by omega)
    · rw [if_neg hfull]
      rfl

/-! ## The rows of a walk -/

/-- A page is in strictly increasing order. -/
theorem page_pairwise_lt (ht : Shrinking key t) :
    (page key cursor limit (t i)).Pairwise fun a b => key a < key b :=
  (sorted_pairwise_lt (ht.nodup i)).sublist (List.take_sublist limit _)

/-- The rows of a walk lie beyond its cursor. -/
theorem beyond_of_walk (hlimit : 0 < limit) (h : walk key limit t fuel i cursor = some pages) :
    ∀ a ∈ pages.flatten, Beyond cursor (key a) := by
  induction fuel generalizing i cursor pages with
  | zero => cases h
  | succ fuel ih =>
    obtain ⟨fuel', hfuel, ⟨rfl, -⟩ | ⟨r, hr, rest, -, hrest, rfl⟩⟩ := walk_cases hlimit h
    · intro a ha
      rw [List.flatten_singleton] at ha
      exact (mem_sorted.mp ha).2
    · obtain rfl := Nat.succ.inj hfuel
      intro a ha
      rw [List.flatten_cons, List.mem_append] at ha
      rcases ha with ha | ha
      · exact (mem_of_mem_page ha).2
      · intro c hc
        have hlt : key r < key a := by simpa using ih hrest a ha
        exact ((mem_of_mem_page hr).2 c hc).trans hlt

/-- **A walk returns its rows in strictly increasing order**, so it returns none twice.

**Proof sketch.** Induction on the requests. The first page is in order, its rows do not lie beyond
the next cursor, and those of the later pages do. -/
theorem walk_pairwise_lt (hlimit : 0 < limit) (ht : Shrinking key t)
    (h : walk key limit t fuel i cursor = some pages) :
    pages.flatten.Pairwise fun a b => key a < key b := by
  induction fuel generalizing i cursor pages with
  | zero => cases h
  | succ fuel ih =>
    obtain ⟨fuel', hfuel, ⟨rfl, -⟩ | ⟨r, hr, rest, hle, hrest, rfl⟩⟩ := walk_cases hlimit h
    · rw [List.flatten_singleton]
      exact sorted_pairwise_lt (ht.nodup i)
    · obtain rfl := Nat.succ.inj hfuel
      rw [List.flatten_cons, List.pairwise_append]
      refine ⟨page_pairwise_lt ht, ih hrest, fun a ha b hb => ?_⟩
      have hlt : key r < key b := by simpa using beyond_of_walk hlimit hrest b hb
      exact (hle a ha).trans_lt hlt

/-- **A walk returns every row that stays until it ends.**

**Proof sketch.** Induction on the requests. A row up to the next cursor is on the page, as a page
skips nothing; another one lies beyond it and is returned by the rest of the walk. A page that is
not full has all rows beyond its cursor. -/
theorem mem_flatten_of_walk (hlimit : 0 < limit) (ht : Shrinking key t)
    (h : walk key limit t fuel i cursor = some pages) {a : α}
    (hstays : ∀ j < pages.length, a ∈ t (i + j)) (hbeyond : Beyond cursor (key a)) :
    a ∈ pages.flatten := by
  induction fuel generalizing i cursor pages with
  | zero => cases h
  | succ fuel ih =>
    obtain ⟨fuel', hfuel, ⟨rfl, -⟩ | ⟨r, hr, rest, hle, hrest, rfl⟩⟩ := walk_cases hlimit h
    · rw [List.flatten_singleton]
      exact mem_sorted.mpr ⟨hstays 0 (by simp), hbeyond⟩
    · obtain rfl := Nat.succ.inj hfuel
      rw [List.flatten_cons, List.mem_append]
      by_cases hpassed : key a ≤ key r
      · have hmem : a ∈ t i := hstays 0 (by simp)
        exact Or.inl (mem_page_of_le (ht.nodup i) hr hmem hbeyond hpassed)
      · refine Or.inr (ih hrest (fun j hj => ?_) ?_)
        · have hlater := hstays (j + 1) (by simpa using hj)
          rwa [← Nat.add_assoc, Nat.add_right_comm] at hlater
        · simpa using hpassed

/-- **A walk returns rows of its tables only.** -/
theorem mem_of_walk (hlimit : 0 < limit) (h : walk key limit t fuel i cursor = some pages) {a : α}
    (ha : a ∈ pages.flatten) : ∃ j < pages.length, a ∈ t (i + j) := by
  induction fuel generalizing i cursor pages with
  | zero => cases h
  | succ fuel ih =>
    obtain ⟨fuel', hfuel, ⟨rfl, -⟩ | ⟨r, -, rest, -, hrest, rfl⟩⟩ := walk_cases hlimit h
    · rw [List.flatten_singleton] at ha
      exact ⟨0, by simp, (mem_sorted.mp ha).1⟩
    · obtain rfl := Nat.succ.inj hfuel
      rw [List.flatten_cons, List.mem_append] at ha
      rcases ha with ha | ha
      · exact ⟨0, by simp, (mem_of_mem_page ha).1⟩
      · obtain ⟨j, hj, hmem⟩ := ih hrest ha
        refine ⟨j + 1, by simpa using hj, ?_⟩
        rwa [← Nat.add_assoc, Nat.add_right_comm]

end Keyset
