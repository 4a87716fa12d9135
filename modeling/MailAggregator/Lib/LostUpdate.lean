import Mathlib.Data.List.Basic

set_option relaxedAutoImplicit false
set_option autoImplicit false

/-!
# Lost updates

A row is a function from columns to values. A request asks for the values of some columns, and
commits a write of those and possibly of other columns. A write undoes an earlier request if it
changes a column that the earlier one asked for.

## Main definitions

* `LostUpdate.write` — a row after a partial write.
* `LostUpdate.Kept` — the committed requests have what they asked for.
* `LostUpdate.Harmless` — a write changes no column that a committed request asked for.

## Main results

* `LostUpdate.kept_write_iff` — a commit keeps what was asked for exactly when its write is
harmless. -/

namespace LostUpdate

variable {κ ν ι : Type*}

/-- The row after a write of some columns. -/
def write (row : κ → ν) (w : κ → Option ν) : κ → ν := fun c => (w c).getD (row c)

variable (asked : ι → κ → Option ν) (committed : List ι) (row : κ → ν)

/-- Every column that a committed request asked for holds the value that it asked for. -/
def Kept : Prop := ∀ i ∈ committed, ∀ c v, asked i c = some v → row c = v

/-- Every column that is written and that a committed request asked for holds the written value
already. -/
def Harmless (w : κ → Option ν) : Prop :=
  ∀ c v, w c = some v → (∃ i ∈ committed, asked i c ≠ none) → row c = v

variable {asked committed row}

/-- **Exactly the harmless writes keep what was asked for**, if a request writes what it asks for
itself.

**Proof sketch.** A column that a committed request asked for holds what that request asked for. So
after a write of the column it still does exactly when the written value is the one it held. -/
theorem kept_write_iff (h : Kept asked committed row) {i : ι} {w : κ → Option ν}
    (hw : ∀ c v, asked i c = some v → w c = some v) :
    Kept asked (i :: committed) (write row w) ↔ Harmless asked committed row w := by
  constructor
  · rintro hkept c v hwc ⟨j, hj, hasked⟩
    obtain ⟨v', hv'⟩ := Option.ne_none_iff_exists'.mp hasked
    have hnew := hkept j (List.mem_cons_of_mem _ hj) c v' hv'
    have hold := h j hj c v' hv'
    rw [write, hwc, Option.getD_some] at hnew
    rw [hold, hnew]
  · intro hharmless j hj c v hv
    rcases List.mem_cons.mp hj with rfl | hj
    · rw [write, hw c v hv, Option.getD_some]
    · have hold := h j hj c v hv
      cases hwc : w c with
      | none => rw [write, hwc, Option.getD_none, hold]
      | some v' =>
        have hsame := hharmless c v' hwc ⟨j, hj, by rw [hv]; exact Option.some_ne_none v⟩
        rw [write, hwc, Option.getD_some, ← hsame, hold]

end LostUpdate
