import MailAggregator.Lib.PyText
import Mathlib.Data.Int.Notation
import Mathlib.Tactic.IntervalCases

set_option relaxedAutoImplicit false
set_option autoImplicit false

/-!
# Dates and ISO 8601

The proleptic Gregorian calendar by the ordinals of its days, and the text of a point in time in
UTC.

## Main definitions

* `Calendar.ymd2ord`, `Calendar.ord2ymd` — the ordinal of a date, and the date of an ordinal. The
  first of January of the year 1 has ordinal 1.
* `Calendar.isoUtc` — `datetime.isoformat` in UTC.
* `Calendar.InRange` — the points in time that a `datetime` can be.

## Main results

* `Calendar.ymd2ord_ord2ymd` — the date of an ordinal has that ordinal.
* `Calendar.isoUtc_injective` — different points in time are written differently.
-/

namespace Calendar

open PyText

/-! ## Ordinals -/

/-- `_is_leap(year)`. -/
def isLeap (year : ℕ) : Bool := year % 4 = 0 ∧ (year % 100 ≠ 0 ∨ year % 400 = 0)

/-- `_days_before_year(year)`. -/
def daysBeforeYear (year : ℕ) : ℕ :=
  (year - 1) * 365 + (year - 1) / 4 - (year - 1) / 100 + (year - 1) / 400

/-- `_days_in_month`, of a year that is a leap year or not. -/
def daysInMonth (leap : Bool) (month : ℕ) : ℕ :=
  [0, 31, 28, 31, 30, 31, 30, 31, 31, 30, 31, 30, 31].getD month 0 +
    if month = 2 ∧ leap then 1 else 0

/-- `_days_before_month`, of a year that is a leap year or not. -/
def daysBeforeMonth (leap : Bool) (month : ℕ) : ℕ :=
  [0, 0, 31, 59, 90, 120, 151, 181, 212, 243, 273, 304, 334].getD month 0 +
    if 2 < month ∧ leap then 1 else 0

/-- `_ymd2ord(year, month, day)`. -/
def ymd2ord (year month day : ℕ) : ℕ :=
  daysBeforeYear year + daysBeforeMonth (isLeap year) month + day

/-- The month and the day of a day of a year, which is counted from 0. The estimate of the month is
never too small, and at most one too large. -/
def monthAndDay (leap : Bool) (n : ℕ) : ℕ × ℕ :=
  let month := (n + 50) / 32
  let preceding := daysBeforeMonth leap month
  if n < preceding then (month - 1, n - (preceding - daysInMonth leap (month - 1)) + 1)
  else (month, n - preceding + 1)

/-- `_ord2ymd(n)`. -/
def ord2ymd (n : ℕ) : ℕ × ℕ × ℕ :=
  let n := n - 1
  let n400 := n / 146097
  let n := n % 146097
  let n100 := n / 36524
  let n := n % 36524
  let n4 := n / 1461
  let n := n % 1461
  let n1 := n / 365
  let n := n % 365
  let year := n400 * 400 + 1 + n100 * 100 + n4 * 4 + n1
  if n1 = 4 ∨ n100 = 4 then (year - 1, 12, 31)
  else (year, monthAndDay (n1 = 3 ∧ (n4 ≠ 24 ∨ n100 = 3)) n)

/-- What `monthAndDay` finds is a day of the year. -/
theorem monthAndDay_spec (leap : Bool) {n : ℕ} (h : n < 365 + if leap then 1 else 0) :
    daysBeforeMonth leap (monthAndDay leap n).1 + (monthAndDay leap n).2 = n + 1 ∧
      (monthAndDay leap n).1 < 100 ∧ (monthAndDay leap n).2 < 100 := by
  have hall : ∀ leap : Bool, ∀ n < 365 + (if leap then 1 else 0),
      daysBeforeMonth leap (monthAndDay leap n).1 + (monthAndDay leap n).2 = n + 1 ∧
        (monthAndDay leap n).1 < 100 ∧ (monthAndDay leap n).2 < 100 := by
    decide +kernel
  exact hall leap n h

/-- The year of a cycle of 400, 100 and 4 years, and the days before it. -/
theorem daysBeforeYear_eq {n400 n100 n4 n1 : ℕ} (h100 : n100 ≤ 3) (h4 : n4 ≤ 24) (h1 : n1 ≤ 3) :
    daysBeforeYear (n400 * 400 + 1 + n100 * 100 + n4 * 4 + n1) =
      n400 * 146097 + n100 * 36524 + n4 * 1461 + n1 * 365 := by
  unfold daysBeforeYear
  omega

theorem isLeap_eq {n400 n100 n4 n1 : ℕ} (h100 : n100 ≤ 3) (h4 : n4 ≤ 24) (h1 : n1 ≤ 3) :
    isLeap (n400 * 400 + 1 + n100 * 100 + n4 * 4 + n1) =
      decide (n1 = 3 ∧ (n4 ≠ 24 ∨ n100 = 3)) := by
  rw [isLeap, decide_eq_decide]
  omega

/-- **The date of an ordinal has that ordinal.**

**Proof sketch.** The four divisions split the days before the date into whole cycles of 400, 100, 4
and 1 years and a rest. A fourth cycle of 100 years or a fourth year is the last day of a leap year,
and otherwise the rest is a day of the year. -/
theorem ymd2ord_ord2ymd {n : ℕ} (h : 0 < n) :
    ymd2ord (ord2ymd n).1 (ord2ymd n).2.1 (ord2ymd n).2.2 = n ∧
      (ord2ymd n).2.1 < 100 ∧ (ord2ymd n).2.2 < 100 := by
  unfold ord2ymd
  dsimp only
  generalize h400 : (n - 1) / 146097 = n400
  generalize hr400 : (n - 1) % 146097 = r400
  generalize h100 : r400 / 36524 = n100
  generalize hr100 : r400 % 36524 = r100
  generalize h4 : r100 / 1461 = n4
  generalize hr4 : r100 % 1461 = r4
  generalize h1 : r4 / 365 = n1
  generalize hr : r4 % 365 = r
  have hsplit : n = n400 * 146097 + n100 * 36524 + n4 * 1461 + n1 * 365 + r + 1 := by omega
  by_cases hfourth : n100 = 4
  · -- The last day of a cycle of 400 years.
    have hyear : n400 * 400 + 1 + n100 * 100 + n4 * 4 + n1 - 1 =
        n400 * 400 + 1 + 3 * 100 + 24 * 4 + 3 := by omega
    rw [if_pos (Or.inr hfourth), hyear]
    refine ⟨?_, (by decide : 12 < 100), (by decide : 31 < 100)⟩
    rw [ymd2ord, daysBeforeYear_eq (by decide) (by decide) (by decide),
      isLeap_eq (by decide) (by decide) (by decide)]
    simp [daysBeforeMonth]
    omega
  by_cases hfour : n1 = 4
  · -- The last day of a cycle of 4 years.
    have hyear : n400 * 400 + 1 + n100 * 100 + n4 * 4 + n1 - 1 =
        n400 * 400 + 1 + n100 * 100 + n4 * 4 + 3 := by omega
    have hleap : n4 ≠ 24 ∨ n100 = 3 := by omega
    rw [if_pos (Or.inl hfour), hyear]
    refine ⟨?_, (by decide : 12 < 100), (by decide : 31 < 100)⟩
    rw [ymd2ord, daysBeforeYear_eq (by omega) (by omega) (by decide),
      isLeap_eq (by omega) (by omega) (by decide)]
    simp [daysBeforeMonth, hleap]
    omega
  · have hday : r < 365 + if (decide (n1 = 3 ∧ (n4 ≠ 24 ∨ n100 = 3)) : Bool) then 1 else 0 := by
      omega
    obtain ⟨hsum, hmonth, hd⟩ := monthAndDay_spec _ hday
    rw [if_neg (not_or.mpr ⟨hfour, hfourth⟩)]
    refine ⟨?_, hmonth, hd⟩
    dsimp only
    rw [ymd2ord, daysBeforeYear_eq (by omega) (by omega) (by omega),
      isLeap_eq (by omega) (by omega) (by omega)]
    omega

/-- Days are counted from 1. -/
theorem day_pos (n : ℕ) : 0 < (ord2ymd n).2.2 := by
  unfold ord2ymd monthAndDay
  dsimp only
  split_ifs <;> exact Nat.succ_pos _

/-- The years of the ordinals that a `datetime` has. -/
theorem ord2ymd_fst_lt {n : ℕ} (h : 0 < n) (hmax : n ≤ 3652059) : (ord2ymd n).1 < 10000 := by
  have hord := (ymd2ord_ord2ymd h).1
  rw [ymd2ord] at hord
  have hbefore : daysBeforeYear (ord2ymd n).1 ≤ n := by omega
  by_contra hyear
  have hmany : 3652059 ≤ daysBeforeYear (ord2ymd n).1 := by
    unfold daysBeforeYear
    omega
  have hday : 0 < (ord2ymd n).2.2 := day_pos n
  omega

/-- Different ordinals have different dates. -/
theorem ord2ymd_injective {m n : ℕ} (hm : 0 < m) (hn : 0 < n) (h : ord2ymd m = ord2ymd n) :
    m = n := by
  rw [← (ymd2ord_ord2ymd hm).1, h, (ymd2ord_ord2ymd hn).1]

/-! ## Digits -/

/-- A number with zeros in front of it, as `f"{n:0{width}d}"` writes it. -/
def pad (width n : ℕ) : Text := List.replicate (width - (ofNat n).length) '0' ++ ofNat n

theorem length_pad {width n : ℕ} (h : n < 10 ^ width) (hw : 0 < width) :
    (pad width n).length = width := by
  have hle : (ofNat n).length ≤ width := by
    rw [ofNat, Nat.toList_repr, Nat.length_toDigits_le_iff (by decide) hw]
    exact h
  rw [pad, List.length_append, List.length_replicate]
  omega

theorem ofDigitChars_pad (width n : ℕ) : Nat.ofDigitChars 10 (pad width n) 0 = n := by
  rw [pad, Nat.ofDigitChars_append, Nat.ofDigitChars_replicate_zero, Nat.mul_zero, ofNat,
    Nat.toList_repr, Nat.ofDigitChars_ten_toDigits]

/-- Two texts that begin with numbers of one width have the same numbers and the same rest. -/
theorem pad_append_inj {width m n : ℕ} {text text' : Text} (hw : 0 < width) (hm : m < 10 ^ width)
    (hn : n < 10 ^ width) (h : pad width m ++ text = pad width n ++ text') :
    m = n ∧ text = text' := by
  obtain ⟨hpad, htext⟩ := List.append_inj h (by rw [length_pad hm hw, length_pad hn hw])
  refine ⟨?_, htext⟩
  rw [← ofDigitChars_pad width m, hpad, ofDigitChars_pad]

/-! ## ISO 8601 -/

/-- The microseconds of a day. -/
def dayMicroseconds : ℤ := 86400000000

/-- The ordinal of the first of January 1970. -/
def epochOrdinal : ℤ := 719163

/-- The ordinal of the day of a point in time, and the microseconds since the start of the day. -/
def splitDay (t : ℤ) : ℕ × ℕ :=
  ((epochOrdinal + t / dayMicroseconds).toNat, (t % dayMicroseconds).toNat)

/-- The microseconds of `isoformat`, unless there are none. -/
def isoFraction (us : ℕ) : Text := if us = 0 then [] else '.' :: pad 6 us

/-- The time of a day, in microseconds since its start. -/
def isoTime (us : ℕ) : Text :=
  pad 2 (us / 3600000000) ++ ':' :: (pad 2 (us / 60000000 % 60) ++ ':' ::
    (pad 2 (us / 1000000 % 60) ++ isoFraction (us % 1000000)))

/-- The date of an ordinal. -/
def isoDate (ordinal : ℕ) : Text :=
  pad 4 (ord2ymd ordinal).1 ++ '-' :: (pad 2 (ord2ymd ordinal).2.1 ++ '-' ::
    pad 2 (ord2ymd ordinal).2.2)

/-- `datetime.isoformat` of a point in time in UTC, in microseconds since the epoch. -/
def isoUtc (t : ℤ) : Text :=
  isoDate (splitDay t).1 ++ 'T' :: (isoTime (splitDay t).2 ++ "+00:00".toList)

/-- The points in time that a `datetime` can be: the years 1 to 9999. -/
def InRange (t : ℤ) : Prop := -62135596800000000 ≤ t ∧ t < 253402300800000000

instance (t : ℤ) : Decidable (InRange t) := inferInstanceAs (Decidable (_ ∧ _))

/-- The ordinal of a point in time is that of a `datetime`. -/
theorem splitDay_bounds {t : ℤ} (h : InRange t) :
    0 < (splitDay t).1 ∧ (splitDay t).1 ≤ 3652059 ∧ (splitDay t).2 < 86400000000 := by
  obtain ⟨hlo, hhi⟩ := h
  simp only [splitDay, epochOrdinal, dayMicroseconds]
  omega

/-- The day and the time of the day determine the point in time. -/
theorem splitDay_injective {t u : ℤ} (ht : InRange t) (hu : InRange u)
    (h : splitDay t = splitDay u) : t = u := by
  obtain ⟨hlo, hhi⟩ := ht
  obtain ⟨hlo', hhi'⟩ := hu
  simp only [splitDay, epochOrdinal, dayMicroseconds, Prod.mk.injEq] at h
  omega

/-- A fraction ends before the offset. -/
theorem isoFraction_append_inj {m n : ℕ} {text text' : Text} (hm : m < 1000000)
    (hn : n < 1000000) (h : isoFraction m ++ '+' :: text = isoFraction n ++ '+' :: text') :
    m = n := by
  unfold isoFraction at h
  split_ifs at h with hm0 hn0 hn0
  · omega
  · cases h
  · cases h
  · exact (pad_append_inj (by decide) hm hn (List.cons.inj h).2).1

/-- **Different points in time are written differently.**

**Proof sketch.** The numbers of the date and the time have fixed widths, so that they are read off
one after the other; the date gives the ordinal of the day. -/
theorem isoUtc_injective {t u : ℤ} (ht : InRange t) (hu : InRange u) (h : isoUtc t = isoUtc u) :
    t = u := by
  obtain ⟨hpos, hmax, htime⟩ := splitDay_bounds ht
  obtain ⟨hpos', hmax', htime'⟩ := splitDay_bounds hu
  obtain ⟨-, hmonth, hday⟩ := ymd2ord_ord2ymd hpos
  obtain ⟨-, hmonth', hday'⟩ := ymd2ord_ord2ymd hpos'
  have hyear := ord2ymd_fst_lt hpos hmax
  have hyear' := ord2ymd_fst_lt hpos' hmax'
  simp only [isoUtc, isoDate, isoTime, List.append_assoc, List.cons_append] at h
  obtain ⟨hy, h⟩ := pad_append_inj (by decide) hyear hyear' h
  obtain ⟨hm, h⟩ := pad_append_inj (by decide) hmonth hmonth' (List.cons.inj h).2
  obtain ⟨hd, h⟩ := pad_append_inj (by decide) hday hday' (List.cons.inj h).2
  obtain ⟨hhour, h⟩ := pad_append_inj (by decide) (by omega) (by omega) (List.cons.inj h).2
  obtain ⟨hminute, h⟩ := pad_append_inj (by decide) (by omega) (by omega) (List.cons.inj h).2
  obtain ⟨hsecond, h⟩ := pad_append_inj (by decide) (by omega) (by omega) (List.cons.inj h).2
  have hfraction := isoFraction_append_inj (Nat.mod_lt _ (by decide)) (Nat.mod_lt _ (by decide)) h
  have hdate : (splitDay t).1 = (splitDay u).1 :=
    ord2ymd_injective hpos hpos' (Prod.ext hy (Prod.ext hm hd))
  have hclock : (splitDay t).2 = (splitDay u).2 := by omega
  exact splitDay_injective ht hu (Prod.ext hdate hclock)

example : isoUtc 1784118896123456 = "2026-07-15T12:34:56.123456+00:00".toList := by decide +kernel

end Calendar
