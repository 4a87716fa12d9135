import MailAggregator.Lib.PyText
import Mathlib.Tactic.SplitIfs

set_option relaxedAutoImplicit false
set_option autoImplicit false

/-!
# UTF-8

The bytes of a text, and the text of a byte list: a byte that does not belong to a well-formed
sequence is an error, or is dropped.

## Main definitions

* `Utf8.encode` — `text.encode("utf-8")`.
* `Utf8.decode` — `data.decode("utf-8")`.
* `Utf8.decodeIgnore` — `data.decode("utf-8", errors="ignore")`.
* `Utf8.fit`, `Utf8.IsLongestFit` — the longest start of a text that takes at most so many bytes.

## Main results

* `Utf8.charAt_encodeChar_append` — the first character of an encoded text is read back.
* `Utf8.decode_encode` — so is the text.
* `Utf8.decodeIgnore_take_encode` — what is read in the first bytes of a text is the longest start
  of it that fits.
* `Utf8.isPrefix_fit_iff` — the starts of a text that fit are the starts of what is kept.
* `Utf8.isLongestFit_iff` — so that nothing else is the longest of them.
-/

namespace Utf8

open PyText

/-- A byte, as a number. -/
abbrev Byte := ℕ

/-- The bytes of one character. -/
def encodeChar (c : Char) : List Byte :=
  let n := c.toNat
  if n < 0x80 then [n]
  else if n < 0x800 then [0xC0 + n / 0x40, 0x80 + n % 0x40]
  else if n < 0x10000 then [0xE0 + n / 0x1000, 0x80 + n / 0x40 % 0x40, 0x80 + n % 0x40]
  else [0xF0 + n / 0x40000, 0x80 + n / 0x1000 % 0x40, 0x80 + n / 0x40 % 0x40, 0x80 + n % 0x40]

/-- `text.encode("utf-8")`. -/
def encode (text : Text) : List Byte := text.flatMap encodeChar

/-- A continuation byte. -/
def IsCont (b : Byte) : Prop := 0x80 ≤ b ∧ b < 0xC0

instance (b : Byte) : Decidable (IsCont b) := inferInstanceAs (Decidable (_ ∧ _))

/-- The character that the well-formed sequence at the start of a byte list encodes, and the
number of its bytes after the first. A sequence that is too long for its character, or encodes a
surrogate or a number that is too large, is not well-formed. -/
def charAt : List Byte → Option (Char × ℕ)
  | [] => none
  | b₀ :: rest =>
    if b₀ < 0x80 then some (Char.ofNat b₀, 0)
    else match rest with
    | [] => none
    | b₁ :: rest =>
      if 0xC2 ≤ b₀ ∧ b₀ < 0xE0 ∧ IsCont b₁ then
        some (Char.ofNat ((b₀ - 0xC0) * 0x40 + (b₁ - 0x80)), 1)
      else match rest with
      | [] => none
      | b₂ :: rest =>
        let n₃ := (b₀ - 0xE0) * 0x1000 + (b₁ - 0x80) * 0x40 + (b₂ - 0x80)
        if 0xE0 ≤ b₀ ∧ b₀ < 0xF0 ∧ IsCont b₁ ∧ IsCont b₂ ∧ 0x800 ≤ n₃ ∧ Nat.isValidChar n₃ then
          some (Char.ofNat n₃, 2)
        else match rest with
        | [] => none
        | b₃ :: _ =>
          let n₄ := (b₀ - 0xF0) * 0x40000 + (b₁ - 0x80) * 0x1000 + (b₂ - 0x80) * 0x40 + (b₃ - 0x80)
          if 0xF0 ≤ b₀ ∧ IsCont b₁ ∧ IsCont b₂ ∧ IsCont b₃ ∧ 0x10000 ≤ n₄ ∧ Nat.isValidChar n₄ then
            some (Char.ofNat n₄, 3)
          else none

/-- Decode from the start of a byte list, after `skip` bytes of the last character. -/
def decodeFrom : ℕ → List Byte → Text
  | _, [] => []
  | skip + 1, _ :: bs => decodeFrom skip bs
  | 0, b :: bs =>
    match charAt (b :: bs) with
    | some (c, k) => c :: decodeFrom k bs
    | none => decodeFrom 0 bs

/-- `data.decode("utf-8", errors="ignore")`. -/
def decodeIgnore (data : List Byte) : Text := decodeFrom 0 data

/-- Decode from the start of a byte list, after `skip` bytes of the last character. `none` is
`UnicodeDecodeError`. -/
def decodeStrictFrom : ℕ → List Byte → Option Text
  | _, [] => some []
  | skip + 1, _ :: bs => decodeStrictFrom skip bs
  | 0, b :: bs =>
    match charAt (b :: bs) with
    | some (c, k) => (decodeStrictFrom k bs).map (c :: ·)
    | none => none

/-- `data.decode("utf-8")`. -/
def decode (data : List Byte) : Option Text := decodeStrictFrom 0 data

/-! ## The round trip -/

/-- The code point of a character is not that of a surrogate and not too large. -/
theorem isValidChar_toNat (c : Char) : Nat.isValidChar c.toNat := c.valid

/-- A code point is that of its character. -/
theorem charOfNat_eq {n : ℕ} {c : Char} (h : n = c.toNat) : Char.ofNat n = c := by
  rw [h, Char.ofNat_toNat]

/-- The bytes after the first are continuation bytes. -/
theorem isCont_add {k : ℕ} (h : k < 0x40) : IsCont (0x80 + k) :=
  ⟨Nat.le_add_right _ _, Nat.add_lt_add_left h 0x80⟩

/-- **The first character of an encoded text is read back**, with the number of bytes after the
first that it takes.

**Proof sketch.** By the number of bytes. Each byte of the sequence holds the digits of the code
point in base `0x40`, so that the number the decoder puts together is the code point. -/
theorem charAt_encodeChar_append (c : Char) (rest : List Byte) :
    charAt (encodeChar c ++ rest) = some (c, (encodeChar c).length - 1) := by
  have hvalid := isValidChar_toNat c
  have hlt : c.toNat < 0x110000 := by
    rcases hvalid with h | h
    · omega
    · exact h.2
  generalize hn : c.toNat = n at hvalid hlt
  have hcont₀ : IsCont (0x80 + n % 0x40) := isCont_add (Nat.mod_lt _ (by decide))
  have hcont₁ : IsCont (0x80 + n / 0x40 % 0x40) := isCont_add (Nat.mod_lt _ (by decide))
  have hcont₂ : IsCont (0x80 + n / 0x1000 % 0x40) := isCont_add (Nat.mod_lt _ (by decide))
  by_cases h₁ : n < 0x80
  · simp only [encodeChar, hn, if_pos h₁, List.cons_append, List.nil_append, charAt,
      List.length_singleton]
    rw [charOfNat_eq hn.symm]
  by_cases h₂ : n < 0x800
  · simp only [encodeChar, hn, if_neg h₁, if_pos h₂, List.cons_append, List.nil_append, charAt,
      List.length_cons, List.length_nil]
    have hfirst : ¬ 0xC0 + n / 0x40 < 0x80 := by omega
    have hlo : 0xC2 ≤ 0xC0 + n / 0x40 := by omega
    have hhi : 0xC0 + n / 0x40 < 0xE0 := by omega
    have hcode : (0xC0 + n / 0x40 - 0xC0) * 0x40 + (0x80 + n % 0x40 - 0x80) = n := by omega
    rw [if_neg hfirst, if_pos ⟨hlo, hhi, hcont₀⟩, hcode, charOfNat_eq hn.symm]
  by_cases h₃ : n < 0x10000
  · simp only [encodeChar, hn, if_neg h₁, if_neg h₂, if_pos h₃, List.cons_append, List.nil_append,
      charAt, List.length_cons, List.length_nil]
    have hfirst : ¬ 0xE0 + n / 0x1000 < 0x80 := by omega
    have hcode : (0xE0 + n / 0x1000 - 0xE0) * 0x1000 + (0x80 + n / 0x40 % 0x40 - 0x80) * 0x40 +
        (0x80 + n % 0x40 - 0x80) = n := by omega
    have htwo : ¬ 0xE0 + n / 0x1000 < 0xE0 := by omega
    have hlo : 0xE0 ≤ 0xE0 + n / 0x1000 := by omega
    have hhi : 0xE0 + n / 0x1000 < 0xF0 := by omega
    have hlong : 0x800 ≤ n := by omega
    rw [if_neg hfirst, if_neg fun h => htwo h.2.1, hcode,
      if_pos ⟨hlo, hhi, hcont₁, hcont₀, hlong, hvalid⟩, charOfNat_eq hn.symm]
  · simp only [encodeChar, hn, if_neg h₁, if_neg h₂, if_neg h₃, List.cons_append, List.nil_append,
      charAt, List.length_cons, List.length_nil]
    have hfirst : ¬ 0xF0 + n / 0x40000 < 0x80 := by omega
    have hcode : (0xF0 + n / 0x40000 - 0xF0) * 0x40000 +
        (0x80 + n / 0x1000 % 0x40 - 0x80) * 0x1000 + (0x80 + n / 0x40 % 0x40 - 0x80) * 0x40 +
        (0x80 + n % 0x40 - 0x80) = n := by omega
    have htwo : ¬ 0xF0 + n / 0x40000 < 0xE0 := by omega
    have hthree : ¬ 0xF0 + n / 0x40000 < 0xF0 := by omega
    have hlo : 0xF0 ≤ 0xF0 + n / 0x40000 := by omega
    have hlong : 0x10000 ≤ n := by omega
    rw [if_neg hfirst, if_neg fun h => htwo h.2.1, if_neg fun h => hthree h.2.1, hcode,
      if_pos ⟨hlo, hcont₂, hcont₁, hcont₀, hlong, hvalid⟩, charOfNat_eq hn.symm]

theorem encodeChar_ne_nil (c : Char) : encodeChar c ≠ [] := by
  rw [encodeChar]
  split_ifs <;> exact List.cons_ne_nil _ _

/-- The bytes that are skipped do not count. -/
theorem decodeStrictFrom_append {skipped : List Byte} (rest : List Byte) :
    decodeStrictFrom skipped.length (skipped ++ rest) = decodeStrictFrom 0 rest := by
  induction skipped with
  | nil => rfl
  | cons b skipped ih => exact ih

/-- **Decoding inverts encoding.** -/
@[simp] theorem decode_encode (text : Text) : decode (encode text) = some text := by
  induction text with
  | nil => rfl
  | cons c text ih =>
    rw [encode, List.flatMap_cons, decode]
    have hchar := charAt_encodeChar_append c (text.flatMap encodeChar)
    cases hbytes : encodeChar c with
    | nil => exact absurd hbytes (encodeChar_ne_nil c)
    | cons b bs =>
      rw [hbytes, List.length_cons, Nat.add_sub_cancel, List.cons_append] at hchar
      rw [List.cons_append, decodeStrictFrom, hchar]
      simp only
      rw [decodeStrictFrom_append]
      exact congrArg (Option.map (c :: ·)) ih

/-! ## Cutting at a number of bytes -/

/-- The longest start of a text that fits into so many bytes. -/
def fit : ℕ → Text → Text
  | _, [] => []
  | n, c :: cs => if (encodeChar c).length ≤ n then c :: fit (n - (encodeChar c).length) cs else []

/-- The bytes that are skipped do not count. -/
theorem decodeFrom_append {skipped : List Byte} (rest : List Byte) :
    decodeFrom skipped.length (skipped ++ rest) = decodeFrom 0 rest := by
  induction skipped with
  | nil => rfl
  | cons b skipped ih => exact ih

/-- A byte with which no sequence begins is dropped. -/
theorem decodeFrom_of_charAt_none {b : Byte} {bs : List Byte} (h : charAt (b :: bs) = none) :
    decodeFrom 0 (b :: bs) = decodeFrom 0 bs := by
  rw [decodeFrom, h]

theorem decodeFrom_encodeChar_append (c : Char) (rest : List Byte) :
    decodeFrom 0 (encodeChar c ++ rest) = c :: decodeFrom 0 rest := by
  have hchar := charAt_encodeChar_append c rest
  cases hbytes : encodeChar c with
  | nil => exact absurd hbytes (encodeChar_ne_nil c)
  | cons b bs =>
    rw [hbytes, List.length_cons, Nat.add_sub_cancel, List.cons_append] at hchar
    rw [List.cons_append, decodeFrom, hchar]
    simp only
    rw [decodeFrom_append]

/-- No character is read in the first bytes of a longer sequence. -/
theorem decodeFrom_one {b₀ : ℕ} (h : 0x80 ≤ b₀) : decodeFrom 0 [b₀] = [] := by
  have hfirst : ¬ b₀ < 0x80 := Nat.not_lt.mpr h
  rw [decodeFrom_of_charAt_none (by rw [charAt, if_neg hfirst])]
  rfl

theorem decodeFrom_two {b₀ b₁ : ℕ} (h : 0xE0 ≤ b₀ ∨ IsCont b₀) (h₁ : IsCont b₁) :
    decodeFrom 0 [b₀, b₁] = [] := by
  have hfirst : ¬ b₀ < 0x80 := by rcases h with h | h <;> grind [IsCont]
  have htwo : ¬ (0xC2 ≤ b₀ ∧ b₀ < 0xE0 ∧ IsCont b₁) := by rcases h with h | h <;> grind [IsCont]
  rw [decodeFrom_of_charAt_none, decodeFrom_one h₁.1]
  simp only [charAt, if_neg hfirst, if_neg htwo]

theorem decodeFrom_three {b₀ b₁ b₂ : ℕ} (h : 0xF0 ≤ b₀) (h₁ : IsCont b₁) (h₂ : IsCont b₂) :
    decodeFrom 0 [b₀, b₁, b₂] = [] := by
  have hfirst : ¬ b₀ < 0x80 := by omega
  have htwo : ¬ b₀ < 0xE0 := by omega
  have hthree : ¬ b₀ < 0xF0 := by omega
  rw [decodeFrom_of_charAt_none, decodeFrom_two (Or.inr h₁) h₂]
  simp only [charAt, if_neg hfirst]
  rw [if_neg fun hall => htwo hall.2.1, if_neg fun hall => hthree hall.2.1]

/-- **A character that is cut is dropped.** -/
theorem decodeFrom_take_encodeChar {c : Char} {n : ℕ} (h : n < (encodeChar c).length) :
    decodeFrom 0 ((encodeChar c).take n) = [] := by
  have hcont (k : ℕ) : IsCont (0x80 + k % 0x40) := isCont_add (Nat.mod_lt _ (by decide))
  unfold encodeChar at h ⊢
  generalize c.toNat = code at h ⊢
  cases n with
  | zero => rfl
  | succ n =>
    simp only at h ⊢
    split_ifs at h ⊢ with h₁ h₂ h₃
    · exact absurd h (by simp)
    · have hn : n + 1 < 2 := h
      obtain rfl : n = 0 := by omega
      exact decodeFrom_one (Nat.le_trans (by decide) (Nat.le_add_right 0xC0 _))
    · have hn : n + 1 < 3 := h
      obtain rfl | rfl : n = 0 ∨ n = 1 := by omega
      · exact decodeFrom_one (Nat.le_trans (by decide) (Nat.le_add_right 0xE0 _))
      · exact decodeFrom_two (Or.inl (Nat.le_add_right _ _)) (hcont _)
    · have hn : n + 1 < 4 := h
      obtain rfl | rfl | rfl : n = 0 ∨ n = 1 ∨ n = 2 := by omega
      · exact decodeFrom_one (Nat.le_trans (by decide) (Nat.le_add_right 0xF0 _))
      · exact decodeFrom_two (Or.inl (Nat.le_trans (by decide) (Nat.le_add_right 0xF0 _))) (hcont _)
      · exact decodeFrom_three (Nat.le_add_right _ _) (hcont _) (hcont _)

/-- **What is read in the first bytes of a text** is the longest start of it that fits. -/
theorem decodeIgnore_take_encode (n : ℕ) (text : Text) :
    decodeIgnore ((encode text).take n) = fit n text := by
  unfold decodeIgnore
  induction text generalizing n with
  | nil => rw [encode, List.flatMap_nil, List.take_nil]; rfl
  | cons c cs ih =>
    rw [encode, List.flatMap_cons, ← encode, fit]
    split_ifs with hle
    · rw [List.take_append, List.take_of_length_le hle, decodeFrom_encodeChar_append, ih]
    · rw [List.take_append_of_le_length (Nat.le_of_not_le hle),
        decodeFrom_take_encodeChar (Nat.lt_of_not_le hle)]

theorem encode_append (xs ys : Text) : encode (xs ++ ys) = encode xs ++ encode ys :=
  List.flatMap_append

theorem length_encode_cons (c : Char) (cs : Text) :
    (encode (c :: cs)).length = (encodeChar c).length + (encode cs).length := by
  rw [encode, List.flatMap_cons, List.length_append, ← encode]

@[simp] theorem fit_nil (n : ℕ) : fit n [] = [] := by cases n <;> rfl

/-- **The starts of a text that fit** are the starts of what is kept.

**Proof sketch.** By induction on the text. A start that is not empty begins with the first
character of the text, which takes its bytes from the budget or is too long for it. -/
theorem isPrefix_fit_iff {n : ℕ} {start text : Text} :
    start <+: fit n text ↔ start <+: text ∧ (encode start).length ≤ n := by
  induction text generalizing n start with
  | nil =>
    rw [fit_nil, List.prefix_nil]
    constructor
    · rintro rfl
      exact ⟨rfl, Nat.zero_le n⟩
    · exact fun h => h.1
  | cons c cs ih =>
    cases start with
    | nil => exact iff_of_true List.nil_prefix ⟨List.nil_prefix, Nat.zero_le n⟩
    | cons d ds =>
      rw [List.cons_prefix_cons, length_encode_cons, fit]
      split_ifs with hle
      · rw [List.cons_prefix_cons, ih, and_assoc]
        refine and_congr_right fun hd => and_congr_right fun _ => ?_
        rw [hd]
        omega
      · -- the first character alone is longer than the budget
        refine iff_of_false (fun h => ?_) ?_
        · cases List.prefix_nil.mp h
        · rintro ⟨⟨rfl, -⟩, hlen⟩
          exact hle (Nat.le_of_add_right_le hlen)

theorem isPrefix_fit (n : ℕ) (text : Text) : fit n text <+: text :=
  (isPrefix_fit_iff.mp (List.prefix_refl _)).1

/-- What is kept fits. -/
theorem length_encode_fit_le (n : ℕ) (text : Text) : (encode (fit n text)).length ≤ n :=
  (isPrefix_fit_iff.mp (List.prefix_refl _)).2

theorem fit_eq_self {n : ℕ} {text : Text} (h : (encode text).length ≤ n) : fit n text = text :=
  (isPrefix_fit n text).eq_of_length_le
    (isPrefix_fit_iff.mpr ⟨List.prefix_refl text, h⟩).length_le

/-- **A text that does not fit gets shorter.** -/
theorem length_fit_lt {n : ℕ} {text : Text} (h : n < (encode text).length) :
    (fit n text).length < text.length := by
  have hstart := isPrefix_fit n text
  refine Nat.lt_of_le_of_ne hstart.length_le fun hlen => ?_
  have hfits := length_encode_fit_le n text
  rw [hstart.eq_of_length hlen] at hfits
  exact Nat.not_le.mpr h hfits

/-- Every character takes a byte. -/
@[simp] theorem fit_zero (text : Text) : fit 0 text = [] := by
  cases text with
  | nil => rfl
  | cons c cs =>
    have hpos := List.length_pos_iff.mpr (encodeChar_ne_nil c)
    rw [fit, if_neg (Nat.not_le.mpr hpos)]

/-- Of two cuts the one with the smaller budget counts. -/
theorem fit_fit (m n : ℕ) (text : Text) : fit m (fit n text) = fit (min m n) text := by
  have hiff (start : Text) : start <+: fit m (fit n text) ↔ start <+: fit (min m n) text := by
    rw [isPrefix_fit_iff, isPrefix_fit_iff, isPrefix_fit_iff, Nat.le_min, and_assoc]
    exact and_congr_right fun _ => and_comm
  exact ((hiff _).mp (List.prefix_refl _)).eq_of_length_le
    ((hiff _).mpr (List.prefix_refl _)).length_le

/-- More is kept with a larger budget. -/
theorem fit_isPrefix_fit {m n : ℕ} (h : m ≤ n) (text : Text) : fit m text <+: fit n text :=
  isPrefix_fit_iff.mpr ⟨isPrefix_fit m text, (length_encode_fit_le m text).trans h⟩

/-- A text that fits stays whole, and what follows it gets the bytes that are left. -/
theorem fit_append_of_le {n : ℕ} {xs : Text} (h : (encode xs).length ≤ n) (ys : Text) :
    fit n (xs ++ ys) = xs ++ fit (n - (encode xs).length) ys := by
  induction xs generalizing n with
  | nil => rfl
  | cons x xs ih =>
    rw [length_encode_cons] at h
    rw [List.cons_append, fit, if_pos (Nat.le_of_add_right_le h),
      ih (Nat.le_sub_of_add_le' h), length_encode_cons, Nat.sub_add_eq, List.cons_append]

/-- Nothing of what follows a text that does not fit is kept. -/
theorem fit_append_of_lt {n : ℕ} {xs : Text} (h : n < (encode xs).length) (ys : Text) :
    fit n (xs ++ ys) = fit n xs := by
  induction xs generalizing n with
  | nil => exact absurd h (Nat.not_lt_zero n)
  | cons x xs ih =>
    rw [length_encode_cons] at h
    rw [List.cons_append, fit, fit]
    split_ifs with hle
    · rw [ih (by omega)]
    · rfl

/-- A character takes at most four bytes. -/
theorem length_encodeChar_le (c : Char) : (encodeChar c).length ≤ 4 := by
  rw [encodeChar]
  split_ifs <;> simp

/-- **At most three bytes are lost.** A text that does not fit is cut inside a character. -/
theorem lt_length_encode_fit_add {n : ℕ} {text : Text} (h : n < (encode text).length) :
    n < (encode (fit n text)).length + 4 := by
  induction text generalizing n with
  | nil => exact absurd h (Nat.not_lt_zero n)
  | cons c cs ih =>
    rw [length_encode_cons] at h
    rw [fit]
    split_ifs with hle
    · have hrest := ih (n := n - (encodeChar c).length) (by omega)
      rw [length_encode_cons]
      omega
    · have hchar := length_encodeChar_le c
      omega

/-! ## The longest start that fits -/

/-- `kept` is the longest start of a text that takes at most so many bytes. -/
structure IsLongestFit (maxBytes : ℕ) (text kept : Text) : Prop where
  isPrefix : kept <+: text
  fits : (encode kept).length ≤ maxBytes
  longest : ∀ start, start <+: text → (encode start).length ≤ maxBytes →
    start.length ≤ kept.length

/-- There is only one. -/
theorem IsLongestFit.eq {n : ℕ} {text xs ys : Text} (hxs : IsLongestFit n text xs)
    (hys : IsLongestFit n text ys) : xs = ys := by
  have hle : xs.length ≤ ys.length := hys.longest xs hxs.isPrefix hxs.fits
  have hstart : xs <+: ys := List.prefix_of_prefix_length_le hxs.isPrefix hys.isPrefix hle
  exact hstart.eq_of_length_le (hxs.longest ys hys.isPrefix hys.fits)

theorem isLongestFit_fit (n : ℕ) (text : Text) : IsLongestFit n text (fit n text) where
  isPrefix := isPrefix_fit n text
  fits := length_encode_fit_le n text
  longest _ hstart hfits := (isPrefix_fit_iff.mpr ⟨hstart, hfits⟩).length_le

theorem isLongestFit_iff {n : ℕ} {text kept : Text} :
    IsLongestFit n text kept ↔ kept = fit n text := by
  constructor
  · exact fun h => h.eq (isLongestFit_fit n text)
  · rintro rfl
    exact isLongestFit_fit n text

end Utf8
