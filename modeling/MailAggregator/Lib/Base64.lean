import MailAggregator.Lib.Utf8
import Mathlib.Data.List.DropRight
import Mathlib.Tactic.SplitIfs

set_option relaxedAutoImplicit false
set_option autoImplicit false

/-!
# Base64

Bytes in groups of six bits, and how a decoder reads them back: strictly, or skipping over whatever
is no digit.

## Main definitions

* `Base64.Alphabet` — the two alphabets.
* `Base64.encode` — `b64encode` and `urlsafe_b64encode`.
* `Base64.decode` — `b64decode`, with or without `validate`.
* `Base64.encodeNoPad`, `Base64.decodeNoPad` — the URL-safe alphabet, without pads.

## Main results

* `Base64.decode_encode` — bytes are read back, by either decoder.
* `Base64.decodeNoPad_encodeNoPad` — and without the pads.
* `Base64.decode_of_strict` — what the strict decoder accepts the other one reads as the same bytes.
* `Base64.exists_strict_iff`, `Base64.eq_of_strict` — the texts that the strict decoder accepts.
* `Base64.mem_encode` — the characters of an encoded text.
-/

namespace Base64

open PyText

/-- The alphabets differ in their last two digits. -/
inductive Alphabet where
  | standard
  | urlSafe
  deriving DecidableEq, Repr

/-- The digit of a value below 64. -/
def digit (a : Alphabet) (n : ℕ) : Char :=
  if n < 26 then Char.ofNat (65 + n)
  else if n < 52 then Char.ofNat (71 + n)
  else if n < 62 then Char.ofNat (n - 4)
  else
    match a with
    | .standard => if n = 62 then '+' else '/'
    | .urlSafe => if n = 62 then '-' else '_'

/-- The value of a digit of the standard alphabet. -/
def value (c : Char) : Option ℕ :=
  if 'A' ≤ c ∧ c ≤ 'Z' then some (c.toNat - 65)
  else if 'a' ≤ c ∧ c ≤ 'z' then some (c.toNat - 71)
  else if '0' ≤ c ∧ c ≤ '9' then some (c.toNat + 4)
  else if c = '+' then some 62
  else if c = '/' then some 63
  else none

/-- The text of some bytes: four digits for three of them, and padding at the end. -/
def encode (a : Alphabet) : List ℕ → Text
  | [] => []
  | [x] => [digit a (x / 4), digit a (x % 4 * 16), '=', '=']
  | [x, y] => [digit a (x / 4), digit a (x % 4 * 16 + y / 16), digit a (y % 16 * 4), '=']
  | x :: y :: z :: rest =>
    digit a (x / 4) :: digit a (x % 4 * 16 + y / 16) :: digit a (y % 16 * 4 + z / 64) ::
      digit a (z % 64) :: encode a rest

/-- The loop of a decoder. Of the current group it has read `position` digits, whose bits that make
no byte yet are `left`; `pads` are the pads since the last digit, and `padded` says that there was
one before. A strict decoder refuses a pad at the start of a group. CPython 3.12 is less strict in
one case: it refuses a pad at the start of the text, but accepts excess pads after a complete group
(`AAAA=`). A lenient decoder skips them. -/
def scan (strict : Bool) (position left pads : ℕ) (padded : Bool) : Text → Option (List ℕ)
  | [] => if position = 0 then some [] else none
  | c :: rest =>
    if c = '=' then
      if strict ∧ position = 0 then none
      else if 2 ≤ position then
        if 4 ≤ position + (pads + 1) then
          -- what comes after the last pad is not read
          if strict ∧ rest ≠ [] then none else some []
        else scan strict position left (pads + 1) true rest
      else scan strict position left pads true rest
    else
      match value c with
      | none => if strict then none else scan strict position left pads padded rest
      | some v =>
        if strict ∧ padded then none
        else
          match position with
          | 0 => scan strict 1 v 0 padded rest
          | 1 => (scan strict 2 (v % 16) 0 padded rest).map ((left * 4 + v / 16) :: ·)
          | 2 => (scan strict 3 (v % 4) 0 padded rest).map ((left * 16 + v / 4) :: ·)
          | _ => (scan strict 0 0 0 padded rest).map ((left * 64 + v) :: ·)

/-- `b64decode(text, validate=strict)`; `none` is `ValueError`. -/
def decode (strict : Bool) (text : Text) : Option (List ℕ) :=
  if ¬ ∀ c ∈ text, c.toNat < 0x80 then none
  else if strict ∧ text.head? = some '=' then none
  else scan strict 0 0 0 false text

/-- The digit of the standard alphabet that a digit is read as. -/
def toStandard (c : Char) : Char := if c = '-' then '+' else if c = '_' then '/' else c

/-- `urlsafe_b64encode(data).rstrip(b"=")`. -/
def encodeNoPad (bytes : List ℕ) : Text := (encode .urlSafe bytes).rdropWhile (· = '=')

/-- `urlsafe_b64decode`, of a text with the pads that complete its last group. -/
def decodeNoPad (text : Text) : Option (List ℕ) :=
  decode false ((text ++ List.replicate ((4 - text.length % 4) % 4) '=').map toStandard)

/-! ## Digits -/

theorem value_digit {n : ℕ} (h : n < 64) : value (digit .standard n) = some n := by
  revert n
  decide

theorem digit_ne_pad {n : ℕ} (h : n < 64) : digit .standard n ≠ '=' := by
  revert n
  decide

/-- A digit of one of the alphabets. -/
def IsDigit (c : Char) : Prop := value (toStandard c) ≠ none

instance : DecidablePred IsDigit := fun _ => inferInstanceAs (Decidable (_ ≠ _))

theorem isDigit_digit (a : Alphabet) {n : ℕ} (h : n < 64) : IsDigit (digit a n) := by
  revert n
  cases a <;> decide

/-- **An encoded text** is digits, and as many pads as complete their last group.

**Proof sketch.** Induction along the clauses of the encoder. One and two bytes at the end give two
and three digits, with two pads and one; three bytes give four digits in front of what the rest
gives. Each digit is below 64, because the bytes are below 256. -/
theorem encode_eq_append (a : Alphabet) {bytes : List ℕ} (h : ∀ b ∈ bytes, b < 0x100) :
    ∃ digits pads, encode a bytes = digits ++ List.replicate pads '=' ∧ (∀ c ∈ digits, IsDigit c) ∧
      pads ≤ 2 ∧ (digits.length + pads) % 4 = 0 := by
  induction bytes using encode.induct with
  | case1 => exact ⟨[], 0, by simp [encode]⟩
  | case2 x =>
    have hx := h x (by simp)
    refine ⟨[digit a (x / 4), digit a (x % 4 * 16)], 2, rfl, fun c hc => ?_, le_rfl, by simp⟩
    simp only [List.mem_cons, List.not_mem_nil, or_false] at hc
    rcases hc with rfl | rfl <;> exact isDigit_digit a (by omega)
  | case3 x y =>
    have hx := h x (by simp)
    have hy := h y (by simp)
    refine ⟨[digit a (x / 4), digit a (x % 4 * 16 + y / 16), digit a (y % 16 * 4)], 1, rfl,
      fun c hc => ?_, by decide, by simp⟩
    simp only [List.mem_cons, List.not_mem_nil, or_false] at hc
    rcases hc with rfl | rfl | rfl <;> exact isDigit_digit a (by omega)
  | case4 x y z rest ih =>
    have hx := h x (by simp)
    have hy := h y (by simp)
    have hz := h z (by simp)
    obtain ⟨digits, pads, heq, hdigits, hpads, hfull⟩ := ih fun b hb => h b (by simp [hb])
    refine ⟨digit a (x / 4) :: digit a (x % 4 * 16 + y / 16) :: digit a (y % 16 * 4 + z / 64) ::
      digit a (z % 64) :: digits, pads, by rw [encode, heq]; rfl, fun c hc => ?_, hpads, ?_⟩
    · simp only [List.mem_cons] at hc
      rcases hc with rfl | rfl | rfl | rfl | hc
      · exact isDigit_digit a (by omega)
      · exact isDigit_digit a (by omega)
      · exact isDigit_digit a (by omega)
      · exact isDigit_digit a (by omega)
      · exact hdigits c hc
    · simp only [List.length_cons]
      omega

/-- **The characters of an encoded text** are digits and pads. -/
theorem mem_encode (a : Alphabet) {bytes : List ℕ} (h : ∀ b ∈ bytes, b < 0x100) {c : Char}
    (hc : c ∈ encode a bytes) : IsDigit c ∨ c = '=' := by
  obtain ⟨digits, pads, heq, hdigits, -⟩ := encode_eq_append a h
  rw [heq, List.mem_append] at hc
  exact hc.imp (hdigits c) List.eq_of_mem_replicate

theorem toNat_lt_of_value {c : Char} (h : value c ≠ none) : c.toNat < 0x80 := by
  have hle : ∀ {d : Char}, c ≤ d → c.toNat ≤ d.toNat := fun hcd => UInt32.le_iff_toNat_le.mp hcd
  have hnat : 'Z'.toNat = 90 ∧ 'z'.toNat = 122 ∧ '9'.toNat = 57 := by decide
  unfold value at h
  split_ifs at h with hupper hlower hdigit hplus hslash
  · have hbound := hle hupper.2
    omega
  · have hbound := hle hlower.2
    omega
  · have hbound := hle hdigit.2
    omega
  · rw [hplus]
    decide
  · rw [hslash]
    decide
  · exact absurd rfl h

/-- Digits and pads are ASCII. -/
theorem toNat_lt_of_isDigit {c : Char} (h : IsDigit c ∨ c = '=') : c.toNat < 0x80 := by
  rcases h with h | rfl
  · unfold IsDigit toStandard at h
    split_ifs at h with hminus hunderscore
    · rw [hminus]
      decide
    · rw [hunderscore]
      decide
    · exact toNat_lt_of_value h
  · decide

/-! ## Bytes are read back -/

section RoundTrip

variable {strict : Bool} {n left pads : ℕ} {rest : Text}

/-- The decoder reads a digit. -/
theorem scan_digit (h : n < 64) (position : ℕ) :
    scan strict position left pads false (digit .standard n :: rest) =
      match position with
      | 0 => scan strict 1 n 0 false rest
      | 1 => (scan strict 2 (n % 16) 0 false rest).map ((left * 4 + n / 16) :: ·)
      | 2 => (scan strict 3 (n % 4) 0 false rest).map ((left * 16 + n / 4) :: ·)
      | _ => (scan strict 0 0 0 false rest).map ((left * 64 + n) :: ·) := by
  rw [scan, if_neg (digit_ne_pad h), value_digit h]
  simp only [Bool.false_eq_true, and_false, if_false]

/-- Two digits make the first byte of a group. -/
theorem scan_one {x y : ℕ} (hx : x < 0x100) (hy : y < 16) :
    scan strict 0 left pads false
      (digit .standard (x / 4) :: digit .standard (x % 4 * 16 + y) :: rest) =
        (scan strict 2 y 0 false rest).map (x :: ·) := by
  have hvalue : x / 4 * 4 + (x % 4 * 16 + y) / 16 = x := by omega
  have hleft : (x % 4 * 16 + y) % 16 = y := by omega
  rw [scan_digit (by omega), scan_digit (by omega)]
  simp only [hvalue, hleft]

/-- A third digit makes the second. -/
theorem scan_two {y z : ℕ} (hz : z < 4) :
    scan strict 2 (y / 16) 0 false (digit .standard (y % 16 * 4 + z) :: rest) =
      (scan strict 3 z 0 false rest).map (y :: ·) := by
  have hvalue : y / 16 * 16 + (y % 16 * 4 + z) / 4 = y := by omega
  have hleft : (y % 16 * 4 + z) % 4 = z := by omega
  rw [scan_digit (by omega)]
  simp only [hvalue, hleft]

/-- And a fourth one the third. -/
theorem scan_three (z : ℕ) :
    scan strict 3 (z / 64) 0 false (digit .standard (z % 64) :: rest) =
      (scan strict 0 0 0 false rest).map (z :: ·) := by
  have hvalue : z / 64 * 64 + z % 64 = z := by omega
  rw [scan_digit (by omega)]
  simp only [hvalue]

theorem scan_encode (strict : Bool) {bytes : List ℕ} (h : ∀ b ∈ bytes, b < 0x100) :
    scan strict 0 0 0 false (encode .standard bytes) = some bytes := by
  induction bytes using encode.induct with
  | case1 => rfl
  | case2 x =>
    have hone := @scan_one strict 0 0 ['=', '='] x 0 (h x (by simp)) (by decide)
    rw [Nat.add_zero] at hone
    rw [encode, hone]
    simp [scan]
  | case3 x y =>
    have hy := h y (by simp)
    have htwo := @scan_two strict ['='] y 0 (by decide)
    rw [Nat.add_zero] at htwo
    rw [encode, scan_one (h x (by simp)) (by omega), htwo]
    simp [scan]
  | case4 x y z rest ih =>
    have hy := h y (by simp)
    have hz := h z (by simp)
    rw [encode, scan_one (h x (by simp)) (by omega), scan_two (by omega), scan_three,
      ih fun b hb => h b (by simp [hb])]
    rfl

end RoundTrip

/-- **Bytes are read back**, by either decoder. -/
theorem decode_encode (strict : Bool) {bytes : List ℕ} (h : ∀ b ∈ bytes, b < 0x100) :
    decode strict (encode .standard bytes) = some bytes := by
  have hascii : ¬ ¬ ∀ c ∈ encode .standard bytes, c.toNat < 0x80 :=
    not_not_intro fun c hc => toNat_lt_of_isDigit (mem_encode _ h hc)
  have hhead : (encode .standard bytes).head? ≠ some '=' := by
    have hpad : ∀ x, x ∈ bytes → digit .standard (x / 4) ≠ '=' := fun x hx =>
      digit_ne_pad (Nat.div_lt_of_lt_mul (h x hx))
    match bytes with
    | [] => simp [encode]
    | [x] | [x, _] | x :: _ :: _ :: _ => simpa [encode] using hpad x (by simp)
  rw [decode, if_neg hascii, if_neg fun hbad => hhead hbad.2, scan_encode strict h]

/-! ## Without pads -/

theorem toStandard_digit {n : ℕ} (h : n < 64) :
    toStandard (digit .urlSafe n) = digit .standard n := by
  revert n
  decide

/-- Both alphabets write the same values. -/
theorem map_toStandard_encode {bytes : List ℕ} (h : ∀ b ∈ bytes, b < 0x100) :
    (encode .urlSafe bytes).map toStandard = encode .standard bytes := by
  have hpad : toStandard '=' = '=' := by decide
  induction bytes using encode.induct with
  | case1 => rfl
  | case2 x =>
    have hx := h x (by simp)
    simp only [encode, List.map_cons, List.map_nil, hpad]
    rw [toStandard_digit (by omega), toStandard_digit (by omega)]
  | case3 x y =>
    have hx := h x (by simp)
    have hy := h y (by simp)
    simp only [encode, List.map_cons, List.map_nil, hpad]
    rw [toStandard_digit (by omega), toStandard_digit (by omega), toStandard_digit (by omega)]
  | case4 x y z rest ih =>
    have hx := h x (by simp)
    have hy := h y (by simp)
    have hz := h z (by simp)
    simp only [encode, List.map_cons]
    rw [toStandard_digit (by omega), toStandard_digit (by omega), toStandard_digit (by omega),
      toStandard_digit (by omega), ih fun b hb => h b (by simp [hb])]

theorem IsDigit.ne_pad {c : Char} (h : IsDigit c) : c ≠ '=' := by
  rintro rfl
  revert h
  decide

/-- The pads are what is missing. -/
theorem encodeNoPad_append {bytes : List ℕ} (h : ∀ b ∈ bytes, b < 0x100) :
    encodeNoPad bytes ++ List.replicate ((4 - (encodeNoPad bytes).length % 4) % 4) '=' =
      encode .urlSafe bytes := by
  obtain ⟨digits, pads, heq, hdigits, hpads, hfull⟩ := encode_eq_append .urlSafe h
  have hstrip : encodeNoPad bytes = digits := by
    rw [encodeNoPad, heq]
    clear heq hpads hfull
    induction pads with
    | zero =>
      rw [List.replicate_zero, List.append_nil, List.rdropWhile_eq_self_iff]
      intro hne
      simpa using (hdigits _ (List.getLast_mem hne)).ne_pad
    | succ pads ih =>
      rw [List.replicate_succ', ← List.append_assoc, List.rdropWhile_concat_pos _ _ _ (by simp), ih]
  have hcount : (4 - digits.length % 4) % 4 = pads := by omega
  rw [hstrip, hcount, heq]

/-- **Bytes are read back without the pads.** -/
theorem decodeNoPad_encodeNoPad {bytes : List ℕ} (h : ∀ b ∈ bytes, b < 0x100) :
    decodeNoPad (encodeNoPad bytes) = some bytes := by
  rw [decodeNoPad, encodeNoPad_append h, map_toStandard_encode h, decode_encode false h]

/-- Different bytes are written differently. -/
theorem encodeNoPad_injective {bytes bytes' : List ℕ} (h : ∀ b ∈ bytes, b < 0x100)
    (h' : ∀ b ∈ bytes', b < 0x100) (heq : encodeNoPad bytes = encodeNoPad bytes') :
    bytes = bytes' := by
  have hread := decodeNoPad_encodeNoPad h
  rw [heq, decodeNoPad_encodeNoPad h'] at hread
  exact (Option.some.inj hread).symm

/-! ## The strict decoder -/

/-- What the strict loop accepts the other one reads as the same bytes.

**Proof sketch.** Induction over the text. Where the strict loop goes on, the other one does the
same; where it stops at the last pad, nothing follows, and the other one stops too. -/
theorem scan_of_strict {text : Text} : ∀ {position left pads : ℕ} {padded padded' : Bool}
    {bytes : List ℕ}, scan true position left pads padded text = some bytes →
      scan false position left pads padded' text = some bytes := by
  induction text with
  | nil => exact fun h => h
  | cons c rest ih =>
    intro position left pads padded padded' bytes h
    rw [scan] at h ⊢
    by_cases hpad : c = '='
    · simp only [if_pos hpad, Bool.false_eq_true, false_and, if_false, true_and] at h ⊢
      split_ifs at h ⊢
      · exact h
      · exact ih h
      · exact ih h
    · simp only [if_neg hpad] at h ⊢
      cases hvalue : value c with
      | none => simp [hvalue] at h
      | some v =>
        simp only [hvalue, Bool.false_eq_true, false_and, if_false, true_and] at h ⊢
        split_ifs at h
        split at h
        · exact ih h
        all_goals
          obtain ⟨later, hlater, rfl⟩ := Option.map_eq_some_iff.mp h
          simp only [ih hlater, Option.map_some]

theorem decode_of_strict {text : Text} {bytes : List ℕ} (h : decode true text = some bytes) :
    decode false text = some bytes := by
  rw [decode] at h ⊢
  simp only [Bool.false_eq_true, false_and, if_false, true_and] at h ⊢
  split_ifs at h ⊢
  exact scan_of_strict h

/-- A group of one digit is never complete. -/
theorem scan_one_padded (left pads : ℕ) (text : Text) : scan true 1 left pads true text = none := by
  induction text with
  | nil => rfl
  | cons c rest ih =>
    rw [scan]
    by_cases hpad : c = '='
    · simpa [hpad] using ih
    · simp only [if_neg hpad, and_self, if_true]
      split <;> rfl

/-- After a pad the strict loop reads the pads that are missing, and nothing else.

**Proof sketch.** Induction over the text. After a pad a strict loop refuses digits and other
characters, so that only pads follow; it stops at the one that completes the group, and then the
text must end. -/
theorem scan_padded {text : Text} : ∀ {position left pads : ℕ} {padded : Bool} {bytes : List ℕ},
    2 ≤ position → position + pads < 4 → (padded = true ∨ text.head? = some '=') →
      scan true position left pads padded text = some bytes →
        bytes = [] ∧ text = List.replicate (4 - position - pads) '=' := by
  induction text with
  | nil =>
    intro position left pads padded bytes hle _ _ h
    rw [scan, if_neg (by omega)] at h
    cases h
  | cons c rest ih =>
    intro position left pads padded bytes hle hlt hstart h
    have hne : position ≠ 0 := by omega
    rw [scan] at h
    by_cases hpad : c = '='
    · simp only [if_pos hpad, hne, and_false, if_false, if_pos hle, true_and] at h
      by_cases hlast : 4 ≤ position + (pads + 1)
      · have hcount : 4 - position - pads = 1 := by omega
        simp only [if_pos hlast] at h
        by_cases hrest : rest = []
        · simp only [hrest, ne_eq, not_true_eq_false, if_false, Option.some.injEq] at h
          rw [hcount, hrest, hpad]
          exact ⟨h.symm, rfl⟩
        · simp [hrest] at h
      · simp only [if_neg hlast] at h
        obtain ⟨hbytes, hrest⟩ := ih hle (by omega) (Or.inl rfl) h
        have hcount : 4 - position - pads = 4 - position - (pads + 1) + 1 := by omega
        rw [hcount, List.replicate_succ, hpad, ← hrest]
        exact ⟨hbytes, rfl⟩
    · have hpadded : padded = true := by
        rcases hstart with hpadded | hhead
        · exact hpadded
        · exact absurd (Option.some.inj hhead) hpad
      simp only [if_neg hpad, hpadded, and_self, if_true] at h
      split at h <;> cases h

/-- What the strict loop has read: digits, and the pads that complete their last group.

**Proof sketch.** Induction over the text. A pad ends the digits, since the strict loop takes
nothing but pads after it and stops at the last one that the group needs. A digit is put in front of
what the rest of the text gives; it moves the position by one, and each completed group of eight
bits gives one byte, which the count of the bytes says in terms of the position. -/
theorem eq_of_scan {text : Text} : ∀ {position left : ℕ} {bytes : List ℕ}, position < 4 →
    scan true position left 0 false text = some bytes →
      ∃ digits pads, text = digits ++ List.replicate pads '=' ∧
        (∀ c ∈ digits, value c ≠ none) ∧ pads ≤ 2 ∧ (position + digits.length + pads) % 4 = 0 ∧
        position * 3 / 4 + bytes.length = (position + digits.length) * 3 / 4 := by
  induction text with
  | nil =>
    intro position left bytes _ h
    rw [scan] at h
    split_ifs at h with hzero
    obtain rfl := Option.some.inj h
    exact ⟨[], 0, by simp [hzero]⟩
  | cons c rest ih =>
    intro position left bytes hlt h
    by_cases hpad : c = '='
    · subst hpad
      by_cases hle : 2 ≤ position
      · obtain ⟨rfl, htext⟩ := scan_padded hle (by omega) (Or.inr rfl) h
        refine ⟨[], 4 - position - 0, by simpa using htext, by simp, by omega, ?_, by simp⟩
        simp only [List.length_nil]
        omega
      · rw [scan, if_pos rfl] at h
        obtain rfl | rfl : position = 0 ∨ position = 1 := by omega
        · simp at h
        · simp [scan_one_padded] at h
    · rw [scan, if_neg hpad] at h
      cases hvalue : value c with
      | none => simp [hvalue] at h
      | some v =>
        simp only [hvalue, Bool.false_eq_true, and_false, if_false] at h
        -- the rest of the text, with what the digit adds to it
        have hcons : ∀ {next left' : ℕ} {later : List ℕ}, next < 4 → (position + 1) % 4 = next →
            (∀ n, next * 3 / 4 + later.length = (next + n) * 3 / 4 →
              position * 3 / 4 + bytes.length = (position + (n + 1)) * 3 / 4) →
            scan true next left' 0 false rest = some later →
            ∃ digits pads, c :: rest = digits ++ List.replicate pads '=' ∧
              (∀ c ∈ digits, value c ≠ none) ∧ pads ≤ 2 ∧
              (position + digits.length + pads) % 4 = 0 ∧
              position * 3 / 4 + bytes.length = (position + digits.length) * 3 / 4 := by
          intro next left' later hnext hmod hlength hlater
          obtain ⟨digits, pads, hrest, hdigits, hpads, hfull, hbytes⟩ := ih hnext hlater
          refine ⟨c :: digits, pads, by rw [hrest]; rfl, ?_, hpads, ?_, hlength _ hbytes⟩
          · intro d hd
            rcases List.mem_cons.mp hd with rfl | hd
            · simp [hvalue]
            · exact hdigits d hd
          · rw [List.length_cons]
            omega
        obtain rfl | rfl | rfl | rfl :
            position = 0 ∨ position = 1 ∨ position = 2 ∨ position = 3 := by omega
        · exact hcons (by decide) rfl (fun n hn => by omega) h
        all_goals
          obtain ⟨later, hlater, rfl⟩ := Option.map_eq_some_iff.mp h
          exact hcons (by decide) rfl (fun n hn => by rw [List.length_cons]; omega) hlater

/-- **The texts that the strict decoder accepts**: digits, and as many pads as complete their last
group; the number of bytes is given by that of the digits. -/
theorem eq_of_strict {text : Text} {bytes : List ℕ} (h : decode true text = some bytes) :
    ∃ digits pads, text = digits ++ List.replicate pads '=' ∧ (∀ c ∈ digits, value c ≠ none) ∧
      pads ≤ 2 ∧ (digits.length + pads) % 4 = 0 ∧ bytes.length = digits.length * 3 / 4 := by
  rw [decode] at h
  split_ifs at h
  simpa using eq_of_scan (by decide) h

/-- The loop accepts digits with the pads that complete their last group.

**Proof sketch.** Induction over the digits, with the position and the bits of the group as
parameters. At the end the position and the pads are one of the three possible pairs, and the loop
stops with no further byte. A digit moves the position on by one. -/
theorem exists_scan (strict : Bool) {digits : Text} {pads : ℕ} (hpads : pads ≤ 2) :
    ∀ {position left : ℕ}, position < 4 → (∀ c ∈ digits, value c ≠ none) →
      (position + digits.length + pads) % 4 = 0 →
        ∃ bytes, scan strict position left 0 false (digits ++ List.replicate pads '=') =
          some bytes := by
  induction digits with
  | nil =>
    intro position left hlt _ hfull
    obtain ⟨rfl, rfl⟩ | ⟨rfl, rfl⟩ | ⟨rfl, rfl⟩ :
        position = 0 ∧ pads = 0 ∨ position = 2 ∧ pads = 2 ∨ position = 3 ∧ pads = 1 := by
      rw [List.length_nil] at hfull
      omega
    all_goals exact ⟨[], by simp [scan, List.replicate]⟩
  | cons c digits ih =>
    intro position left hlt hdigits hfull
    have hne : c ≠ '=' := by
      rintro rfl
      exact hdigits '=' List.mem_cons_self (by decide)
    obtain ⟨v, hv⟩ := Option.ne_none_iff_exists'.mp (hdigits c List.mem_cons_self)
    have hrest : ∀ d ∈ digits, value d ≠ none := fun d hd => hdigits d (List.mem_cons_of_mem c hd)
    rw [List.length_cons] at hfull
    rw [List.cons_append, scan, if_neg hne, hv]
    simp only [Bool.false_eq_true, and_false, if_false]
    obtain rfl | rfl | rfl | rfl :
        position = 0 ∨ position = 1 ∨ position = 2 ∨ position = 3 := by omega
    · exact ih (by decide) hrest (by omega)
    · obtain ⟨bytes, hbytes⟩ := @ih 2 (v % 16) (by decide) hrest (by omega)
      simp only [hbytes, Option.map_some]
      exact ⟨_, rfl⟩
    · obtain ⟨bytes, hbytes⟩ := @ih 3 (v % 4) (by decide) hrest (by omega)
      simp only [hbytes, Option.map_some]
      exact ⟨_, rfl⟩
    · obtain ⟨bytes, hbytes⟩ := @ih 0 0 (by decide) hrest (by omega)
      simp only [hbytes, Option.map_some]
      exact ⟨_, rfl⟩

/-- Only the pads of a text are pads. -/
theorem count_pad {digits : Text} (h : ∀ c ∈ digits, value c ≠ none) (pads : ℕ) :
    (digits ++ List.replicate pads '=').count '=' = pads := by
  have hzero : digits.count '=' = 0 := List.count_eq_zero.mpr fun hmem => h '=' hmem (by decide)
  rw [List.count_append, hzero, List.count_replicate_self, Nat.zero_add]

/-- **What the strict decoder accepts**: digits, with the pads that complete their last group.

**Proof sketch.** What is accepted has this form by `eq_of_strict`. Conversely the loop reads the
digits and the pads of such a text to its end. A text determines its digits and its pads, since a
pad is no digit, and so the number of its bytes. -/
theorem exists_strict_iff {text : Text} {n : ℕ} :
    (∃ bytes, decode true text = some bytes ∧ bytes.length = n) ↔
      ∃ digits pads, text = digits ++ List.replicate pads '=' ∧ (∀ c ∈ digits, value c ≠ none) ∧
        pads ≤ 2 ∧ (digits.length + pads) % 4 = 0 ∧ digits.length * 3 / 4 = n := by
  constructor
  · rintro ⟨bytes, h, rfl⟩
    obtain ⟨digits, pads, htext, hdigits, hpads, hfull, hlength⟩ := eq_of_strict h
    exact ⟨digits, pads, htext, hdigits, hpads, hfull, hlength.symm⟩
  · rintro ⟨digits, pads, rfl, hdigits, hpads, hfull, hn⟩
    have hascii : ¬ ¬ ∀ c ∈ digits ++ List.replicate pads '=', c.toNat < 0x80 := by
      refine not_not_intro fun c hc => ?_
      rcases List.mem_append.mp hc with hc | hc
      · exact toNat_lt_of_value (hdigits c hc)
      · rw [List.eq_of_mem_replicate hc]
        decide
    have hhead : (digits ++ List.replicate pads '=').head? ≠ some '=' := by
      cases digits with
      | nil =>
        obtain rfl : pads = 0 := by
          rw [List.length_nil] at hfull
          omega
        simp
      | cons c digits =>
        intro heq
        obtain rfl := Option.some.inj heq
        exact hdigits '=' List.mem_cons_self (by decide)
    obtain ⟨bytes, hbytes⟩ := @exists_scan true digits pads hpads 0 0 (by decide) hdigits
      (by rwa [Nat.zero_add])
    have hdecode : decode true (digits ++ List.replicate pads '=') = some bytes := by
      rw [decode, if_neg hascii, if_neg fun hbad => hhead hbad.2]
      exact hbytes
    refine ⟨bytes, hdecode, ?_⟩
    -- the digits and the pads of a text are determined by it
    obtain ⟨digits', pads', htext, hdigits', -, -, hlength⟩ := eq_of_strict hdecode
    have hpads' : pads = pads' := by
      rw [← count_pad hdigits pads, htext, count_pad hdigits' pads']
    subst hpads'
    rw [hlength, ← List.append_cancel_right htext, hn]

end Base64
