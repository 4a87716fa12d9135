import Mathlib.Data.List.DropRight
import Mathlib.Data.List.Infix
import Mathlib.Data.Nat.Digits.Defs
import Mathlib.Data.Nat.Notation

set_option relaxedAutoImplicit false
set_option autoImplicit false

/-!
# Text as a list of characters

A `str` is the list of its code points. This file has the string operations that searching for a
fixed ASCII word needs: lower-casing, substring search, slices and replacement of one character.

## Main definitions

* `PyText.Text` — a string.
* `PyText.lower` — `str.lower`, as far as an ASCII word searched in the result can see.
* `PyText.isSpace` — `str.isspace` of one character.
* `PyText.strip` — `str.strip`.
* `PyText.Contains` — `needle in text`.
* `PyText.replaceChar` — `str.replace` of one character by another.
* `PyText.ofNat` — the decimal digits of a number.
* `PyText.splitLines` — `str.splitlines`.
-/

namespace PyText

/-- A string is the list of its code points. -/
abbrev Text := List Char

instance (priority := 2000) : LawfulBEq Text := List.instLawfulBEq

-- The characters of the text are tried, not all characters there are.
instance (priority := 2000) (P : Char → Prop) [DecidablePred P] (text : Text) :
    Decidable (∀ c ∈ text, P c) :=
  List.decidableBAll P text

/-- The lower-case form of one character. The two characters outside ASCII whose lower-case form
contains an ASCII letter are the Kelvin sign and the dotted capital I; the lower-case form of any
other character outside ASCII has no ASCII letter, and is left alone here. -/
def lowerChar (c : Char) : Text :=
  if c = '\u212A' then ['k']
  else if c = '\u0130' then ['i', '\u0307']
  else if 'A' ≤ c ∧ c ≤ 'Z' then [Char.ofNat (c.toNat + 32)]
  else [c]

/-- `text.lower()`. -/
def lower (text : Text) : Text := text.flatMap lowerChar

/-- `c.isspace()`, which is also what `\s` matches. -/
def isSpace (c : Char) : Bool :=
  c.toNat ∈ [0x09, 0x0A, 0x0B, 0x0C, 0x0D, 0x1C, 0x1D, 0x1E, 0x1F, 0x20, 0x85, 0xA0, 0x1680,
    0x2000, 0x2001, 0x2002, 0x2003, 0x2004, 0x2005, 0x2006, 0x2007, 0x2008, 0x2009, 0x200A,
    0x2028, 0x2029, 0x202F, 0x205F, 0x3000]

/-- `text.strip()`. -/
def strip (text : Text) : Text := (text.dropWhile isSpace).rdropWhile isSpace

/-- `needle in text`. -/
def Contains (needle text : Text) : Prop := needle <:+: text

instance (needle text : Text) : Decidable (Contains needle text) :=
  inferInstanceAs (Decidable (needle <:+: text))

/-- `text.replace(a, b)` for single characters `a` and `b`. -/
def replaceChar (a b : Char) (text : Text) : Text :=
  text.map fun c => if c = a then b else c

/-- The decimal digits of a number, as `str(n)` writes them. -/
def ofNat (n : ℕ) : Text := (Nat.repr n).toList

/-- The characters that end a line. -/
def isLineBreak (c : Char) : Bool :=
  c.toNat ∈ [0x0A, 0x0B, 0x0C, 0x0D, 0x1C, 0x1D, 0x1E, 0x85, 0x2028, 0x2029]

/-- The lines of a text, of which `line` has been read. -/
def splitLinesFrom (line : Text) : Text → List Text
  | [] => if line = [] then [] else [line]
  | '\r' :: '\n' :: text => line :: splitLinesFrom [] text
  | c :: text =>
    if isLineBreak c then line :: splitLinesFrom [] text else splitLinesFrom (line ++ [c]) text

/-- `text.splitlines()`. -/
def splitLines (text : Text) : List Text := splitLinesFrom [] text

/-- Different numbers are written differently. -/
theorem ofNat_injective : Function.Injective ofNat := by
  intro m n h
  have hread := congrArg (fun digits => Nat.ofDigitChars 10 digits 0) h
  simpa only [ofNat, Nat.toList_repr, Nat.ofDigitChars_ten_toDigits] using hread

/-! ## Stripping -/

/-- Stripping a stripped text changes nothing. -/
@[simp] theorem strip_strip (text : Text) : strip (strip text) = strip text := by
  have hstart : strip text <+: text.dropWhile isSpace := List.rdropWhile_prefix isSpace _
  have hhead : (strip text).dropWhile isSpace = strip text := by
    rw [List.dropWhile_eq_self_iff]
    intro hpos
    have hpos' := Nat.lt_of_lt_of_le hpos hstart.length_le
    rw [hstart.getElem hpos]
    exact List.dropWhile_get_zero_not isSpace text hpos'
  rw [strip, hhead, strip, List.rdropWhile_idempotent]

theorem length_strip_le (text : Text) : (strip text).length ≤ text.length :=
  (List.rdropWhile_prefix isSpace _).length_le.trans (List.dropWhile_suffix isSpace).length_le

/-! ## Searching -/

theorem lower_append (xs ys : Text) : lower (xs ++ ys) = lower xs ++ lower ys :=
  List.flatMap_append

/-- A word that does not contain a separator lies on one side of it. -/
theorem contains_append_cons {needle : Text} {c : Char} (h : c ∉ needle) (xs ys : Text) :
    Contains needle (xs ++ c :: ys) ↔ Contains needle xs ∨ Contains needle ys := by
  constructor
  · intro hin
    rcases List.infix_append_iff.mp hin with hx | hy | ⟨l₁, l₂, rfl, hsuffix, hprefix⟩
    · exact Or.inl hx
    · rcases List.infix_cons_iff.mp hy with hp | hy
      · cases needle with
        | nil => exact Or.inl List.nil_infix
        | cons d needle => exact absurd ((List.cons_prefix_cons.mp hp).1 ▸ List.mem_cons_self) h
      · exact Or.inr hy
    · cases l₂ with
      | nil => exact Or.inl ((List.append_nil l₁).symm ▸ hsuffix.isInfix)
      | cons d l₂ =>
        refine absurd (List.mem_append_right l₁ ?_) h
        exact (List.cons_prefix_cons.mp hprefix).1 ▸ List.mem_cons_self
  · rintro (hx | hy)
    · exact hx.trans (List.prefix_append _ _).isInfix
    · exact hy.trans ((List.suffix_cons c ys).trans (List.suffix_append _ _)).isInfix

end PyText
