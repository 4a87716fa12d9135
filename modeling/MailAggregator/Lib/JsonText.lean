import MailAggregator.Lib.PyText
import Mathlib.Data.Int.Notation

set_option relaxedAutoImplicit false
set_option autoImplicit false

/-!
# JSON texts

The text that is written for a value, without blanks, and the value that is read in a text. Reading
is more liberal than writing: it allows blanks between the tokens, every escape, floats, and the
three words for floats that are no numbers.

## Main definitions

* `JsonText.Value` — a JSON value.
* `JsonText.dumps` — `json.dumps(value, separators=(",", ":"))`, with or without `ensure_ascii`.
* `JsonText.loads` — `json.loads(text)`; `none` is `ValueError`.
* `JsonText.Value.Exact` — a value without floats.

## Main results

* `JsonText.loads_dumps` — a value that is written is read back.
* `JsonText.dumps_injective` — different values are written differently.

## Design

A float is kept as its literal, so that nothing depends on a float format. The scanner has fuel:
two units for each character are enough, since a call that consumes no character is followed by one
that does.
-/

namespace JsonText

open PyText

/-- A JSON value. The fields of an object stand in the order of the text. -/
inductive Value where
  | null
  | bool (b : Bool)
  | int (n : ℤ)
  | float (literal : Text)
  | str (text : Text)
  | arr (items : List Value)
  | obj (fields : List (Text × Value))

/-- The value of a key: the last one counts. -/
def Value.get (fields : List (Text × Value)) (key : Text) : Option Value :=
  (fields.reverse.find? fun field => field.1 = key).map Prod.snd

/-! ## Writing -/

/-- A digit of base 16. -/
def hexDigit (d : ℕ) : Char := Nat.digitChar d

/-- The escape of a code unit. -/
def escapeUnit (n : ℕ) : Text :=
  ['\\', 'u', hexDigit (n / 0x1000), hexDigit (n / 0x100 % 16), hexDigit (n / 16 % 16),
    hexDigit (n % 16)]

/-- A character of a string, as it is written. With `ensure_ascii` a character that ASCII does not
print is escaped, one outside the first plane as a pair of surrogates. -/
def escapeChar (ensureAscii : Bool) (c : Char) : Text :=
  if c = '"' then ['\\', '"']
  else if c = '\\' then ['\\', '\\']
  else if c = '\n' then ['\\', 'n']
  else if c = '\r' then ['\\', 'r']
  else if c = '\t' then ['\\', 't']
  else if c = '\x0C' then ['\\', 'f']
  else if c = '\x08' then ['\\', 'b']
  else if c.toNat < 0x20 then escapeUnit c.toNat
  else if ensureAscii ∧ 0x7F ≤ c.toNat then
    if c.toNat < 0x10000 then escapeUnit c.toNat
    else
      escapeUnit (0xD800 + (c.toNat - 0x10000) / 0x400) ++
        escapeUnit (0xDC00 + (c.toNat - 0x10000) % 0x400)
  else [c]

/-- A string with its quotes. -/
def quote (ensureAscii : Bool) (text : Text) : Text :=
  '"' :: (text.flatMap (escapeChar ensureAscii) ++ ['"'])

/-- `int.__repr__`. -/
def intRepr : ℤ → Text
  | .ofNat n => ofNat n
  | .negSucc n => '-' :: ofNat (n + 1)

section Dumps

variable (ensureAscii : Bool)

mutual

/-- `json.dumps(value, separators=(",", ":"), ensure_ascii=…)`. -/
def dumps : Value → Text
  | .null => "null".toList
  | .bool true => "true".toList
  | .bool false => "false".toList
  | .int n => intRepr n
  | .float literal => literal
  | .str text => quote ensureAscii text
  | .arr items => '[' :: (dumpsItems items ++ [']'])
  | .obj fields => '\x7b' :: (dumpsFields fields ++ ['\x7d'])

/-- The items of a list, with commas between them. -/
def dumpsItems : List Value → Text
  | [] => []
  | [v] => dumps v
  | v :: w :: vs => dumps v ++ ',' :: dumpsItems (w :: vs)

/-- The fields of an object, with commas between them. -/
def dumpsFields : List (Text × Value) → Text
  | [] => []
  | [(key, v)] => quote ensureAscii key ++ ':' :: dumps v
  | (key, v) :: f :: fs =>
    quote ensureAscii key ++ ':' :: (dumps v ++ ',' :: dumpsFields (f :: fs))

end

end Dumps

/-! ## Reading -/

/-- A blank between two tokens. -/
def isBlank (c : Char) : Bool := c ∈ [' ', '\t', '\n', '\r']

/-- The text after the blanks. -/
def skipBlanks (text : Text) : Text := text.dropWhile isBlank

/-- The text after a word that it begins with. -/
def after (word text : Text) : Option Text :=
  if word <+: text then some (text.drop word.length) else none

/-- The value of a digit of base 16. -/
def hexValue (c : Char) : Option ℕ :=
  if '0' ≤ c ∧ c ≤ '9' then some (c.toNat - 48)
  else if 'a' ≤ c ∧ c ≤ 'f' then some (c.toNat - 87)
  else if 'A' ≤ c ∧ c ≤ 'F' then some (c.toNat - 55)
  else none

/-- The number that four digits of base 16 make. -/
def hexFour : Text → Option (ℕ × Text)
  | a :: b :: c :: d :: rest =>
    match hexValue a, hexValue b, hexValue c, hexValue d with
    | some a, some b, some c, some d => some (((a * 16 + b) * 16 + c) * 16 + d, rest)
    | _, _, _, _ => none
  | _ => none

/-- A high surrogate is joined with the low one that an escape directly after it stands for. -/
def joinSurrogates (high : ℕ) : Text → ℕ × Text
  | '\\' :: 'u' :: rest =>
    match hexFour rest with
    | some (low, rest') =>
      if 0xDC00 ≤ low ∧ low ≤ 0xDFFF then
        (0x10000 + (high - 0xD800) * 0x400 + (low - 0xDC00), rest')
      else (high, '\\' :: 'u' :: rest)
    | none => (high, '\\' :: 'u' :: rest)
  | rest => (high, rest)

/-- The character of a code point. A lone surrogate is no character, and is replaced. -/
def charOf (n : ℕ) : Char := if n.isValidChar then Char.ofNat n else '\uFFFD'

/-- What an escape stands for, after its backslash. -/
def unescape : Text → Option (Char × Text)
  | '"' :: rest => some ('"', rest)
  | '\\' :: rest => some ('\\', rest)
  | '/' :: rest => some ('/', rest)
  | 'b' :: rest => some ('\x08', rest)
  | 'f' :: rest => some ('\x0C', rest)
  | 'n' :: rest => some ('\n', rest)
  | 'r' :: rest => some ('\r', rest)
  | 't' :: rest => some ('\t', rest)
  | 'u' :: rest =>
    (hexFour rest).map fun r =>
      if 0xD800 ≤ r.1 ∧ r.1 ≤ 0xDBFF then
        (charOf (joinSurrogates r.1 r.2).1, (joinSurrogates r.1 r.2).2)
      else (charOf r.1, r.2)
  | _ => none

/-- `scanstring`: the string after an opening quote. A control character must be escaped. -/
def scanString : ℕ → Text → Option (Text × Text)
  | 0, _ => none
  | _ + 1, [] => none
  | fuel + 1, c :: rest =>
    if c = '"' then some ([], rest)
    else if c = '\\' then
      match unescape rest with
      | some (d, rest) => (scanString fuel rest).map fun r => (d :: r.1, r.2)
      | none => none
    else if c.toNat < 0x20 then none
    else (scanString fuel rest).map fun r => (c :: r.1, r.2)

/-- The digits that a text begins with, and what follows them. -/
def digits (text : Text) : Text × Text := (text.takeWhile Char.isDigit, text.dropWhile Char.isDigit)

/-- The integer part of a number: no zero stands before another digit. -/
def integerPart : Text → Option (Text × Text)
  | '0' :: rest => some (['0'], rest)
  | text => if (digits text).1 = [] then none else some (digits text)

/-- The fraction of a number, if there is one. -/
def fractionPart : Text → Text × Text
  | '.' :: rest =>
    if (digits rest).1 = [] then ([], '.' :: rest) else ('.' :: (digits rest).1, (digits rest).2)
  | text => ([], text)

/-- A sign before the digits of an exponent. -/
def exponentSign : Text → Text × Text
  | '+' :: rest => (['+'], rest)
  | '-' :: rest => (['-'], rest)
  | text => ([], text)

/-- The exponent of a number, if there is one. -/
def exponentPart : Text → Text × Text
  | [] => ([], [])
  | c :: rest =>
    if c = 'e' ∨ c = 'E' then
      let (sign, rest') := exponentSign rest
      if (digits rest').1 = [] then ([], c :: rest)
      else (c :: sign ++ (digits rest').1, (digits rest').2)
    else ([], c :: rest)

/-- The sign of a number. -/
def numberSign : Text → Bool × Text
  | '-' :: rest => (true, rest)
  | text => (false, text)

/-- `_match_number`. -/
def scanNumber (text : Text) : Option (Value × Text) :=
  let (negative, rest) := numberSign text
  match integerPart rest with
  | none => none
  | some (integer, rest) =>
    let (fraction, rest) := fractionPart rest
    let (exponent, rest) := exponentPart rest
    let n : ℤ := Nat.ofDigitChars 10 integer 0
    if fraction = [] ∧ exponent = [] then some (.int (if negative then -n else n), rest)
    else some (.float ((if negative then ['-'] else []) ++ integer ++ fraction ++ exponent), rest)

/-- A value that is no string, list or object. -/
def scanAtom (text : Text) : Option (Value × Text) :=
  match after "null".toList text with
  | some rest => some (.null, rest)
  | none =>
  match after "true".toList text with
  | some rest => some (.bool true, rest)
  | none =>
  match after "false".toList text with
  | some rest => some (.bool false, rest)
  | none =>
  match scanNumber text with
  | some result => some result
  | none =>
    (["NaN", "Infinity", "-Infinity"].map String.toList).findSome? fun word =>
      (after word text).map fun rest => (.float word, rest)

mutual

/-- `scan_once`. -/
def scanOnce : ℕ → Text → Option (Value × Text)
  | 0, _ => none
  | fuel + 1, text =>
    match text with
    | '"' :: rest => (scanString (rest.length + 1) rest).map fun r => (.str r.1, r.2)
    | '\x7b' :: rest =>
      match skipBlanks rest with
      | '\x7d' :: rest => some (.obj [], rest)
      | rest => (scanFields fuel rest).map fun r => (.obj r.1, r.2)
    | '[' :: rest =>
      match skipBlanks rest with
      | ']' :: rest => some (.arr [], rest)
      | rest => (scanItems fuel rest).map fun r => (.arr r.1, r.2)
    | text => scanAtom text

/-- The items of a list, up to its closing bracket. -/
def scanItems : ℕ → Text → Option (List Value × Text)
  | 0, _ => none
  | fuel + 1, text =>
    match scanOnce fuel text with
    | none => none
    | some (v, rest) =>
      match skipBlanks rest with
      | ',' :: rest => (scanItems fuel (skipBlanks rest)).map fun r => (v :: r.1, r.2)
      | ']' :: rest => some ([v], rest)
      | _ => none

/-- The fields of an object, up to its closing brace. -/
def scanFields : ℕ → Text → Option (List (Text × Value) × Text)
  | 0, _ => none
  | fuel + 1, text =>
    match text with
    | '"' :: rest =>
      match scanString (rest.length + 1) rest with
      | none => none
      | some (key, rest) =>
        match skipBlanks rest with
        | ':' :: rest =>
          match scanOnce fuel (skipBlanks rest) with
          | none => none
          | some (v, rest) =>
            match skipBlanks rest with
            | ',' :: rest =>
              (scanFields fuel (skipBlanks rest)).map fun r => ((key, v) :: r.1, r.2)
            | '\x7d' :: rest => some ([(key, v)], rest)
            | _ => none
        | _ => none
    | _ => none

end

/-- `json.loads(text)`. -/
def loads (text : Text) : Option Value :=
  if text.head? = some '\uFEFF' then none
  else
    match scanOnce (2 * text.length + 2) (skipBlanks text) with
    | some (v, rest) => if skipBlanks rest = [] then some v else none
    | none => none

/-! ## Strings -/

theorem hexValue_hexDigit {d : ℕ} (h : d < 16) : hexValue (hexDigit d) = some d := by
  revert d
  decide

/-- The four digits of a code unit are read back. -/
theorem hexFour_escapeUnit {n : ℕ} (h : n < 0x10000) (rest : Text) :
    hexFour ((escapeUnit n).drop 2 ++ rest) = some (n, rest) := by
  have hvalue : ((n / 0x1000 * 16 + n / 0x100 % 16) * 16 + n / 16 % 16) * 16 + n % 16 = n := by
    omega
  have hfirst : n / 0x1000 < 16 := by omega
  simp only [escapeUnit, List.drop_succ_cons, List.drop_zero, List.cons_append, List.nil_append,
    hexFour, hexValue_hexDigit hfirst, hexValue_hexDigit (Nat.mod_lt _ (by decide : 0 < 16)),
    hvalue]

theorem escapeUnit_eq (n : ℕ) : escapeUnit n = '\\' :: 'u' :: (escapeUnit n).drop 2 := rfl

theorem charOf_toNat (c : Char) : charOf c.toNat = c := by
  have hvalid : Nat.isValidChar c.toNat := c.valid
  rw [charOf, if_pos hvalid, Char.ofNat_toNat]

/-- The escape of a character that is one code unit. -/
theorem unescape_escapeUnit {c : Char} (h : c.toNat < 0x10000) (rest : Text) :
    unescape ((escapeUnit c.toNat).tail ++ rest) = some (c, rest) := by
  have hfour := hexFour_escapeUnit h rest
  have hvalid : Nat.isValidChar c.toNat := c.valid
  have hplain : ¬ (0xD800 ≤ c.toNat ∧ c.toNat ≤ 0xDBFF) := by
    rcases hvalid with h | h <;> omega
  show Option.map _ (hexFour ((escapeUnit c.toNat).drop 2 ++ rest)) = _
  rw [hfour, Option.map_some, if_neg hplain, charOf_toNat]

/-- The escapes of a character that is two code units. -/
theorem unescape_pair {c : Char} (h : ¬ c.toNat < 0x10000) (rest : Text) :
    unescape ((escapeUnit (0xD800 + (c.toNat - 0x10000) / 0x400)).tail ++
      (escapeUnit (0xDC00 + (c.toNat - 0x10000) % 0x400) ++ rest)) = some (c, rest) := by
  have hvalid : Nat.isValidChar c.toNat := c.valid
  have hlt : c.toNat < 0x110000 := by
    rcases hvalid with h | h <;> omega
  set high := 0xD800 + (c.toNat - 0x10000) / 0x400 with hhigh
  set low := 0xDC00 + (c.toNat - 0x10000) % 0x400 with hlow
  have hfour := hexFour_escapeUnit (n := high) (by omega) (escapeUnit low ++ rest)
  have hfour' := hexFour_escapeUnit (n := low) (by omega) rest
  have hcode : 0x10000 + (high - 0xD800) * 0x400 + (low - 0xDC00) = c.toNat := by omega
  have hjoin : joinSurrogates high (escapeUnit low ++ rest) = (c.toNat, rest) := by
    rw [escapeUnit_eq low, List.cons_append, List.cons_append, joinSurrogates, hfour']
    simp only
    rw [if_pos (by omega), hcode]
  show Option.map _ (hexFour ((escapeUnit high).drop 2 ++ (escapeUnit low ++ rest))) = _
  rw [hfour, Option.map_some, if_pos (by simp only; omega)]
  simp only [hjoin, charOf_toNat]

/-- The scanner reads an escape as the character that it stands for. -/
theorem scanString_backslash {fuel : ℕ} {text rest : Text} {c : Char}
    (h : unescape text = some (c, rest)) :
    scanString (fuel + 1) ('\\' :: text) =
      (scanString fuel rest).map fun r => (c :: r.1, r.2) := by
  rw [scanString, if_neg (by decide), if_pos rfl, h]

/-- **A character is read back**, whichever way it is written. -/
theorem scanString_escapeChar (ensureAscii : Bool) (c : Char) (fuel : ℕ) (rest : Text) :
    scanString (fuel + 1) (escapeChar ensureAscii c ++ rest) =
      (scanString fuel rest).map fun r => (c :: r.1, r.2) := by
  unfold escapeChar
  split_ifs with hquote hslash hn hr ht hf hb hctrl hascii hplane
  case pos | pos | pos | pos | pos | pos | pos =>
    subst_vars
    exact scanString_backslash rfl
  case pos => exact scanString_backslash (unescape_escapeUnit (by omega) rest)
  case pos => exact scanString_backslash (unescape_escapeUnit hplane rest)
  case neg =>
    rw [List.append_assoc]
    exact scanString_backslash (unescape_pair hplane rest)
  case neg => rw [List.singleton_append, scanString, if_neg hquote, if_neg hslash, if_neg hctrl]

/-- **A string is read back**, up to its closing quote. -/
theorem scanString_quote (ensureAscii : Bool) (text rest : Text) {fuel : ℕ}
    (h : text.length < fuel) :
    scanString fuel (text.flatMap (escapeChar ensureAscii) ++ '"' :: rest) = some (text, rest) := by
  induction text generalizing fuel with
  | nil =>
    obtain ⟨fuel, rfl⟩ := Nat.exists_eq_succ_of_ne_zero (Nat.ne_of_gt h)
    rfl
  | cons c text ih =>
    obtain ⟨fuel, rfl⟩ := Nat.exists_eq_succ_of_ne_zero (Nat.ne_of_gt (Nat.zero_lt_of_lt h))
    rw [List.flatMap_cons, List.append_assoc, Nat.succ_eq_add_one, scanString_escapeChar,
      ih (Nat.lt_of_succ_lt_succ h)]
    rfl

theorem escapeChar_ne_nil (ensureAscii : Bool) (c : Char) : escapeChar ensureAscii c ≠ [] := by
  intro hnil
  have hread := scanString_escapeChar ensureAscii c 0 ['"']
  rw [hnil] at hread
  cases hread

/-- A written string is at least as long as the string. -/
theorem length_le_flatMap_escapeChar (ensureAscii : Bool) (text : Text) :
    text.length ≤ (text.flatMap (escapeChar ensureAscii)).length := by
  induction text with
  | nil => exact Nat.le_refl 0
  | cons c text ih =>
    have hpos := List.length_pos_iff.mpr (escapeChar_ne_nil ensureAscii c)
    rw [List.flatMap_cons, List.length_append, List.length_cons]
    omega

/-! ## Numbers -/

/-- What may follow a value: nothing, a comma, or a closing bracket or brace. -/
def Ends (rest : Text) : Prop := ∀ c ∈ rest.head?, c = ',' ∨ c = ']' ∨ c = '\x7d'

theorem ends_nil : Ends [] := by simp [Ends]

theorem ends_cons {c : Char} (h : c = ',' ∨ c = ']' ∨ c = '\x7d') (rest : Text) :
    Ends (c :: rest) := by
  intro d hd
  obtain rfl : c = d := by simpa using hd
  exact h

theorem ofNat_eq (n : ℕ) : ofNat n = Nat.toDigits 10 n := Nat.toList_repr

theorem isDigit_of_mem {n : ℕ} {c : Char} (h : c ∈ ofNat n) : c.isDigit = true :=
  Nat.isDigit_of_mem_toDigits (by decide) (by decide) (ofNat_eq n ▸ h)

/-- Only the number zero is written with a zero at the start. -/
theorem head_ofNat_ne_zero {n : ℕ} (h : 0 < n) : ∀ c ∈ (ofNat n).head?, c ≠ '0' := by
  rw [ofNat_eq]
  induction n using Nat.strong_induction_on with
  | h n ih =>
    rcases Nat.lt_or_ge n 10 with hlt | hge
    · have hdigit : ∀ d < 10, 0 < d → Nat.digitChar d ≠ '0' := by decide
      rw [Nat.toDigits_of_lt_base hlt]
      simpa using hdigit n hlt h
    · rw [Nat.toDigits_of_base_le (by decide) hge,
        List.head?_append_of_ne_nil _ Nat.toDigits_ne_nil]
      exact ih (n / 10) (by omega) (by omega)

/-- The digits end where the number ends. -/
theorem digits_append {text rest : Text} (h : ∀ c ∈ text, c.isDigit = true) (hr : Ends rest) :
    digits (text ++ rest) = (text, rest) := by
  have hrest : rest.takeWhile Char.isDigit = [] ∧ rest.dropWhile Char.isDigit = rest := by
    cases rest with
    | nil => exact ⟨rfl, rfl⟩
    | cons c rest =>
      have hc : c.isDigit = false := by
        rcases hr c rfl with rfl | rfl | rfl <;> rfl
      exact ⟨List.takeWhile_cons_of_neg (by simp [hc]), List.dropWhile_cons_of_neg (by simp [hc])⟩
  rw [digits, List.takeWhile_append_of_pos h, List.dropWhile_append_of_pos h, hrest.1, hrest.2,
    List.append_nil]

theorem integerPart_ofNat (n : ℕ) {rest : Text} (hr : Ends rest) :
    integerPart (ofNat n ++ rest) = some (ofNat n, rest) := by
  rcases Nat.eq_zero_or_pos n with rfl | hpos
  · rfl
  · have hdigits := digits_append (fun c hc => isDigit_of_mem (n := n) hc) hr
    have hhead := head_ofNat_ne_zero hpos
    have hne : ofNat n ≠ [] := ofNat_eq n ▸ Nat.toDigits_ne_nil
    cases htext : ofNat n with
    | nil => exact absurd htext hne
    | cons c cs =>
      rw [htext] at hdigits hhead
      have hc : c ≠ '0' := hhead c rfl
      rw [List.cons_append] at hdigits ⊢
      rw [integerPart]
      · rw [hdigits, if_neg (List.cons_ne_nil c cs)]
      · exact fun _ heq => hc (List.cons.inj heq).1

theorem fractionPart_of_ends {rest : Text} (hr : Ends rest) : fractionPart rest = ([], rest) := by
  cases rest with
  | nil => rfl
  | cons c rest => rcases hr c rfl with rfl | rfl | rfl <;> rfl

theorem exponentPart_of_ends {rest : Text} (hr : Ends rest) : exponentPart rest = ([], rest) := by
  cases rest with
  | nil => rfl
  | cons c rest => rcases hr c rfl with rfl | rfl | rfl <;> rfl

/-- A text that does not begin with a minus has no sign. -/
theorem numberSign_ofNat (n : ℕ) (rest : Text) :
    numberSign (ofNat n ++ rest) = (false, ofNat n ++ rest) := by
  have hdigit := fun c hc => isDigit_of_mem (n := n) (c := c) hc
  have hne : ofNat n ≠ [] := ofNat_eq n ▸ Nat.toDigits_ne_nil
  cases htext : ofNat n with
  | nil => exact absurd htext hne
  | cons c cs =>
    have hc : c ≠ '-' := by
      rintro rfl
      exact absurd (hdigit '-' (htext ▸ List.mem_cons_self)) (by decide)
    rw [List.cons_append, numberSign]
    exact fun _ heq => hc (List.cons.inj heq).1

theorem ofDigitChars_ofNat (n : ℕ) : Nat.ofDigitChars 10 (ofNat n) 0 = n := by
  rw [ofNat_eq, Nat.ofDigitChars_ten_toDigits]

/-- **A number is read back.** -/
theorem scanNumber_intRepr (n : ℤ) {rest : Text} (hr : Ends rest) :
    scanNumber (intRepr n ++ rest) = some (.int n, rest) := by
  cases n with
  | ofNat n =>
    simp only [scanNumber, intRepr, numberSign_ofNat, integerPart_ofNat n hr,
      fractionPart_of_ends hr, exponentPart_of_ends hr, ofDigitChars_ofNat]
    rfl
  | negSucc n =>
    simp only [scanNumber, intRepr, List.cons_append, numberSign, integerPart_ofNat _ hr,
      fractionPart_of_ends hr, exponentPart_of_ends hr, ofDigitChars_ofNat]
    rfl

/-! ## The round trip -/

mutual

/-- A value without floats. -/
def Value.Exact : Value → Prop
  | .null | .bool _ | .int _ | .str _ => True
  | .float _ => False
  | .arr items => ItemsExact items
  | .obj fields => FieldsExact fields

/-- Items without floats. -/
def ItemsExact : List Value → Prop
  | [] => True
  | v :: vs => v.Exact ∧ ItemsExact vs

/-- Fields without floats. -/
def FieldsExact : List (Text × Value) → Prop
  | [] => True
  | (_, v) :: fs => v.Exact ∧ FieldsExact fs

end

/-- The character that a written number begins with. -/
theorem exists_cons_intRepr (n : ℤ) :
    ∃ c cs, intRepr n = c :: cs ∧ (c = '-' ∨ c.isDigit = true) := by
  cases n with
  | ofNat n =>
    have hne : ofNat n ≠ [] := ofNat_eq n ▸ Nat.toDigits_ne_nil
    obtain ⟨c, cs, htext⟩ := List.exists_cons_of_ne_nil hne
    exact ⟨c, cs, htext, Or.inr (isDigit_of_mem (n := n) (htext ▸ List.mem_cons_self))⟩
  | negSucc n => exact ⟨'-', _, rfl, Or.inl rfl⟩

/-- A text with another first character does not begin with a word. -/
theorem after_of_ne {c d : Char} (h : c ≠ d) (word text : Text) :
    after (c :: word) (d :: text) = none := by
  rw [after, if_neg]
  exact fun hstart => h (List.cons_prefix_cons.mp hstart).1

theorem scanAtom_intRepr (n : ℤ) {rest : Text} (hr : Ends rest) :
    scanAtom (intRepr n ++ rest) = some (.int n, rest) := by
  have hnumber := scanNumber_intRepr n hr
  obtain ⟨c, cs, htext, hc⟩ := exists_cons_intRepr n
  have hword : ∀ d : Char, d ≠ '-' → d.isDigit = false → d ≠ c := by
    rintro d hminus hdigit rfl
    rcases hc with rfl | hc
    · exact hminus rfl
    · rw [hdigit] at hc
      cases hc
  rw [htext, List.cons_append] at hnumber ⊢
  have hnull : after "null".toList (c :: (cs ++ rest)) = none :=
    after_of_ne (hword 'n' (by decide) (by decide)) _ _
  have htrue : after "true".toList (c :: (cs ++ rest)) = none :=
    after_of_ne (hword 't' (by decide) (by decide)) _ _
  have hfalse : after "false".toList (c :: (cs ++ rest)) = none :=
    after_of_ne (hword 'f' (by decide) (by decide)) _ _
  rw [scanAtom, hnull, htrue, hfalse, hnumber]

/-- A value with another first character is no string, list or object. -/
theorem scanOnce_atom {c : Char} (hquote : c ≠ '"') (hbrace : c ≠ '\x7b') (hbracket : c ≠ '[')
    (fuel : ℕ) (text : Text) : scanOnce (fuel + 1) (c :: text) = scanAtom (c :: text) := by
  rw [scanOnce]
  · exact fun _ heq => hquote (List.cons.inj heq).1
  · exact fun _ heq => hbrace (List.cons.inj heq).1
  · exact fun _ heq => hbracket (List.cons.inj heq).1

section RoundTrip

variable (ensureAscii : Bool)

/-- A character with which a written value may begin: no blank, no closing bracket, no byte order
mark. -/
structure Opens (c : Char) : Prop where
  not_blank : isBlank c = false
  ne_bracket : c ≠ ']'
  ne_bom : c ≠ '\uFEFF'

theorem opens_of_isDigit {c : Char} (h : c.isDigit = true) : Opens c := by
  constructor
  · by_contra hblank
    rw [Bool.not_eq_false, isBlank, decide_eq_true_eq] at hblank
    simp only [List.mem_cons, List.not_mem_nil, or_false] at hblank
    rcases hblank with rfl | rfl | rfl | rfl <;> cases h
  all_goals
    rintro rfl
    cases h

/-- **What a written value begins with.** -/
theorem exists_cons_dumps {v : Value} (hv : v.Exact) :
    ∃ c cs, dumps ensureAscii v = c :: cs ∧ Opens c := by
  have hopens : Opens 'n' ∧ Opens 't' ∧ Opens 'f' ∧ Opens '-' ∧ Opens '"' ∧ Opens '[' ∧
      Opens '\x7b' := by
    refine ⟨?_, ?_, ?_, ?_, ?_, ?_, ?_⟩ <;> exact ⟨by decide, by decide, by decide⟩
  obtain ⟨hn, ht, hf, hminus, hquote, hbracket, hbrace⟩ := hopens
  cases v with
  | null => exact ⟨'n', _, rfl, hn⟩
  | bool b =>
    cases b with
    | true => exact ⟨'t', _, rfl, ht⟩
    | false => exact ⟨'f', _, rfl, hf⟩
  | int n =>
    obtain ⟨c, cs, htext, rfl | hc⟩ := exists_cons_intRepr n
    · exact ⟨'-', cs, htext, hminus⟩
    · exact ⟨c, cs, htext, opens_of_isDigit hc⟩
  | float literal => exact hv.elim
  | str text => exact ⟨'"', _, rfl, hquote⟩
  | arr items => exact ⟨'[', _, rfl, hbracket⟩
  | obj fields => exact ⟨'\x7b', _, rfl, hbrace⟩

theorem skipBlanks_of_not_isBlank {c : Char} (h : isBlank c = false) (text : Text) :
    skipBlanks (c :: text) = c :: text :=
  List.dropWhile_cons_of_neg (by simp [h])

/-- No blanks stand before a written value. -/
theorem skipBlanks_dumps {v : Value} (hv : v.Exact) (rest : Text) :
    skipBlanks (dumps ensureAscii v ++ rest) = dumps ensureAscii v ++ rest := by
  obtain ⟨c, cs, htext, hc⟩ := exists_cons_dumps ensureAscii hv
  rw [htext]
  exact skipBlanks_of_not_isBlank hc.not_blank _

theorem dumpsItems_cons (v : Value) {vs : List Value} (h : vs ≠ []) :
    dumpsItems ensureAscii (v :: vs) =
      dumps ensureAscii v ++ ',' :: dumpsItems ensureAscii vs := by
  obtain ⟨w, ws, rfl⟩ := List.exists_cons_of_ne_nil h
  rw [dumpsItems]

theorem dumpsFields_cons (key : Text) (v : Value) {fs : List (Text × Value)} (h : fs ≠ []) :
    dumpsFields ensureAscii ((key, v) :: fs) =
      quote ensureAscii key ++ ':' :: (dumps ensureAscii v ++
        ',' :: dumpsFields ensureAscii fs) := by
  obtain ⟨f, fs, rfl⟩ := List.exists_cons_of_ne_nil h
  rw [dumpsFields]

/-- The key of a field is read back. -/
theorem scanString_key (key rest : Text) :
    scanString ((key.flatMap (escapeChar ensureAscii) ++ '"' :: rest).length + 1)
      (key.flatMap (escapeChar ensureAscii) ++ '"' :: rest) = some (key, rest) := by
  refine scanString_quote ensureAscii key rest ?_
  have hle := length_le_flatMap_escapeChar ensureAscii key
  rw [List.length_append]
  omega

theorem length_dumps_pos {v : Value} (hv : v.Exact) : 0 < (dumps ensureAscii v).length := by
  obtain ⟨c, cs, htext, -⟩ := exists_cons_dumps ensureAscii hv
  rw [htext]
  exact Nat.succ_pos _

/-- What the items of a list begin with. -/
theorem exists_cons_dumpsItems {v : Value} (hv : v.Exact) (vs : List Value) :
    ∃ c cs, dumpsItems ensureAscii (v :: vs) = c :: cs ∧ Opens c := by
  obtain ⟨c, cs, htext, hc⟩ := exists_cons_dumps ensureAscii hv
  cases vs with
  | nil => exact ⟨c, cs, htext, hc⟩
  | cons w vs =>
    refine ⟨c, cs ++ ',' :: dumpsItems ensureAscii (w :: vs), ?_, hc⟩
    rw [dumpsItems, htext]
    rfl

/-- What the fields of an object begin with. -/
theorem exists_cons_dumpsFields (key : Text) (v : Value) (fs : List (Text × Value)) :
    ∃ cs, dumpsFields ensureAscii ((key, v) :: fs) = '"' :: cs := by
  cases fs with
  | nil => exact ⟨_, rfl⟩
  | cons f fs => exact ⟨_, rfl⟩

theorem scanOnce_arr {c : Char} (hc : Opens c) (fuel : ℕ) (text : Text) :
    scanOnce (fuel + 1) ('[' :: c :: text) =
      (scanItems fuel (c :: text)).map fun r => (.arr r.1, r.2) := by
  rw [scanOnce, skipBlanks_of_not_isBlank hc.not_blank]
  split
  · next heq => exact absurd (List.cons.inj heq).1 hc.ne_bracket
  · rfl

theorem scanOnce_obj (fuel : ℕ) (text : Text) :
    scanOnce (fuel + 1) ('\x7b' :: '"' :: text) =
      (scanFields fuel ('"' :: text)).map fun r => (.obj r.1, r.2) := by
  rw [scanOnce, skipBlanks_of_not_isBlank (by decide)]
  rfl

/-- The scanner goes on after a comma. -/
theorem scanItems_comma {fuel : ℕ} {text rest : Text} {v : Value}
    (h : scanOnce fuel text = some (v, ',' :: rest)) :
    scanItems (fuel + 1) text =
      (scanItems fuel (skipBlanks rest)).map fun r => (v :: r.1, r.2) := by
  rw [scanItems, h]
  simp only [skipBlanks_of_not_isBlank (c := ',') (by decide)]

theorem scanItems_bracket {fuel : ℕ} {text rest : Text} {v : Value}
    (h : scanOnce fuel text = some (v, ']' :: rest)) :
    scanItems (fuel + 1) text = some ([v], rest) := by
  rw [scanItems, h]
  simp only [skipBlanks_of_not_isBlank (c := ']') (by decide)]

/-- A field is read back as its key and its value. -/
theorem scanFields_quote {fuel : ℕ} {text : Text} {v : Value} (hv : v.Exact) (key : Text) :
    scanFields (fuel + 1) (quote ensureAscii key ++ ':' :: (dumps ensureAscii v ++ text)) =
      match scanOnce fuel (dumps ensureAscii v ++ text) with
      | none => none
      | some (v, rest) =>
        match skipBlanks rest with
        | ',' :: rest =>
          (scanFields fuel (skipBlanks rest)).map fun r => ((key, v) :: r.1, r.2)
        | '\x7d' :: rest => some ([(key, v)], rest)
        | _ => none := by
  rw [quote, List.cons_append, List.append_assoc, List.singleton_append, scanFields, scanString_key]
  simp only [skipBlanks_of_not_isBlank (c := ':') (by decide), skipBlanks_dumps ensureAscii hv]

mutual

/-- **A value is read back**, up to what follows it.

**Proof sketch.** By recursion on the value, together with the items of a list and the fields of an
object. A call takes one unit of fuel, and the texts of the parts are shorter by at least half a
unit for each of them. -/
theorem scanOnce_dumps : ∀ (v : Value), v.Exact → ∀ (rest : Text), Ends rest → ∀ (fuel : ℕ),
    2 * (dumps ensureAscii v).length ≤ fuel →
      scanOnce fuel (dumps ensureAscii v ++ rest) = some (v, rest) := by
  intro v hv rest hr fuel h
  obtain ⟨fuel, rfl⟩ : ∃ fuel', fuel = fuel' + 1 := by
    have hpos := length_dumps_pos ensureAscii hv
    exact ⟨fuel - 1, by omega⟩
  match v, hv with
  | .null, _ | .bool true, _ | .bool false, _ | .arr [], _ | .obj [], _ => rfl
  | .int n, _ =>
    have hatom := scanAtom_intRepr n hr
    obtain ⟨c, cs, htext, hc⟩ := exists_cons_intRepr n
    rw [htext] at hatom
    rw [dumps, htext, List.cons_append, scanOnce_atom]
    · exact hatom
    all_goals
      rintro rfl
      rcases hc with hc | hc <;> cases hc
  | .str text, _ =>
    rw [dumps, quote, List.cons_append, List.append_assoc, List.singleton_append, scanOnce,
      scanString_key]
    rfl
  | .arr (v :: vs), hv =>
    simp only [dumps, List.length_cons, List.length_append, List.length_nil] at h
    have hitems := scanItems_dumps (v :: vs) hv (List.cons_ne_nil v vs) rest fuel (by omega)
    obtain ⟨c, cs, htext, hc⟩ := exists_cons_dumpsItems ensureAscii hv.1 vs
    rw [htext, List.cons_append] at hitems
    rw [dumps, htext, List.cons_append, List.cons_append, List.cons_append, List.append_assoc,
      List.singleton_append, scanOnce_arr hc, hitems, Option.map_some]
  | .obj ((key, v) :: fs), hv =>
    simp only [dumps, List.length_cons, List.length_append, List.length_nil] at h
    have hfields :=
      scanFields_dumps ((key, v) :: fs) hv (List.cons_ne_nil _ fs) rest fuel (by omega)
    obtain ⟨cs, htext⟩ := exists_cons_dumpsFields ensureAscii key v fs
    rw [htext, List.cons_append] at hfields
    rw [dumps, htext, List.cons_append, List.append_assoc, List.singleton_append, List.cons_append,
      scanOnce_obj, hfields, Option.map_some]

/-- The items of a list are read back. -/
theorem scanItems_dumps : ∀ (items : List Value), ItemsExact items → items ≠ [] →
    ∀ (rest : Text) (fuel : ℕ), 2 * (dumpsItems ensureAscii items).length + 1 ≤ fuel →
      scanItems fuel (dumpsItems ensureAscii items ++ ']' :: rest) = some (items, rest)
  | [], _, h, _, _, _ => absurd rfl h
  | [v], hv, _, rest, fuel + 1, h =>
    scanItems_bracket (scanOnce_dumps v hv.1 _ (ends_cons (by simp) rest) fuel (by
      rw [dumpsItems] at h
      omega))
  | v :: w :: vs, hv, _, rest, fuel + 1, h => by
    have hne : w :: vs ≠ [] := List.cons_ne_nil w vs
    rw [dumpsItems_cons ensureAscii v hne, List.length_append, List.length_cons] at h
    have hrest := scanItems_dumps (w :: vs) hv.2 hne rest fuel (by omega)
    obtain ⟨c, cs, htext, hc⟩ := exists_cons_dumpsItems ensureAscii hv.2.1 vs
    rw [dumpsItems_cons ensureAscii v hne, List.append_assoc, List.cons_append,
      scanItems_comma (scanOnce_dumps v hv.1 _ (ends_cons (by simp) _) fuel (by omega))]
    rw [htext, List.cons_append] at hrest ⊢
    rw [skipBlanks_of_not_isBlank hc.not_blank, hrest, Option.map_some]

/-- The fields of an object are read back. -/
theorem scanFields_dumps : ∀ (fields : List (Text × Value)), FieldsExact fields → fields ≠ [] →
    ∀ (rest : Text) (fuel : ℕ), 2 * (dumpsFields ensureAscii fields).length + 1 ≤ fuel →
      scanFields fuel (dumpsFields ensureAscii fields ++ '\x7d' :: rest) = some (fields, rest)
  | [], _, h, _, _, _ => absurd rfl h
  | [(key, v)], hv, _, rest, fuel + 1, h => by
    rw [dumpsFields, List.length_append, List.length_cons] at h
    rw [dumpsFields, List.append_assoc, List.cons_append, scanFields_quote ensureAscii hv.1,
      scanOnce_dumps v hv.1 _ (ends_cons (by simp) rest) fuel (by omega)]
    simp only [skipBlanks_of_not_isBlank (c := '\x7d') (by decide)]
  | (key, v) :: (key', w) :: fs, hv, _, rest, fuel + 1, h => by
    have hne : (key', w) :: fs ≠ [] := List.cons_ne_nil _ fs
    rw [dumpsFields_cons ensureAscii key v hne, List.length_append, List.length_cons,
      List.length_append, List.length_cons] at h
    have hrest := scanFields_dumps ((key', w) :: fs) hv.2 hne rest fuel (by omega)
    obtain ⟨cs, htext⟩ := exists_cons_dumpsFields ensureAscii key' w fs
    rw [dumpsFields_cons ensureAscii key v hne, List.append_assoc, List.cons_append,
      List.append_assoc, List.cons_append, scanFields_quote ensureAscii hv.1,
      scanOnce_dumps v hv.1 _ (ends_cons (by simp) _) fuel (by omega)]
    rw [htext, List.cons_append] at hrest ⊢
    simp only [skipBlanks_of_not_isBlank (c := ',') (by decide),
      skipBlanks_of_not_isBlank (c := '"') (by decide), hrest, Option.map_some]

end

/-- **A value that is written is read back.** -/
theorem loads_dumps {v : Value} (hv : v.Exact) : loads (dumps ensureAscii v) = some v := by
  have hscan := scanOnce_dumps ensureAscii v hv [] ends_nil
    (2 * (dumps ensureAscii v).length + 2) (by omega)
  have hblanks := skipBlanks_dumps ensureAscii hv []
  rw [List.append_nil] at hscan hblanks
  have hbom : ¬ (dumps ensureAscii v).head? = some '\uFEFF' := by
    obtain ⟨c, cs, htext, hc⟩ := exists_cons_dumps ensureAscii hv
    rw [htext, List.head?_cons, Option.some.injEq]
    exact hc.ne_bom
  rw [loads, if_neg hbom, hblanks, hscan]
  rfl

/-- **Different values are written differently.** -/
theorem dumps_injective {v w : Value} (hv : v.Exact) (hw : w.Exact)
    (h : dumps ensureAscii v = dumps ensureAscii w) : v = w := by
  have hread := loads_dumps ensureAscii hv
  rw [h, loads_dumps ensureAscii hw] at hread
  exact (Option.some.inj hread).symm

end RoundTrip

end JsonText
