import MailAggregator.Lib.Utf8
import Mathlib.Data.List.Basic
import Mathlib.Tactic.SplitIfs

set_option relaxedAutoImplicit false
set_option autoImplicit false

/-!
# Forms in a query

The query that is written for the fields of a form, and the fields that are read in a query: both in
`application/x-www-form-urlencoded`, over UTF-8.

## Main definitions

* `FormUrl.quotePlus`, `FormUrl.unquotePlus` — a text in a query.
* `FormUrl.urlencode` — the query of some fields.
* `FormUrl.parseQuery` — the fields of a query.

## Main results

* `FormUrl.unquotePlus_quotePlus` — a text is read back.
* `FormUrl.parseQuery_urlencode` — the fields are read back, whatever their names and values are.
* `FormUrl.not_mem_urlencode` — a query ends nothing around it.
-/

namespace FormUrl

open PyText Utf8

/-! ## Writing -/

/-- The digits of `"%X"`. -/
def hexDigit (d : ℕ) : Char := if d < 10 then Char.ofNat (48 + d) else Char.ofNat (55 + d)

/-- `_ALWAYS_SAFE`. -/
def Safe (c : Char) : Prop := c.isAlphanum ∨ c ∈ ['_', '.', '-', '~']

instance : DecidablePred Safe := fun _ => inferInstanceAs (Decidable (_ ∨ _))

/-- A byte in a query. -/
def quoteByte (b : Byte) : Text :=
  if b = 0x20 then ['+']
  else if b < 0x80 ∧ Safe (Char.ofNat b) then [Char.ofNat b]
  else ['%', hexDigit (b / 16), hexDigit (b % 16)]

/-- `quote_plus`. -/
def quotePlus (text : Text) : Text := (encode text).flatMap quoteByte

/-- A field in a query. -/
def quoteField (field : Text × Text) : Text := quotePlus field.1 ++ '=' :: quotePlus field.2

/-- `urlencode`. -/
def urlencode (fields : List (Text × Text)) : Text := ['&'].intercalate (fields.map quoteField)

/-! ## Reading -/

/-- The value of a hexadecimal digit. -/
def hexValue (c : Char) : Option ℕ :=
  if '0' ≤ c ∧ c ≤ '9' then some (c.toNat - 48)
  else if 'A' ≤ c ∧ c ≤ 'F' then some (c.toNat - 55)
  else if 'a' ≤ c ∧ c ≤ 'f' then some (c.toNat - 87)
  else none

/-- The bytes that a part of a query stands for. A `%` without two digits stands for itself. -/
def unquoteBytes : Text → List Byte
  | [] => []
  | '%' :: h :: l :: rest =>
    match hexValue h, hexValue l with
    | some hi, some lo => (hi * 16 + lo) :: unquoteBytes rest
    | _, _ => 0x25 :: unquoteBytes (h :: l :: rest)
  | c :: rest => (if c = '+' then [0x20] else encodeChar c) ++ unquoteBytes rest

/-- The text that a part of a query stands for; `none` if its bytes are not UTF-8. -/
def unquotePlus (text : Text) : Option Text := decode (unquoteBytes text)

/-- A field of a query, with the value after the first `=`. -/
def parseField (text : Text) : Option (Text × Text) :=
  match unquotePlus (text.takeWhile (· ≠ '=')), unquotePlus (text.dropWhile (· ≠ '=')).tail with
  | some name, some value => some (name, value)
  | _, _ => none

/-- The fields of a query. -/
def parseQuery (text : Text) : Option (List (Text × Text)) :=
  ((text.splitOn '&').filter (· ≠ [])).mapM parseField

/-! ## A text is read back -/

theorem hexValue_hexDigit {d : ℕ} (h : d < 16) : hexValue (hexDigit d) = some d := by
  revert d
  decide

theorem isAlphanum_hexDigit {d : ℕ} (h : d < 16) : (hexDigit d).isAlphanum = true := by
  revert d
  decide

theorem lt_of_mem_encodeChar {c : Char} {b : ℕ} (h : b ∈ encodeChar c) : b < 0x100 := by
  have hlt : c.toNat < 0x110000 := by
    rcases isValidChar_toNat c with hvalid | hvalid <;> omega
  simp only [encodeChar] at h
  split_ifs at h <;> simp only [List.mem_cons, List.not_mem_nil, or_false] at h <;> omega

theorem lt_of_mem_encode {text : Text} {b : ℕ} (h : b ∈ encode text) : b < 0x100 := by
  obtain ⟨c, -, hb⟩ := List.mem_flatMap.mp h
  exact lt_of_mem_encodeChar hb

/-- A safe character is one byte, and neither of the two that are read in a special way. -/
theorem of_safe {b : ℕ} (hb : b < 0x80) (h : Safe (Char.ofNat b)) :
    Char.ofNat b ≠ '+' ∧ Char.ofNat b ≠ '%' ∧ encodeChar (Char.ofNat b) = [b] := by
  revert b
  decide

theorem unquoteBytes_safe {b : ℕ} (hb : b < 0x80) (h : Safe (Char.ofNat b)) (rest : Text) :
    unquoteBytes (Char.ofNat b :: rest) = b :: unquoteBytes rest := by
  obtain ⟨hplus, hpercent, hencode⟩ := of_safe hb h
  rw [unquoteBytes, if_neg hplus, hencode, List.singleton_append]
  exact fun _ _ _ hc _ => hpercent hc

/-- **A byte is read back.** -/
theorem unquoteBytes_quoteByte {b : ℕ} (hb : b < 0x100) (rest : Text) :
    unquoteBytes (quoteByte b ++ rest) = b :: unquoteBytes rest := by
  unfold quoteByte
  split_ifs with hspace hsafe
  · rw [hspace]
    rfl
  · exact unquoteBytes_safe hsafe.1 hsafe.2 rest
  · have hi := hexValue_hexDigit (d := b / 16) (by omega)
    have hlo := hexValue_hexDigit (d := b % 16) (by omega)
    have hvalue : b / 16 * 16 + b % 16 = b := by omega
    simp only [List.cons_append, List.nil_append, unquoteBytes, hi, hlo, hvalue]

theorem unquoteBytes_flatMap {bytes : List Byte} (h : ∀ b ∈ bytes, b < 0x100) :
    unquoteBytes (bytes.flatMap quoteByte) = bytes := by
  induction bytes with
  | nil => rfl
  | cons b bytes ih =>
    rw [List.flatMap_cons, unquoteBytes_quoteByte (h b List.mem_cons_self),
      ih fun b hb => h b (List.mem_cons_of_mem _ hb)]

/-- **A text is read back.** -/
theorem unquotePlus_quotePlus (text : Text) : unquotePlus (quotePlus text) = some text := by
  rw [unquotePlus, quotePlus, unquoteBytes_flatMap fun b hb => lt_of_mem_encode hb, decode_encode]

/-! ## The fields are read back -/

/-- The characters of a text in a query. -/
theorem mem_quotePlus {text : Text} {c : Char} (h : c ∈ quotePlus text) :
    Safe c ∨ c = '+' ∨ c = '%' := by
  obtain ⟨b, hb, hc⟩ := List.mem_flatMap.mp h
  have hlt : b / 16 < 16 := Nat.div_lt_of_lt_mul (lt_of_mem_encode hb)
  unfold quoteByte at hc
  split_ifs at hc with hspace hsafe
  · exact Or.inr (Or.inl (List.mem_singleton.mp hc))
  · rw [List.mem_singleton.mp hc]
    exact Or.inl hsafe.2
  · simp only [List.mem_cons, List.not_mem_nil, or_false] at hc
    rcases hc with rfl | rfl | rfl
    · exact Or.inr (Or.inr rfl)
    · exact Or.inl (Or.inl (isAlphanum_hexDigit hlt))
    · exact Or.inl (Or.inl (isAlphanum_hexDigit (Nat.mod_lt _ (by decide))))

theorem not_mem_quotePlus {text : Text} {c : Char} (h : ¬ (Safe c ∨ c = '+' ∨ c = '%')) :
    c ∉ quotePlus text :=
  fun hc => h (mem_quotePlus hc)

theorem parseField_quoteField (field : Text × Text) :
    parseField (quoteField field) = some field := by
  have hname : ∀ c ∈ quotePlus field.1, decide (c ≠ '=') = true := by
    intro c hc
    rw [decide_eq_true_eq]
    rintro rfl
    exact not_mem_quotePlus (by decide) hc
  have htake : (quoteField field).takeWhile (· ≠ '=') = quotePlus field.1 := by
    rw [quoteField, List.takeWhile_append_of_pos hname]
    simp
  have hdrop : (quoteField field).dropWhile (· ≠ '=') = '=' :: quotePlus field.2 := by
    rw [quoteField, List.dropWhile_append_of_pos hname]
    simp
  rw [parseField, htake, hdrop, List.tail_cons, unquotePlus_quotePlus, unquotePlus_quotePlus]

/-- The characters of a query. -/
theorem mem_urlencode {fields : List (Text × Text)} {c : Char} (h : c ∈ urlencode fields) :
    Safe c ∨ c = '+' ∨ c = '%' ∨ c = '&' ∨ c = '=' := by
  have hfield : ∀ field : Text × Text, c ∈ quoteField field →
      Safe c ∨ c = '+' ∨ c = '%' ∨ c = '&' ∨ c = '=' := by
    intro field hc
    rw [quoteField, List.mem_append, List.mem_cons] at hc
    rcases hc with hc | rfl | hc
    · exact (mem_quotePlus hc).imp_right fun hc => hc.imp_right Or.inl
    · exact Or.inr (Or.inr (Or.inr (Or.inr rfl)))
    · exact (mem_quotePlus hc).imp_right fun hc => hc.imp_right Or.inl
  induction fields with
  | nil => cases h
  | cons field fields ih =>
    cases fields with
    | nil => exact hfield field (by simpa [urlencode] using h)
    | cons field' fields =>
      have hcons : urlencode (field :: field' :: fields) =
          quoteField field ++ '&' :: urlencode (field' :: fields) := by
        simp [urlencode, List.intercalate]
      rw [hcons, List.mem_append, List.mem_cons] at h
      rcases h with h | rfl | h
      · exact hfield field h
      · exact Or.inr (Or.inr (Or.inr (Or.inl rfl)))
      · exact ih h

/-- **A query ends nothing around it**: of the characters with a meaning in a URL it has only `&`,
`=`, `+` and `%`. -/
theorem not_mem_urlencode {fields : List (Text × Text)} {c : Char}
    (h : ¬ (Safe c ∨ c = '+' ∨ c = '%' ∨ c = '&' ∨ c = '=')) : c ∉ urlencode fields :=
  fun hc => h (mem_urlencode hc)

/-- **The fields are read back.**

**Proof sketch.** No quoted field has an ampersand, so that splitting at the ampersands gives the
fields back; none is empty, so that none is dropped, and each is read back by
`parseField_quoteField`. -/
theorem parseQuery_urlencode (fields : List (Text × Text)) :
    parseQuery (urlencode fields) = some fields := by
  have hamp : ∀ part ∈ fields.map quoteField, '&' ∉ part := by
    intro part hpart
    obtain ⟨field, -, rfl⟩ := List.mem_map.mp hpart
    rw [quoteField, List.mem_append, List.mem_cons]
    rintro (hc | hc | hc)
    · exact not_mem_quotePlus (by decide) hc
    · revert hc
      decide
    · exact not_mem_quotePlus (by decide) hc
  have hne : ∀ part ∈ fields.map quoteField, decide (part ≠ []) = true := by
    intro part hpart
    obtain ⟨field, -, rfl⟩ := List.mem_map.mp hpart
    simp [quoteField]
  have hread : (fields.map quoteField).mapM parseField = some fields := by
    rw [List.mapM_map]
    have hid : parseField ∘ quoteField = fun field => pure field := funext parseField_quoteField
    rw [hid, List.mapM_pure, List.map_id']
    rfl
  rw [parseQuery]
  cases fields with
  | nil => rfl
  | cons field fields =>
    rw [urlencode, List.splitOn_intercalate '&' hamp (by simp), List.filter_eq_self.mpr hne, hread]

end FormUrl
