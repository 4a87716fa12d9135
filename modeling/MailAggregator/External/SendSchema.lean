import MailAggregator.Lib.Substitute
import MailAggregator.Send.Mime

set_option relaxedAutoImplicit false
set_option autoImplicit false

/-!
# The body of a send request

`ExternalSendRequest` checks the fields of a send before anything is sent. A value that becomes a
header is unfolded first: a line break with whitespace after it is line wrapping, and any other
control character is refused.

## Main definitions

* `MailAggregator.SendSchema.cleanHeader` — `_clean_header`.
* `MailAggregator.SendSchema.Foldable` — the values it accepts.
* `MailAggregator.SendSchema.validate` — the checks of `ExternalSendRequest`.

## Main results

* `MailAggregator.SendSchema.cleanHeader_spec` — which values are accepted, and what becomes of
  them.
* `MailAggregator.SendSchema.validate_headers` — the headers of an accepted request are cleaned.
-/

namespace MailAggregator

open PyText Lib

namespace SendSchema

/-! ## Unfolding -/

/-- `[ \t]`. -/
def isWsp (c : Char) : Bool := c = ' ' || c = '\t'

theorem isSpace_of_isWsp (c : Char) (h : isWsp c = true) : isSpace c = true := by
  have hc : c = ' ' ∨ c = '\t' := by simpa [isWsp] using h
  rcases hc with rfl | rfl
  · decide
  · decide

/-- How many characters `[ \t]+` matches. -/
def wspLength (text : Text) : ℕ := (text.takeWhile isWsp).length

/-- How many characters `_FWS_RE` matches at the start of a text: one of `\r\n`, `\r` and `\n`, in
this order, with whitespace behind it. -/
def fwsLength (text : Text) : ℕ :=
  if text.take 2 = ['\r', '\n'] ∧ wspLength (text.drop 2) ≠ 0 then 2 + wspLength (text.drop 2)
  else if (text.head? = some '\r' ∨ text.head? = some '\n') ∧ wspLength (text.drop 1) ≠ 0 then
    1 + wspLength (text.drop 1)
  else 0

/-- `_FWS_RE.sub(" ", value)`. -/
def unfold (value : Text) : Text := sub fwsLength [' '] value

/-- A C0, DEL or C1 character. -/
def IsControl (c : Char) : Prop := c.toNat < 0x20 ∨ 0x7F ≤ c.toNat ∧ c.toNat ≤ 0x9F

instance : DecidablePred IsControl := fun _ => inferInstanceAs (Decidable (_ ∨ _ ∧ _))

/-- The message of the refusal. -/
def controlCharacters : Text := "header value must not contain control characters".toList

/-- `_clean_header`, with the message of the `ValueError`. -/
def cleanHeader : Option Text → Except Text (Option Text)
  | none => .ok none
  | some value =>
    if (unfold value).any fun c => c ≠ '\t' ∧ IsControl c then .error controlCharacters
    else .ok (some (unfold value))

/-! ## What is a fold -/

/-- Whitespace begins the text. -/
def BeginsWithWsp (text : Text) : Prop := ∃ c ∈ text.head?, isWsp c = true

/-- **Every line break is line wrapping**: no control character but the tab and the line breaks,
whitespace after each LF, and whitespace or an LF after each CR. -/
structure Foldable (value : Text) : Prop where
  control : ∀ c ∈ value, IsControl c → c = '\t' ∨ c = '\r' ∨ c = '\n'
  lf : ∀ front rest, value = front ++ '\n' :: rest → BeginsWithWsp rest
  cr : ∀ front rest, value = front ++ '\r' :: rest → BeginsWithWsp rest ∨ rest.head? = some '\n'

/-- What `Foldable` asks of a character, given what comes after it. -/
structure FoldableAt (c : Char) (rest : Text) : Prop where
  control : IsControl c → c = '\t' ∨ c = '\r' ∨ c = '\n'
  lf : c = '\n' → BeginsWithWsp rest
  cr : c = '\r' → BeginsWithWsp rest ∨ rest.head? = some '\n'

theorem foldable_nil : Foldable [] := by
  refine ⟨fun c hc => (List.not_mem_nil hc).elim, fun front rest h => ?_, fun front rest h => ?_⟩
  · simp at h
  · simp at h

/-- **Foldable texts from their front.**

**Proof sketch.** A text with one more character in front can be folded if the rest can, and the
character allows it: it is no control character but a tab or a line break, a line feed has
whitespace behind it, and a carriage return has that or a line feed behind it. -/
theorem foldable_cons_iff (c : Char) (rest : Text) :
    Foldable (c :: rest) ↔ FoldableAt c rest ∧ Foldable rest := by
  constructor
  · intro h
    refine ⟨⟨h.control c List.mem_cons_self, ?_, ?_⟩,
      ⟨fun d hd => h.control d (List.mem_cons_of_mem _ hd), ?_, ?_⟩⟩
    · rintro rfl
      exact h.lf [] rest rfl
    · rintro rfl
      exact h.cr [] rest rfl
    · rintro front rest' rfl
      exact h.lf (c :: front) rest' rfl
    · rintro front rest' rfl
      exact h.cr (c :: front) rest' rfl
  · rintro ⟨hat, hrest⟩
    refine ⟨fun d hd => ?_, fun front rest' heq => ?_, fun front rest' heq => ?_⟩
    · rcases List.mem_cons.mp hd with rfl | hd
      · exact hat.control
      · exact hrest.control d hd
    · cases front with
      | nil =>
        obtain ⟨rfl, rfl⟩ := List.cons_eq_cons.mp heq
        exact hat.lf rfl
      | cons d front => exact hrest.lf front rest' (List.cons_eq_cons.mp heq).2
    · cases front with
      | nil =>
        obtain ⟨rfl, rfl⟩ := List.cons_eq_cons.mp heq
        exact hat.cr rfl
      | cons d front => exact hrest.cr front rest' (List.cons_eq_cons.mp heq).2

/-! ## What a match is -/

theorem beginsWithWsp_iff (text : Text) : BeginsWithWsp text ↔ wspLength text ≠ 0 := by
  unfold BeginsWithWsp wspLength
  cases text with
  | nil => simp
  | cons c text =>
    cases hc : isWsp c with
    | false => simp [hc]
    | true => simp [hc]

theorem fwsLength_cons_eq_zero {c : Char} {rest : Text} (h : fwsLength (c :: rest) = 0)
    (hc : c = '\n' ∨ c = '\r') : ¬ BeginsWithWsp rest := by
  rw [beginsWithWsp_iff]
  intro hwsp
  unfold fwsLength at h
  have hbreak : (c :: rest).head? = some '\r' ∨ (c :: rest).head? = some '\n' := by
    rcases hc with rfl | rfl
    · exact Or.inr rfl
    · exact Or.inl rfl
  split_ifs at h with hpair hsingle
  · omega
  · omega
  · exact hsingle ⟨hbreak, hwsp⟩

theorem fwsLength_pair_eq_zero {rest : Text} (h : fwsLength ('\r' :: '\n' :: rest) = 0) :
    ¬ BeginsWithWsp rest := by
  rw [beginsWithWsp_iff]
  intro hwsp
  unfold fwsLength at h
  rw [if_pos ⟨rfl, hwsp⟩] at h
  omega

/-- The line breaks that the pattern tries. -/
def IsBreak (text : Text) : Prop := text = ['\r', '\n'] ∨ text = ['\r'] ∨ text = ['\n']

/-- **A match** is a line break and the whitespace behind it, as long as it goes.

**Proof sketch.** The pattern tries a pair of carriage return and line feed first, and then a single
one of them, each with whitespace behind it. Where an alternative matches, the match is the line
break and the whitespace as long as it goes, and what is dropped is the rest. -/
theorem exists_of_fwsLength_ne_zero {text : Text} (h : fwsLength text ≠ 0) :
    ∃ lineBreak wsp rest, IsBreak lineBreak ∧ wsp ≠ [] ∧ (∀ c ∈ wsp, isWsp c = true) ∧
      text = lineBreak ++ (wsp ++ rest) ∧ text.take (fwsLength text) = lineBreak ++ wsp ∧
      text.drop (fwsLength text) = rest := by
  have hmatch {lineBreak tail : Text} (hbreak : IsBreak lineBreak)
      (htext : text = lineBreak ++ tail) (hwsp : wspLength tail ≠ 0)
      (hlength : fwsLength text = lineBreak.length + wspLength tail) :
      ∃ lineBreak wsp rest, IsBreak lineBreak ∧ wsp ≠ [] ∧ (∀ c ∈ wsp, isWsp c = true) ∧
        text = lineBreak ++ (wsp ++ rest) ∧ text.take (fwsLength text) = lineBreak ++ wsp ∧
        text.drop (fwsLength text) = rest := by
    have htail : tail.takeWhile isWsp ++ tail.dropWhile isWsp = tail :=
      List.takeWhile_append_dropWhile
    have htake : (tail.takeWhile isWsp ++ tail.dropWhile isWsp).take (wspLength tail) =
      tail.takeWhile isWsp := List.take_left' rfl
    have hdrop : (tail.takeWhile isWsp ++ tail.dropWhile isWsp).drop (wspLength tail) =
      tail.dropWhile isWsp := List.drop_left' rfl
    rw [htail] at htake hdrop
    refine ⟨lineBreak, tail.takeWhile isWsp, tail.dropWhile isWsp, hbreak,
      fun hnil => hwsp (by rw [wspLength, hnil]; rfl), fun c hc => List.mem_takeWhile_imp hc, ?_⟩
    rw [htail, hlength, htext, List.take_length_add_append, List.drop_length_add_append, htake,
      hdrop]
    exact ⟨rfl, rfl, rfl⟩
  by_cases hpair : text.take 2 = ['\r', '\n'] ∧ wspLength (text.drop 2) ≠ 0
  · refine hmatch (Or.inl rfl) ?_ hpair.2 ?_
    · rw [← hpair.1, List.take_append_drop]
    · rw [fwsLength, if_pos hpair]
      rfl
  by_cases hsingle : (text.head? = some '\r' ∨ text.head? = some '\n') ∧
      wspLength (text.drop 1) ≠ 0
  · cases text with
    | nil => exact absurd hsingle.1 (by simp)
    | cons c text =>
      have hc : c = '\r' ∨ c = '\n' := hsingle.1.imp Option.some.inj Option.some.inj
      have hbreak : IsBreak [c] := by
        rcases hc with rfl | rfl
        · exact Or.inr (Or.inl rfl)
        · exact Or.inr (Or.inr rfl)
      refine hmatch hbreak rfl hsingle.2 ?_
      · rw [fwsLength, if_neg hpair, if_pos hsingle]
        rfl
  · rw [fwsLength, if_neg hpair, if_neg hsingle] at h
    exact absurd rfl h

/-! ## What unfolding does -/

/-- Whitespace in front of a value is foldable. -/
theorem foldable_wsp_append_iff {wsp rest : Text} (h : ∀ c ∈ wsp, isWsp c = true) :
    Foldable (wsp ++ rest) ↔ Foldable rest := by
  induction wsp with
  | nil => rfl
  | cons c wsp ih =>
    have hc : c = ' ' ∨ c = '\t' := by
      have := h c List.mem_cons_self
      simpa [isWsp] using this
    have hat : FoldableAt c (wsp ++ rest) := by
      rcases hc with rfl | rfl
      · exact ⟨fun hc => absurd hc (by decide), fun hc => absurd hc (by decide),
          fun hc => absurd hc (by decide)⟩
      · exact ⟨fun _ => Or.inl rfl, fun hc => absurd hc (by decide),
          fun hc => absurd hc (by decide)⟩
    rw [List.cons_append, foldable_cons_iff, and_iff_right hat]
    exact ih fun d hd => h d (List.mem_cons_of_mem _ hd)

/-- A line break in front of whitespace is foldable. -/
theorem foldable_break_append_iff {lineBreak rest : Text} (hbreak : IsBreak lineBreak)
    (h : BeginsWithWsp rest) : Foldable (lineBreak ++ rest) ↔ Foldable rest := by
  have hlf : FoldableAt '\n' rest :=
    ⟨fun _ => Or.inr (Or.inr rfl), fun _ => h, fun hc => absurd hc (by decide)⟩
  rcases hbreak with rfl | rfl | rfl
  · have hcr : FoldableAt '\r' ('\n' :: rest) :=
      ⟨fun _ => Or.inr (Or.inl rfl), fun hc => absurd hc (by decide), fun _ => Or.inr rfl⟩
    change Foldable ('\r' :: '\n' :: rest) ↔ _
    rw [foldable_cons_iff, foldable_cons_iff, and_iff_right hcr, and_iff_right hlf]
  · have hcr : FoldableAt '\r' rest :=
      ⟨fun _ => Or.inr (Or.inl rfl), fun hc => absurd hc (by decide), fun _ => Or.inl h⟩
    change Foldable ('\r' :: rest) ↔ _
    rw [foldable_cons_iff, and_iff_right hcr]
  · change Foldable ('\n' :: rest) ↔ _
    rw [foldable_cons_iff, and_iff_right hlf]

/-- A character that stays is refused exactly if it is not foldable where it stands. -/
theorem foldableAt_iff_of_noMatch {c : Char} {rest : Text} (hm : fwsLength (c :: rest) = 0)
    (hrest : Foldable rest) : FoldableAt c rest ↔ ¬ (c ≠ '\t' ∧ IsControl c) := by
  constructor
  · rintro hat ⟨htab, hcontrol⟩
    rcases hat.control hcontrol with rfl | rfl | rfl
    · exact htab rfl
    · rcases hat.cr rfl with hwsp | hlf
      · exact fwsLength_cons_eq_zero hm (Or.inr rfl) hwsp
      · cases rest with
        | nil => cases hlf
        | cons d rest =>
          obtain rfl := Option.some.inj hlf
          exact fwsLength_pair_eq_zero hm (hrest.lf [] rest rfl)
    · exact fwsLength_cons_eq_zero hm (Or.inl rfl) (hat.lf rfl)
  · intro hc
    have hcontrol : IsControl c → c = '\t' := fun h => by_contra fun htab => hc ⟨htab, h⟩
    refine ⟨fun h => Or.inl (hcontrol h), ?_, ?_⟩
    · rintro rfl
      exact absurd (hcontrol (by decide)) (by decide)
    · rintro rfl
      exact absurd (hcontrol (by decide)) (by decide)

/-- **What is left after unfolding has a refused character exactly if some line break is no line
wrapping, or such a character was there.**

**Proof sketch.** Induction along the substitution. A match is a line break and whitespace, both
foldable, and leaves a space. A character that stays is no line wrapping: a CR that stays before an
LF leaves that LF without whitespace. -/
theorem unfold_controlFree_iff (value : Text) :
    (∀ c ∈ unfold value, ¬ (c ≠ '\t' ∧ IsControl c)) ↔ Foldable value := by
  induction value using sub_induction (m := fwsLength) with
  | nil => exact iff_of_true (fun c hc => (List.not_mem_nil hc).elim) foldable_nil
  | kept c rest hm ih =>
    rw [unfold, sub_of_noMatch hm, List.forall_mem_cons, ← unfold, ih, foldable_cons_iff]
    exact and_congr_left fun hrest => (foldableAt_iff_of_noMatch hm hrest).symm
  | matched value hne hm ih =>
    obtain ⟨lineBreak, wsp, rest, hbreak, hwsp, hall, htext, -, hdrop⟩ :=
      exists_of_fwsLength_ne_zero hm
    have hbegins : BeginsWithWsp (wsp ++ rest) := by
      cases wsp with
      | nil => exact absurd rfl hwsp
      | cons c wsp => exact ⟨c, rfl, hall c List.mem_cons_self⟩
    rw [unfold, sub_of_match hne hm, List.singleton_append, List.forall_mem_cons, ← unfold, ih,
      hdrop, and_iff_right (by decide), htext, foldable_break_append_iff hbreak hbegins,
      foldable_wsp_append_iff hall]

/-- Unfolding keeps the words, for any separators that the characters of a fold are among. -/
theorem words_unfold {sep : Char → Bool} (hwsp : ∀ c, isWsp c = true → sep c = true)
    (hcr : sep '\r' = true) (hlf : sep '\n' = true) (value : Text) :
    words sep (unfold value) = words sep value := by
  refine words_sub (List.cons_ne_nil _ _) ?_ (fun text c hc => ?_) value
  · intro c hc
    rw [List.mem_singleton.mp hc]
    exact hwsp ' ' (by decide)
  · by_cases hm : fwsLength text = 0
    · rw [hm, List.take_zero] at hc
      cases hc
    · obtain ⟨lineBreak, wsp, rest, hbreak, -, hall, -, htake, -⟩ := exists_of_fwsLength_ne_zero hm
      rw [htake, List.mem_append] at hc
      rcases hc with hc | hc
      · rcases hbreak with rfl | rfl | rfl
        · rcases List.mem_pair.mp hc with rfl | rfl
          · exact hcr
          · exact hlf
        · rw [List.mem_singleton.mp hc]
          exact hcr
        · rw [List.mem_singleton.mp hc]
          exact hlf
      · exact hwsp c (hall c hc)

/-- A value without line breaks is left alone. -/
theorem unfold_of_noBreak {value : Text} (h : ∀ c ∈ value, c ≠ '\r' ∧ c ≠ '\n') :
    unfold value = value := by
  refine sub_of_free fun t ht => ?_
  by_contra hm
  obtain ⟨lineBreak, wsp, rest, hbreak, -, -, htext, -, -⟩ := exists_of_fwsLength_ne_zero hm
  have hmem {c : Char} (hc : c ∈ lineBreak) : c ∈ value :=
    ht.subset (htext ▸ List.mem_append_left _ hc)
  rcases hbreak with rfl | rfl | rfl
  · exact (h _ (hmem List.mem_cons_self)).1 rfl
  · exact (h _ (hmem List.mem_cons_self)).1 rfl
  · exact (h _ (hmem List.mem_cons_self)).2 rfl

/-! ## The cleaned value -/

theorem cleanHeader_ok_iff (value : Text) (cleaned : Option Text) :
    cleanHeader (some value) = .ok cleaned ↔ Foldable value ∧ cleaned = some (unfold value) := by
  have hnone : (¬ (unfold value).any fun c => c ≠ '\t' ∧ IsControl c) ↔ Foldable value := by
    rw [← unfold_controlFree_iff, List.any_eq_true]
    simp only [decide_eq_true_eq, not_exists, not_and]
  rw [cleanHeader, ← hnone]
  split_ifs with hcontrol
  · exact iff_of_false nofun fun h => h.1 hcontrol
  · rw [Except.ok.injEq, eq_comm]
    exact (and_iff_right hcontrol).symm

/-- **What a value becomes**: no control character but the tab is left, the words are the same, and
cleaning it again changes nothing. -/
structure Cleaned (value cleaned : Text) : Prop where
  control : ∀ c ∈ cleaned, IsControl c → c = '\t'
  words : Lib.words isSpace cleaned = Lib.words isSpace value
  fixed : cleanHeader (some cleaned) = .ok (some cleaned)

/-- **Which values are accepted, and what becomes of them.**

**Proof sketch.** The value is unfolded and then checked for what is left of line breaks. The
unfolded text has the words of the value, because a fold is whitespace and is replaced by
whitespace, and a second unfolding finds no fold. -/
theorem cleanHeader_spec (value : Text) :
    ((∃ cleaned, cleanHeader (some value) = .ok cleaned) ↔ Foldable value) ∧
      ∀ cleaned, cleanHeader (some value) = .ok (some cleaned) → Cleaned value cleaned := by
  constructor
  · simp only [cleanHeader_ok_iff, exists_and_left, exists_eq, and_true]
  · intro cleaned h
    obtain ⟨hfoldable, hcleaned⟩ := (cleanHeader_ok_iff value _).mp h
    obtain rfl := Option.some.inj hcleaned
    have hfree := (unfold_controlFree_iff value).mpr hfoldable
    have hcontrol : ∀ c ∈ unfold value, IsControl c → c = '\t' := fun c hc hcontrol =>
      by_contra fun htab => hfree c hc ⟨htab, hcontrol⟩
    have hbreaks : ∀ c ∈ unfold value, c ≠ '\r' ∧ c ≠ '\n' := by
      intro c hc
      constructor
      · rintro rfl
        exact absurd (hcontrol _ hc (by decide)) (by decide)
      · rintro rfl
        exact absurd (hcontrol _ hc (by decide)) (by decide)
    have hsame := unfold_of_noBreak hbreaks
    refine ⟨hcontrol, words_unfold isSpace_of_isWsp (by decide) (by decide) value, ?_⟩
    rw [cleanHeader_ok_iff, ← unfold_controlFree_iff, hsame]
    exact ⟨hfree, rfl⟩

/-- The message identifiers of a folded chain, in order. -/
theorem cleaned_references :
    Cleaned "<a@x.com>\r\n <b@x.com>\r\n\t<c@x.com>".toList
      "<a@x.com> <b@x.com> <c@x.com>".toList :=
  (cleanHeader_spec "<a@x.com>\r\n <b@x.com>\r\n\t<c@x.com>".toList).2 _ (by decide)

/-! ## The request -/

/-- The body of a request, as it is sent. -/
structure SendPayload where
  toAddrs : List Text
  cc : Option (List Text) := none
  subject : Option Text := none
  bodyText : Text
  inReplyTo : Option Text := none
  refs : Option Text := none
  deriving DecidableEq, Repr

/-- What is wrong with a body. -/
inductive ValidationError where
  /-- A field is longer than its bound. -/
  | tooLong (field : Text) (maxLength : ℕ)
  | invalidAddress (field : Text) (address : Text)
  | blankBody
  /-- `_clean_header` has refused a field. -/
  | header (field : Text) (message : Text)
  | noRecipient
  | tooManyRecipients
  deriving DecidableEq, Repr

/-- `_MAX_IN_REPLY_TO_LEN`. -/
def maxInReplyToLen : ℕ := 998

/-- `_MAX_REFS_LEN`. -/
def maxRefsLen : ℕ := 65536

/-- `_EMAIL_RE`, of a text without whitespace around it. -/
def isEmail (address : Text) : Bool :=
  !address.any isSpace &&
    match address.splitOn '@' with
    | [name, domain] => name ≠ [] && '.' ∈ (domain.drop 1).dropLast
    | _ => false

/-- `_validate_addresses`: the first address that is none is the error. -/
def validateAddresses : List Text → Except Text (List Text)
  | [] => .ok []
  | raw :: values =>
    if strip raw = [] then validateAddresses values
    else if isEmail (strip raw) then
      match validateAddresses values with
      | .error address => .error address
      | .ok cleaned => .ok (strip raw :: cleaned)
    else .error (strip raw)

/-- A field with a bound on its length, and the check that follows it. -/
def checkField {α β : Type} (field : Text) (maxLength : ℕ) (length : α → ℕ)
    (check : α → Except ValidationError β) (value : α) : Except ValidationError β :=
  if maxLength < length value then .error (.tooLong field maxLength) else check value

/-- The fields `to` and `cc`. -/
def checkAddresses (field : Text) : List Text → Except ValidationError (List Text) :=
  checkField field 100 List.length fun values =>
    (validateAddresses values).mapError (.invalidAddress field)

/-- The fields that become a header. -/
def checkHeader (field : Text) (maxLength : ℕ) :
    Option Text → Except ValidationError (Option Text) :=
  checkField field maxLength (fun value => (value.getD []).length) fun value =>
    (cleanHeader value).mapError (.header field)

/-- The field `body_text`. -/
def checkBody : Text → Except ValidationError Text :=
  checkField "body_text".toList 1048576 List.length fun text =>
    if strip text = [] then .error .blankBody else .ok text

/-- The error of a check, if it has one. -/
def errorOf {α : Type} : Except ValidationError α → List ValidationError
  | .error e => [e]
  | .ok _ => []

/-- `_check_recipients`. -/
def checkRecipients (toAddrs : List Text) (cc : Option (List Text)) (subject : Option Text)
    (bodyText : Text) (inReplyTo refs : Option Text) : Except (List ValidationError) SendRequest :=
  if h : toAddrs ++ cc.getD [] = [] then .error [.noRecipient]
  else if 100 < (toAddrs ++ cc.getD []).length then .error [.tooManyRecipients]
  else .ok { toAddrs, cc, subject, bodyText, inReplyTo, refs, some_recipient := h }

/-- The check of `cc`, which may be missing. -/
def checkCc : Option (List Text) → Except ValidationError (Option (List Text))
  | none => .ok none
  | some values => (checkAddresses "cc".toList values).map some

/-- The validation of `ExternalSendRequest`: the fields, and the recipients if no field is wrong. -/
def validate (p : SendPayload) : Except (List ValidationError) SendRequest :=
  let toAddrs := checkAddresses "to".toList p.toAddrs
  let cc := checkCc p.cc
  let subject := checkHeader "subject".toList 998 p.subject
  let bodyText := checkBody p.bodyText
  let inReplyTo := checkHeader "in_reply_to".toList maxInReplyToLen p.inReplyTo
  let refs := checkHeader "refs".toList maxRefsLen p.refs
  match toAddrs, cc, subject, bodyText, inReplyTo, refs with
  | .ok toAddrs, .ok cc, .ok subject, .ok bodyText, .ok inReplyTo, .ok refs =>
    checkRecipients toAddrs cc subject bodyText inReplyTo refs
  | _, _, _, _, _, _ =>
    .error (errorOf toAddrs ++ errorOf cc ++ errorOf subject ++ errorOf bodyText ++
      errorOf inReplyTo ++ errorOf refs)

theorem checkHeader_ok {field : Text} {maxLength : ℕ} {value cleaned : Option Text}
    (h : checkHeader field maxLength value = .ok cleaned) : cleanHeader value = .ok cleaned := by
  rw [checkHeader, checkField] at h
  split_ifs at h
  cases hclean : cleanHeader value with
  | error message =>
    rw [hclean] at h
    cases h
  | ok value' =>
    rw [hclean] at h
    exact congrArg _ (Except.ok.inj h)

theorem checkRecipients_ok {toAddrs : List Text} {cc : Option (List Text)} {subject : Option Text}
    {bodyText : Text} {inReplyTo refs : Option Text} {r : SendRequest}
    (h : checkRecipients toAddrs cc subject bodyText inReplyTo refs = .ok r) :
    r.subject = subject ∧ r.inReplyTo = inReplyTo ∧ r.refs = refs := by
  rw [checkRecipients] at h
  split_ifs at h
  obtain rfl := Except.ok.inj h
  exact ⟨rfl, rfl, rfl⟩

/-- **The headers of an accepted request are what `_clean_header` makes of its fields.** -/
theorem validate_headers {p : SendPayload} {r : SendRequest} (h : validate p = .ok r) :
    cleanHeader p.subject = .ok r.subject ∧ cleanHeader p.inReplyTo = .ok r.inReplyTo ∧
      cleanHeader p.refs = .ok r.refs := by
  rw [validate] at h
  split at h
  · rename_i hsubject _ hinReplyTo hrefs
    obtain ⟨hr₁, hr₂, hr₃⟩ := checkRecipients_ok h
    rw [hr₁, hr₂, hr₃]
    exact ⟨checkHeader_ok hsubject, checkHeader_ok hinReplyTo, checkHeader_ok hrefs⟩
  · cases h

end SendSchema

end MailAggregator
