import MailAggregator.External.SendSchema

set_option relaxedAutoImplicit false
set_option autoImplicit false

/-!
# Headers that are one line

A value that `_clean_header` accepts becomes a header, and assigning a header raises `ValueError`
if its value has more than one line. The check knows the line breaks among the control characters;
two others are not among them.

## Main definitions

* `MailAggregator.SendSchema.HeaderField` — the fields of a request that become a header.
* `MailAggregator.SendSchema.Separates` — a line or paragraph separator before the end of a value.

## Main results

* `MailAggregator.SendSchema.buildMime_iff` — exactly which accepted values the message is built
  with.
-/

namespace MailAggregator

open PyText Lib Mime

namespace SendSchema

/-! ## Lines -/

theorem splitLinesFrom_cons {c : Char} (h : c ≠ '\r') (line rest : Text) :
    splitLinesFrom line (c :: rest) =
      if isLineBreak c then line :: splitLinesFrom [] rest
      else splitLinesFrom (line ++ [c]) rest := by
  rw [splitLinesFrom]
  intro text hc
  exact absurd hc h

/-- There is a line exactly if there is a character. -/
theorem splitLinesFrom_ne_nil {line text : Text} (h : '\r' ∉ text) :
    splitLinesFrom line text ≠ [] ↔ line ++ text ≠ [] := by
  induction text generalizing line with
  | nil =>
    rw [splitLinesFrom, List.append_nil]
    split_ifs with hline
    · simp [hline]
    · simp [hline]
  | cons c rest ih =>
    rw [List.mem_cons, not_or] at h
    rw [splitLinesFrom_cons (Ne.symm h.1)]
    split_ifs with hbreak
    · simp
    · rw [ih h.2]
      simp

/-- **More than one line** is a line break before the end.

**Proof sketch.** Induction over the text. Without carriage returns every line break ends one line,
and a line is added at the end only if something follows the last break; so there is a second line
exactly if a break stands before the last character. -/
theorem one_lt_length_splitLinesFrom_iff {line text : Text} (h : '\r' ∉ text) :
    1 < (splitLinesFrom line text).length ↔ ∃ c ∈ text.dropLast, isLineBreak c = true := by
  induction text generalizing line with
  | nil =>
    rw [splitLinesFrom]
    split_ifs with hline
    · simp
    · simp
  | cons c rest ih =>
    rw [List.mem_cons, not_or] at h
    rw [splitLinesFrom_cons (Ne.symm h.1)]
    cases rest with
    | nil =>
      split_ifs with hbreak
      · simp [splitLinesFrom]
      · rw [ih h.2]
        simp
    | cons d rest =>
      rw [List.dropLast_cons_cons, List.exists_mem_cons_iff]
      split_ifs with hbreak
      · have hne : splitLinesFrom [] (d :: rest) ≠ [] :=
          (splitLinesFrom_ne_nil h.2).mpr (List.cons_ne_nil d rest)
        simp only [hbreak, true_or, iff_true, List.length_cons]
        have := List.length_pos_iff.mpr hne
        omega
      · rw [ih h.2]
        simp [hbreak]

/-! ## The separators -/

/-- **A line or paragraph separator** before the end of a value. -/
def Separates (value : Text) : Prop := ∃ c ∈ value.dropLast, c = '\u2028' ∨ c = '\u2029'

instance : DecidablePred Separates := fun value =>
  List.decidableBEx (fun c => c = '\u2028' ∨ c = '\u2029') value.dropLast

/-- The line breaks that are no control characters are the two separators. -/
theorem isLineBreak_iff {c : Char} (h : ¬ (c ≠ '\t' ∧ IsControl c)) :
    isLineBreak c = true ↔ c = '\u2028' ∨ c = '\u2029' := by
  have htab : c = '\t' ↔ c.toNat = 9 := Char.toNat_inj.symm
  have hline : c = '\u2028' ↔ c.toNat = 0x2028 := Char.toNat_inj.symm
  have hparagraph : c = '\u2029' ↔ c.toNat = 0x2029 := Char.toNat_inj.symm
  unfold IsControl at h
  rw [Ne, htab] at h
  rw [isLineBreak, hline, hparagraph, decide_eq_true_iff]
  simp only [List.mem_cons, List.not_mem_nil, or_false]
  omega

/-- An accepted value has more than one line exactly if a separator stands before its end. -/
theorem multiLine_iff_separates {value : Text}
    (h : ∀ c ∈ value, ¬ (c ≠ '\t' ∧ IsControl c)) : MultiLine value ↔ Separates value := by
  have hcr : '\r' ∉ value := fun hmem => h '\r' hmem (by decide)
  unfold MultiLine Separates splitLines
  rw [one_lt_length_splitLinesFrom_iff hcr]
  refine exists_congr fun c => and_congr_right fun hc => ?_
  exact isLineBreak_iff (h c (List.mem_of_mem_dropLast hc))

theorem unfold_eq_nil_iff (value : Text) : unfold value = [] ↔ value = [] := by
  cases value with
  | nil => exact iff_of_true rfl rfl
  | cons c value =>
    refine iff_of_false (fun h => ?_) (List.cons_ne_nil c value)
    by_cases hm : fwsLength (c :: value) = 0
    · rw [unfold, sub_of_noMatch hm] at h
      cases h
    · rw [unfold, sub_of_match (List.cons_ne_nil c value) hm] at h
      cases h

theorem mem_dropLast_cons_iff {α : Type} (c d : α) (xs : List α) :
    c ∈ (d :: xs).dropLast ↔ xs ≠ [] ∧ (c = d ∨ c ∈ xs.dropLast) := by
  cases xs with
  | nil => simp
  | cons e xs => rw [List.dropLast_cons_cons, List.mem_cons]; simp

/-- A character that belongs to no fold stays where it is.

**Proof sketch.** Induction over the folds of the value. A character that is kept stands in front of
the rest on both sides. A fold becomes one space or a run of its whitespace, none of which is the
character, so that both sides are about the rest. -/
theorem mem_dropLast_unfold_iff {c : Char} (hc : isWsp c = false ∧ c ≠ '\r' ∧ c ≠ '\n')
    (value : Text) : c ∈ (unfold value).dropLast ↔ c ∈ value.dropLast := by
  induction value using sub_induction (m := fwsLength) with
  | nil => rfl
  | kept d rest hm ih =>
    rw [unfold, sub_of_noMatch hm, ← unfold, mem_dropLast_cons_iff, mem_dropLast_cons_iff, ih, Ne,
      unfold_eq_nil_iff]
  | matched value hne hm ih =>
    obtain ⟨lineBreak, wsp, rest, hbreak, hwsp, hall, htext, -, hdrop⟩ :=
      exists_of_fwsLength_ne_zero hm
    have hspace : c ≠ ' ' := by
      rintro rfl
      exact absurd hc.1 (by decide)
    have hfold : c ∉ lineBreak ++ wsp := by
      rw [List.mem_append, not_or]
      refine ⟨fun hmem => ?_, fun hmem => ?_⟩
      · rcases hbreak with rfl | rfl | rfl
        · exact (List.mem_pair.mp hmem).elim hc.2.1 hc.2.2
        · exact hc.2.1 (List.mem_singleton.mp hmem)
        · exact hc.2.2 (List.mem_singleton.mp hmem)
      · exact absurd (hall c hmem) (by rw [hc.1]; decide)
    rw [unfold, sub_of_match hne hm, List.singleton_append, ← unfold, mem_dropLast_cons_iff, Ne,
      unfold_eq_nil_iff, or_iff_right hspace, ih, hdrop, htext, ← List.append_assoc]
    cases rest with
    | nil =>
      rw [List.append_nil]
      exact iff_of_false (fun h => h.1 rfl) fun h => hfold (List.mem_of_mem_dropLast h)
    | cons d rest =>
      rw [List.dropLast_append_of_ne_nil (List.cons_ne_nil d rest), List.mem_append,
        or_iff_right hfold, and_iff_right (List.cons_ne_nil d rest)]

theorem separates_unfold_iff (value : Text) : Separates (unfold value) ↔ Separates value := by
  refine exists_congr fun c => ?_
  constructor
  · rintro ⟨hmem, hc⟩
    refine ⟨(mem_dropLast_unfold_iff ?_ value).mp hmem, hc⟩
    rcases hc with rfl | rfl
    · decide
    · decide
  · rintro ⟨hmem, hc⟩
    refine ⟨(mem_dropLast_unfold_iff ?_ value).mpr hmem, hc⟩
    rcases hc with rfl | rfl
    · decide
    · decide

/-! ## The message -/

/-- The fields of a request that become a header of that value. -/
inductive HeaderField where
  | subject
  | inReplyTo
  | refs
  deriving DecidableEq, Repr

/-- The name of the header. -/
def HeaderField.header : HeaderField → String
  | subject => "Subject"
  | inReplyTo => "In-Reply-To"
  | refs => "References"

/-- A request with another value in such a field. -/
def HeaderField.set (value : Option Text) (r : SendRequest) : HeaderField → SendRequest
  | subject => { r with subject := value }
  | inReplyTo => { r with inReplyTo := value }
  | refs => { r with refs := value }

/-- The message of a request is built. -/
def Builds (store : HeaderStore) (fromAddr messageId : Text) (r : SendRequest) : Prop :=
  ∃ msg, buildMime store fromAddr messageId r = .ok msg

section Fields

variable {store : HeaderStore} {field : HeaderField} {fromAddr messageId : Text}

/-- An optional header stands in the way exactly if it is there and cannot be assigned. -/
theorem forall_optionalHeader_iff (name : String) (value : Text) :
    (∀ header ∈ optionalHeader name (some value), Assignable store header) ↔
      (value ≠ [] → Assignable store (name.toList, value)) := by
  cases value with
  | nil => exact iff_of_true (fun header h => (List.not_mem_nil h).elim) (absurd rfl)
  | cons c value => simp [optionalHeader]

/-- The headers of a request around that of a field. -/
theorem exists_headers_set (field : HeaderField) (fromAddr messageId : Text) (r : SendRequest) :
    ∃ before after, ∀ value, headers fromAddr messageId (field.set value r) =
      before ++ optionalHeader field.header value ++ after := by
  let addresses := [("From".toList, fromAddr), ("To".toList, ", ".toList.intercalate r.toAddrs)] ++
    ccHeader r.cc
  let id := [("Message-ID".toList, messageId)]
  let inReplyTo := optionalHeader "In-Reply-To" r.inReplyTo
  let refs := optionalHeader "References" r.refs
  let subject := optionalHeader "Subject" r.subject
  cases field with
  | subject =>
    refine ⟨addresses, id ++ inReplyTo ++ refs, fun value => ?_⟩
    rw [← List.append_assoc, ← List.append_assoc]
    rfl
  | inReplyTo => exact ⟨addresses ++ subject ++ id, refs, fun value => rfl⟩
  | refs =>
    exact ⟨addresses ++ subject ++ id ++ inReplyTo, [], fun value => (List.append_nil _).symm⟩

/-- **A field adds one condition**: the message is built with it exactly if it is built without it
and the header of the field, if its value is not empty, can be assigned. -/
theorem builds_set_iff (value : Text) (r : SendRequest) :
    Builds store fromAddr messageId (field.set (some value) r) ↔
      Builds store fromAddr messageId (field.set none r) ∧
        (value ≠ [] → Assignable store (field.header.toList, value)) := by
  obtain ⟨before, after, hheaders⟩ := exists_headers_set field fromAddr messageId r
  rw [Builds, Builds, buildMime_ok_iff, buildMime_ok_iff, hheaders, hheaders]
  simp only [List.forall_mem_append, forall_optionalHeader_iff]
  simp only [optionalHeader, List.not_mem_nil, false_imp_iff, implies_true, and_true]
  rw [and_assoc, and_assoc, and_comm (a := value ≠ [] → _)]

/-- Under the line rule of its header, a field stands in the way exactly if its value has more than
one line. -/
theorem builds_set_iff_of_lineRule (hlines : LineRule store field.header.toList) (value : Text)
    (r : SendRequest) :
    Builds store fromAddr messageId (field.set (some value) r) ↔
      Builds store fromAddr messageId (field.set none r) ∧ ¬ MultiLine value := by
  rw [builds_set_iff, hlines.assignable_iff]
  refine and_congr_right fun _ => ⟨fun h hmulti => ?_, fun h _ => h⟩
  refine h ?_ hmulti
  rintro rfl
  exact absurd hmulti (by decide)

/-- **Which accepted values the message is built with**: those without a line or paragraph separator
before their end, if the header of the field raises by the line rule.

**Proof sketch.** An accepted value has no control character but the tab, so that the only line
breaks left in it are the two separators; it has more than one line if one of them stands before
its end. Unfolding moves neither of them, and a fold in front of the end leaves a space there. -/
theorem buildMime_iff {value cleaned : Text} (hlines : LineRule store field.header.toList)
    (hclean : cleanHeader (some value) = .ok (some cleaned)) {r : SendRequest}
    (hbuilds : Builds store fromAddr messageId (field.set none r)) :
    Builds store fromAddr messageId (field.set (some cleaned) r) ↔ ¬ Separates value := by
  obtain ⟨hfoldable, hcleaned⟩ := (cleanHeader_ok_iff value _).mp hclean
  obtain rfl := Option.some.inj hcleaned
  rw [builds_set_iff_of_lineRule hlines, and_iff_right hbuilds,
    multiLine_iff_separates ((unfold_controlFree_iff value).mpr hfoldable), separates_unfold_iff]

end Fields

/-- A request with nothing but a text. -/
def plainRequest : SendRequest where
  toAddrs := ["d@x.org".toList]
  bodyText := "t".toList

theorem plainRequest_builds (field : HeaderField) :
    Builds lineStore "a@x.org".toList "<1@x.org>".toList (field.set none plainRequest) := by
  cases field with
  | subject => exact ⟨_, rfl⟩
  | inReplyTo => exact ⟨_, rfl⟩
  | refs => exact ⟨_, rfl⟩

/-- A separator at the end does not stand in the way. -/
theorem buildMime_of_separator_last :
    Builds lineStore "a@x.org".toList "<1@x.org>".toList
      (HeaderField.subject.set (some "x\u2028".toList) plainRequest) := by
  have hclean : cleanHeader (some "x\u2028".toList) = .ok (some "x\u2028".toList) := by decide
  exact (buildMime_iff (lineRule_lineStore _) hclean (plainRequest_builds .subject)).mpr (by decide)

/-- A subject with a line separator is accepted, and the message is not built. -/
theorem accepted_not_built :
    ¬ ∀ (store : HeaderStore) (value cleaned fromAddr messageId : Text) (r : SendRequest)
      (field : HeaderField), (∀ name, LineRule store name) →
      cleanHeader (some value) = .ok (some cleaned) →
      Builds store fromAddr messageId (field.set none r) →
        Builds store fromAddr messageId (field.set (some cleaned) r) := by
  intro h
  obtain ⟨msg, hmsg⟩ := h lineStore "x\u2028y".toList "x\u2028y".toList "a@x.org".toList
    "<1@x.org>".toList plainRequest .subject lineRule_lineStore (by decide)
    (plainRequest_builds .subject)
  have hraised : buildMime lineStore "a@x.org".toList "<1@x.org>".toList
      (HeaderField.subject.set (some "x\u2028y".toList) plainRequest) = .error .valueError := by
    decide
  rw [hraised] at hmsg
  cases hmsg

end SendSchema

end MailAggregator
