import MailAggregator.External.SendHeaders
import MailAggregator.Lib.Utf8
import MailAggregator.Send.Wire

set_option relaxedAutoImplicit false
set_option autoImplicit false

/-!
# The threading headers of a send

From the body of a request to the bytes of the message: the message identifiers of `in_reply_to` and
`refs` are unfolded, checked, assigned and folded again. Whitespace is all that may change on the
way, but the assignment decodes what looks like an encoded word, and an identifier that is not
ASCII, or longer than a line, is encoded when it is written.

## Main definitions

* `MailAggregator.SendSchema.ThreadingField` — the two fields, and their headers.
* `MailAggregator.SendSchema.Carried` — a header is read in the bytes with the words of a value.
* `MailAggregator.SendSchema.Survives` — the assignment and the layout leave the words of a value.
* `MailAggregator.SendSchema.quotedPolicy` — a policy that meets the laws.

## Main results

* `MailAggregator.SendSchema.carried_iff` — exactly which accepted values reach the wire as they
  are.
-/

namespace MailAggregator

open PyText Lib Mime SmtpPolicy

namespace SendSchema

/-- The fields of a request that become a threading header. -/
inductive ThreadingField where
  | inReplyTo
  | refs
  deriving DecidableEq, Repr

namespace ThreadingField

/-- The name of the header. -/
def header : ThreadingField → Text
  | inReplyTo => "In-Reply-To".toList
  | refs => "References".toList

/-- The field, as it is sent. -/
def sent (p : SendPayload) : ThreadingField → Option Text
  | inReplyTo => p.inReplyTo
  | refs => p.refs

/-- The field, as it is accepted. -/
def accepted (r : SendRequest) : ThreadingField → Option Text
  | inReplyTo => r.inReplyTo
  | refs => r.refs

end ThreadingField

/-- **A value is carried by a header**: the header is read in the bytes of the message, with the
words of the value. -/
def Carried (P : SmtpPolicy) (msg : EmailMessage) (name value : Text) : Prop :=
  ∃ read, (name, read) ∈ readSection (P.wire msg) ∧ words isBlank read = words isBlank value

/-- Whitespace of a value that may be folded. -/
def isFws (c : Char) : Bool := isBlank c || c = '\r' || c = '\n'

variable {p : SendPayload} {r : SendRequest} {field : ThreadingField} {value cleaned : Text}

/-- The words of an accepted value are those of what was sent. -/
theorem words_cleaned (h : cleanHeader (some value) = .ok (some cleaned)) :
    words isBlank cleaned = words isFws value ∧ OneLine cleaned := by
  have hcleaned := (cleanHeader_ok_iff value _).mp h
  obtain ⟨hfoldable, heq⟩ := hcleaned
  obtain rfl := Option.some.inj heq
  have hfree := (unfold_controlFree_iff value).mpr hfoldable
  have hline : OneLine (unfold value) := by
    intro c hc
    constructor
    · rintro rfl
      exact hfree _ hc ⟨by decide, by decide⟩
    · rintro rfl
      exact hfree _ hc ⟨by decide, by decide⟩
  refine ⟨?_, hline⟩
  have hsame : words isBlank (unfold value) = words isFws (unfold value) := by
    refine words_congr fun c hc => ?_
    obtain ⟨hcr, hlf⟩ := hline c hc
    rw [isFws, decide_eq_false hcr, decide_eq_false hlf, Bool.or_false, Bool.or_false]
  rw [hsame]
  refine words_unfold (fun c hc => ?_) (by decide) (by decide) value
  have hblank : isBlank c = true := hc
  rw [isFws, hblank, Bool.true_or, Bool.true_or]

/-! ## The headers of a message -/

theorem mem_optionalHeader_iff (name : String) (value : Option Text) (header : Text × Text) :
    header ∈ optionalHeader name value ↔
      header.1 = name.toList ∧ value = some header.2 ∧ header.2 ≠ [] := by
  obtain ⟨n, v⟩ := header
  cases value with
  | none => simp [optionalHeader]
  | some value =>
    cases value with
    | nil =>
      simp only [optionalHeader, List.not_mem_nil, false_iff, Option.some.injEq]
      rintro ⟨-, rfl, hne⟩
      exact hne rfl
    | cons c value =>
      simp only [optionalHeader, List.mem_singleton, Prod.mk.injEq, Option.some.injEq]
      constructor
      · rintro ⟨rfl, rfl⟩
        exact ⟨rfl, rfl, List.cons_ne_nil c value⟩
      · rintro ⟨rfl, rfl, -⟩
        exact ⟨rfl, rfl⟩

/-- The names of the headers that are no threading headers. -/
def otherNames : List Text := ["From", "To", "Cc", "Subject", "Message-ID"].map String.toList

/-- A header is one of the others, or one of the two threading headers.

**Proof sketch.** The list of the headers is put together of single ones and of optional ones. The
single ones, and the `Cc`, have names among the others. -/
theorem mem_headers_cases {fromAddr messageId : Text} {header : Text × Text}
    (h : header ∈ headers fromAddr messageId r) :
    header.1 ∈ otherNames ∨ header ∈ optionalHeader "In-Reply-To" r.inReplyTo ∨
      header ∈ optionalHeader "References" r.refs := by
  have hnames : "From".toList ∈ otherNames ∧ "To".toList ∈ otherNames ∧ "Cc".toList ∈ otherNames ∧
      "Subject".toList ∈ otherNames ∧ "Message-ID".toList ∈ otherNames := by decide
  obtain ⟨hfrom, hto, hcc, hsubject, hid⟩ := hnames
  unfold headers at h
  simp only [List.mem_append, List.mem_cons, List.not_mem_nil, or_false] at h
  rcases h with (((((rfl | rfl) | h) | h) | rfl) | h) | h
  · exact Or.inl hfrom
  · exact Or.inl hto
  · refine Or.inl ?_
    cases hlist : r.cc with
    | none => simp [hlist, ccHeader] at h
    | some cc =>
      cases cc with
      | nil => simp [hlist, ccHeader] at h
      | cons address cc =>
        rw [hlist] at h
        rw [List.mem_singleton.mp h]
        exact hcc
  · rw [((mem_optionalHeader_iff _ _ _).mp h).1]
    exact Or.inl hsubject
  · exact Or.inl hid
  · exact Or.inr (Or.inl h)
  · exact Or.inr (Or.inr h)

/-- A threading header is there exactly if its field has a value that is not empty.

**Proof sketch.** The names of the two threading headers differ from all others and from each other,
so that a header with the name comes from the optional header of its own field. That one is there
exactly if the field has a value that is not empty. -/
theorem mem_headers_iff (fromAddr messageId : Text) (r : SendRequest) (field : ThreadingField)
    (value : Text) :
    (field.header, value) ∈ headers fromAddr messageId r ↔
      field.accepted r = some value ∧ value ≠ [] := by
  have hothers : field.header ∉ otherNames := by cases field <;> decide
  constructor
  · intro h
    rcases mem_headers_cases h with h | h | h
    · exact absurd h hothers
    · obtain ⟨hname, hvalue⟩ := (mem_optionalHeader_iff _ _ _).mp h
      cases field with
      | inReplyTo => exact hvalue
      | refs =>
        have hne : ThreadingField.refs.header ≠ "In-Reply-To".toList := by decide
        exact absurd hname hne
    · obtain ⟨hname, hvalue⟩ := (mem_optionalHeader_iff _ _ _).mp h
      cases field with
      | inReplyTo =>
        have hne : ThreadingField.inReplyTo.header ≠ "References".toList := by decide
        exact absurd hname hne
      | refs => exact hvalue
  · intro h
    unfold headers
    simp only [List.mem_append]
    cases field with
    | inReplyTo => exact Or.inl (Or.inr ((mem_optionalHeader_iff _ _ _).mpr ⟨rfl, h⟩))
    | refs => exact Or.inr ((mem_optionalHeader_iff _ _ _).mpr ⟨rfl, h⟩)

theorem name_mem_headerNames {fromAddr messageId : Text} :
    ∀ header ∈ headers fromAddr messageId r, header.1 ∈ headerNames := by
  have hothers : ∀ n ∈ otherNames, n ∈ headerNames := by decide
  intro header h
  rcases mem_headers_cases h with h | h | h
  · exact hothers _ h
  · rw [((mem_optionalHeader_iff _ _ _).mp h).1]
    decide
  · rw [((mem_optionalHeader_iff _ _ _).mp h).1]
    decide

/-! ## From the request to the wire -/

theorem cleaned_of_validate (hvalid : validate p = .ok r) (field : ThreadingField) :
    cleanHeader (field.sent p) = .ok (field.accepted r) := by
  obtain ⟨-, hinReplyTo, hrefs⟩ := validate_headers hvalid
  cases field with
  | inReplyTo => exact hinReplyTo
  | refs => exact hrefs

/-- What was sent in a field is accepted as its unfolded value. -/
theorem accepted_of_sent (hvalid : validate p = .ok r) (hsent : field.sent p = some value) :
    field.accepted r = some (unfold value) ∧
      cleanHeader (some value) = .ok (some (unfold value)) := by
  have hclean := cleaned_of_validate hvalid field
  rw [hsent] at hclean
  have haccepted := ((cleanHeader_ok_iff value _).mp hclean).2
  rw [haccepted] at hclean
  exact ⟨haccepted, hclean⟩

/-- **The words of a value survive its assignment and the layout**: what is stored of the accepted
value is written as the words of what was sent. -/
def Survives (P : SmtpPolicy) (name value : Text) : Prop :=
  ∃ stored, P.store name (unfold value) = .ok stored ∧ P.Spells name stored (words isFws value)

/-- **Without an opening of an encoded word, the words that survive are the plain ones.**

**Proof sketch.** Such a value is stored as it is, so that its words are those of what was sent.
They cannot be the encoded form of anything, since each encoded word begins with an opening. -/
theorem survives_iff_of_unencoded {P : SmtpPolicy} {name : Text} (hname : name ∈ threadingNames)
    (hclean : cleanHeader (some value) = .ok (some (unfold value)))
    (hassigned : Assignable P.store (name, unfold value))
    (hfree : ¬ Contains "=?".toList (unfold value)) :
    Survives P name value ↔ ∀ word ∈ words isFws value, PlainWord word := by
  obtain ⟨stored, hstored⟩ := hassigned
  obtain rfl := P.store_unencoded name hname _ _ hfree hstored
  have hwords := (words_cleaned hclean).1
  have hnot : ¬ P.Reencodes name (unfold value) (words isFws value) := by
    intro h
    obtain ⟨w, hw, hencoded⟩ := h.exists_encodedWord
    rw [← hwords] at hw
    exact hfree (hencoded.opening.isInfix.trans (infix_of_mem_words hw))
  constructor
  · rintro ⟨stored, hstored', hspells⟩
    obtain rfl := Except.ok.inj (hstored.symm.trans hstored')
    exact (hspells.resolve_right hnot).2
  · intro hplain
    exact ⟨_, hstored, Or.inl ⟨hwords, hplain⟩⟩

/-- **A value that is decoded to other plain words does not survive**: `<a=?utf-8?q?b?=@x.org>` is
stored, and written, as `<ab@x.org>`. -/
theorem not_survives_of_decoded {P : SmtpPolicy} {name stored : Text}
    (hstored : P.store name (unfold value) = .ok stored)
    (hplain : ∀ word ∈ words isBlank stored, PlainWord word)
    (hother : words isBlank stored ≠ words isFws value) : ¬ Survives P name value := by
  rintro ⟨stored', hstored', hspells⟩
  obtain rfl := Except.ok.inj (hstored.symm.trans hstored')
  rcases hspells with ⟨hsame, -⟩ | ⟨⟨word, hword, hnot⟩, -⟩
  · exact hother hsame
  · exact hnot (hplain word hword)

/-- What is read in the bytes under the name of a threading header: the layout of what is stored of
the accepted value, if that is not empty. -/
theorem mem_readSection_iff {P : SmtpPolicy} {fromAddr messageId : Text} {msg : EmailMessage}
    (hbuilt : buildMime P.store fromAddr messageId r = .ok msg)
    (haccepted : field.accepted r = some cleaned) (read : Text) :
    (field.header, read) ∈ readSection (P.wire msg) ↔
      cleaned ≠ [] ∧ ∃ stored, P.store field.header cleaned = .ok stored ∧
        read = (P.refolded field.header stored).value := by
  have hname : field.header ∈ threadingNames := by cases field <;> decide
  have hnames : ∀ header ∈ msg.headers, header.1 ∈ headerNames := by
    rintro ⟨name, stored⟩ hmem
    obtain ⟨value, hheader, -⟩ := (mem_headers_buildMime_iff hbuilt name stored).mp hmem
    exact name_mem_headerNames (name, value) hheader
  rw [mem_readSection_wire_iff hnames hname]
  simp only [mem_headers_buildMime_iff hbuilt, mem_headers_iff, haccepted, Option.some.injEq]
  constructor
  · rintro ⟨stored, ⟨value, ⟨rfl, hne⟩, hstored⟩, rfl⟩
    exact ⟨hne, stored, hstored, rfl⟩
  · rintro ⟨hne, stored, hstored, rfl⟩
    exact ⟨stored, ⟨cleaned, ⟨rfl, hne⟩, hstored⟩, rfl⟩

/-- An accepted value is carried exactly if it is not empty and its words survive. -/
theorem carried_iff_survives {P : SmtpPolicy} {fromAddr messageId : Text} {msg : EmailMessage}
    (hvalid : validate p = .ok r) (hbuilt : buildMime P.store fromAddr messageId r = .ok msg)
    (hsent : field.sent p = some value) :
    (∃ cleaned, field.accepted r = some cleaned ∧ Carried P msg field.header cleaned) ↔
      value ≠ [] ∧ Survives P field.header value := by
  obtain ⟨haccepted, hclean⟩ := accepted_of_sent hvalid hsent
  have hwords := (words_cleaned hclean).1
  have hread := mem_readSection_iff hbuilt haccepted
  constructor
  · rintro ⟨cleaned, hcleaned, read, hmem, hsame⟩
    obtain rfl : unfold value = cleaned := Option.some.inj (haccepted.symm.trans hcleaned)
    obtain ⟨hne, stored, hstored, rfl⟩ := (hread read).mp hmem
    rw [hwords] at hsame
    exact ⟨mt (unfold_eq_nil_iff value).mpr hne, stored, hstored,
      (words_refolded_iff _ _ _).mp hsame⟩
  · rintro ⟨hne, stored, hstored, hspells⟩
    refine ⟨unfold value, haccepted, _,
      (hread _).mpr ⟨mt (unfold_eq_nil_iff value).mp hne, stored, hstored, rfl⟩, ?_⟩
    rw [hwords]
    exact (words_refolded_iff _ _ _).mpr hspells

/-- **Which accepted values reach the wire as they are**: those that are not empty and whose words
survive the assignment and the layout. Where the accepted value has no opening of an encoded word,
they are those whose words are all ASCII and short enough for a line.

**Proof sketch.** The words of the value survive the unfolding. What is read in the bytes under the
name of the header is the layout of what is stored, and a layout breaks at blanks only: a plain word
is written as it is, and encoded words are written in the place of any other. Without an opening of
an encoded word the accepted value is stored as it is, and cannot be the encoded form of anything.
-/
theorem carried_iff (P : SmtpPolicy) (hvalid : validate p = .ok r) {fromAddr messageId : Text}
    {msg : EmailMessage} (hbuilt : buildMime P.store fromAddr messageId r = .ok msg)
    (hsent : field.sent p = some value) :
    ((∃ cleaned, field.accepted r = some cleaned ∧ Carried P msg field.header cleaned) ↔
        value ≠ [] ∧ Survives P field.header value) ∧
      (¬ Contains "=?".toList (unfold value) →
        ((∃ cleaned, field.accepted r = some cleaned ∧ Carried P msg field.header cleaned) ↔
          value ≠ [] ∧ ∀ word ∈ words isFws value, PlainWord word)) := by
  have hcarried := carried_iff_survives hvalid hbuilt hsent
  refine ⟨hcarried, fun hfree => hcarried.trans (and_congr_right fun hne => ?_)⟩
  obtain ⟨haccepted, hclean⟩ := accepted_of_sent hvalid hsent
  have hname : field.header ∈ threadingNames := by cases field <;> decide
  have hheader : (field.header, unfold value) ∈ headers fromAddr messageId r :=
    (mem_headers_iff _ _ _ _ _).mpr ⟨haccepted, mt (unfold_eq_nil_iff value).mp hne⟩
  exact survives_iff_of_unencoded hname hclean
    ((buildMime_ok_iff _ _ _).mp ⟨msg, hbuilt⟩ _ hheader) hfree

/-! ## A policy that meets the laws -/

/-- The digits of a byte in the encoding. -/
def hexDigits : List Char := "0123456789ABCDEF".toList

/-- A digit of a byte. -/
def hexDigit (n : ℕ) : Char := hexDigits.getD (n % 16) '0'

/-- `=XX`. -/
def quotedByte (b : Utf8.Byte) : Text := ['=', hexDigit (b / 16), hexDigit b]

/-- The encoded word of one character, in the encoding `Q`. -/
def quotedChar (c : Char) : Text :=
  "=?utf-8?q?".toList ++ ((Utf8.encodeChar c).flatMap quotedByte ++ "?=".toList)

theorem hexDigit_printable (n : ℕ) : 0x21 ≤ (hexDigit n).toNat ∧ (hexDigit n).toNat ≤ 0x7E := by
  have hall : ∀ c ∈ hexDigits, 0x21 ≤ c.toNat ∧ c.toNat ≤ 0x7E := by decide
  have hlt : n % 16 < hexDigits.length := Nat.mod_lt n (by decide)
  rw [hexDigit, List.getD_eq_getElem?_getD, List.getElem?_eq_getElem hlt, Option.getD_some]
  exact hall _ (List.getElem_mem hlt)

theorem length_encodeChar_le (c : Char) : (Utf8.encodeChar c).length ≤ 4 := by
  unfold Utf8.encodeChar
  simp only
  split_ifs <;> simp

theorem length_quotedBytes (bytes : List Utf8.Byte) :
    (bytes.flatMap quotedByte).length = 3 * bytes.length := by
  induction bytes with
  | nil => rfl
  | cons b bytes ih =>
    have hbyte : (quotedByte b).length = 3 := rfl
    rw [List.flatMap_cons, List.length_append, ih, hbyte, List.length_cons]
    omega

theorem length_wrapped_le {opening inner closing : Text} (hopening : opening.length = 10)
    (hinner : inner.length ≤ 12) (hclosing : closing.length = 2) :
    (opening ++ (inner ++ closing)).length ≤ 75 := by
  rw [List.length_append, List.length_append]
  omega

theorem length_quotedChar_le (c : Char) : (quotedChar c).length ≤ 75 := by
  refine length_wrapped_le (by decide) ?_ (by decide)
  have hbytes := length_encodeChar_le c
  rw [length_quotedBytes]
  omega

theorem encodedWord_quotedChar (c : Char) : EncodedWord (quotedChar c) where
  opening := by
    have hopening : "=?".toList <+: "=?utf-8?q?".toList := by decide
    exact hopening.trans (List.prefix_append _ _)
  closing := (List.suffix_append _ _).trans (List.suffix_append _ _)
  length_le := length_quotedChar_le c
  printable := by
    have hopening : ∀ d ∈ "=?utf-8?q?".toList, 0x21 ≤ d.toNat ∧ d.toNat ≤ 0x7E := by decide
    have hclosing : ∀ d ∈ "?=".toList, 0x21 ≤ d.toNat ∧ d.toNat ≤ 0x7E := by decide
    intro d hd
    rcases List.mem_append.mp hd with hd | hd
    · exact hopening d hd
    rcases List.mem_append.mp hd with hd | hd
    · obtain ⟨b, -, hd⟩ := List.mem_flatMap.mp hd
      simp only [quotedByte, List.mem_cons, List.not_mem_nil, or_false] at hd
      rcases hd with rfl | rfl | rfl
      · decide
      · exact hexDigit_printable _
      · exact hexDigit_printable _
    · exact hclosing d hd

/-- The policy that encodes each character in a word of its own, and folds nothing else. -/
def quotedPolicy : SmtpPolicy where
  store := lineStore
  store_unencoded _ _ value stored _ hstored := by
    rw [lineStore] at hstored
    split_ifs at hstored
    exact (Except.ok.inj hstored).symm
  encode _ _ word := if word = [] then [quotedChar ' '] else word.map quotedChar
  encode_ne_nil _ _ word := by
    split_ifs with hword
    · exact List.cons_ne_nil _ _
    · rwa [Ne, List.map_eq_nil_iff]
  encoded _ _ word e he := by
    split_ifs at he with hword
    · rw [List.mem_singleton.mp he]
      exact encodedWord_quotedChar _
    · obtain ⟨c, -, rfl⟩ := List.mem_map.mp he
      exact encodedWord_quotedChar c
  fold _ value :=
    ⟨{ first := ' ' :: value.filter fun c => c ≠ '\r' ∧ c ≠ '\n', rest := [] }, by
      refine ⟨List.forall_mem_cons.mpr ⟨by decide, fun c hc => ?_⟩, fun l hl => nomatch hl⟩
      exact of_decide_eq_true (List.mem_filter.mp hc).2⟩
  encodeContent text := ("8bit".toList, text)

/-- A reply in a thread of two messages, whose chain is folded. -/
def threadReply (inReplyTo : Text) : SendPayload where
  toAddrs := ["e@x.org".toList]
  bodyText := "t".toList
  inReplyTo := some inReplyTo
  refs := some "<a@x.org>\r\n <b@x.org>".toList

/-- The reply as it is accepted. -/
def acceptedReply (inReplyTo : Text) : SendRequest where
  toAddrs := ["e@x.org".toList]
  bodyText := "t".toList
  inReplyTo := some inReplyTo
  refs := some "<a@x.org> <b@x.org>".toList

/-- The message of the reply. -/
def replyMessage (inReplyTo : Text) : EmailMessage :=
  ⟨headers "m@x.org".toList "<1@x.org>".toList (acceptedReply inReplyTo), "t".toList⟩

/-- A folded chain of two message identifiers reaches the wire. -/
theorem carried_references :
    ∃ cleaned, ThreadingField.refs.accepted (acceptedReply "<b@x.org>".toList) = some cleaned ∧
      Carried quotedPolicy (replyMessage "<b@x.org>".toList) "References".toList cleaned := by
  have hvalid : validate (threadReply "<b@x.org>".toList) =
      .ok (acceptedReply "<b@x.org>".toList) := by decide
  have hbuilt : buildMime quotedPolicy.store "m@x.org".toList "<1@x.org>".toList
      (acceptedReply "<b@x.org>".toList) = .ok (replyMessage "<b@x.org>".toList) := by
    change buildMime lineStore _ _ _ = _
    decide
  have hsent : ThreadingField.refs.sent (threadReply "<b@x.org>".toList) =
      some "<a@x.org>\r\n <b@x.org>".toList := rfl
  exact ((carried_iff quotedPolicy hvalid hbuilt hsent).2 (by decide)).mpr (by decide)

/-- A message identifier of 80 characters. -/
def longId : Text := '<' :: (List.replicate 72 'a' ++ "@x.org>".toList)

/-- A long identifier does not reach the wire, whatever the policy is that builds its message. -/
theorem longId_not_carried :
    ¬ ∃ (P : SmtpPolicy) (built : EmailMessage),
      buildMime P.store "m@x.org".toList "<1@x.org>".toList (acceptedReply longId) = .ok built ∧
      ∀ (p : SendPayload) (r : SendRequest) (fromAddr messageId value : Text)
        (msg : EmailMessage) (field : ThreadingField), validate p = .ok r →
        buildMime P.store fromAddr messageId r = .ok msg → field.sent p = some value →
          ∃ cleaned, field.accepted r = some cleaned ∧ Carried P msg field.header cleaned := by
  rintro ⟨P, built, hbuilt, h⟩
  have hvalid : validate (threadReply longId) = .ok (acceptedReply longId) := by decide +kernel
  have hsent : ThreadingField.inReplyTo.sent (threadReply longId) = some longId := rfl
  have hcarried := h _ _ _ _ _ _ .inReplyTo hvalid hbuilt hsent
  have hplain := (((carried_iff P hvalid hbuilt hsent).2 (by decide +kernel)).mp hcarried).2
  exact absurd (hplain longId (by decide)) (by decide)

end SendSchema

end MailAggregator
