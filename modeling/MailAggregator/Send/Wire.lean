import MailAggregator.Lib.HeaderSection
import MailAggregator.Send.Mime

set_option relaxedAutoImplicit false
set_option autoImplicit false

/-!
# The message on the wire

`EmailMessage` is serialised under the policy `SMTP`: what is stored of a header is laid out on
lines of 78 columns, broken at whitespace only. A word that is not ASCII, or too long for a line of
its own, is replaced by encoded words. What an assignment stores, what the encoded words are, how
the structured headers are folded and how the text is encoded is left to the email package.

## Main definitions

* `MailAggregator.Mime.SmtpPolicy` — what is left to the email package.
* `MailAggregator.Mime.SmtpPolicy.wire` — the bytes of a message.
* `MailAggregator.Mime.PlainWord` — the words that are written as they are.
* `MailAggregator.Mime.SmtpPolicy.Spells` — a stored value is written as the given words.

## Main results

* `MailAggregator.Mime.SmtpPolicy.words_refolded_iff` — the words of a refolded value.
* `MailAggregator.Mime.SmtpPolicy.mem_readSection_wire_iff` — what is read in the bytes.
-/

namespace MailAggregator

open PyText Lib

namespace Mime

/-! ## Words -/

/-- `policy.SMTP.max_line_length`. -/
def maxLineLength : ℕ := 78

/-- **A word that is written as it is**: it is ASCII and has no line break, and it fits on a line
behind one blank. -/
def PlainWord (word : Text) : Prop :=
  (∀ c ∈ word, c.toNat < 0x80) ∧ OneLine word ∧ word.length < maxLineLength

instance : DecidablePred PlainWord := fun word =>
  inferInstanceAs (Decidable ((∀ c ∈ word, c.toNat < 0x80) ∧ (∀ c ∈ word, c ≠ '\r' ∧ c ≠ '\n') ∧
    word.length < maxLineLength))

/-- An encoded word of RFC 2047. -/
structure EncodedWord (word : Text) : Prop where
  opening : "=?".toList <+: word
  closing : "?=".toList <:+ word
  length_le : word.length ≤ 75
  printable : ∀ c ∈ word, 0x21 ≤ c.toNat ∧ c.toNat ≤ 0x7E

/-- A printable character is no blank and no line break. -/
theorem not_blank_of_printable {c : Char} (h : 0x21 ≤ c.toNat) :
    isBlank c = false ∧ c ≠ '\r' ∧ c ≠ '\n' := by
  have hne {d : Char} (hd : d.toNat < 0x21) : c ≠ d := by
    rintro rfl
    omega
  refine ⟨?_, hne (by decide), hne (by decide)⟩
  rw [isBlank, decide_eq_false (hne (by decide)), decide_eq_false (hne (by decide))]
  rfl

theorem EncodedWord.plain {word : Text} (h : EncodedWord word) : PlainWord word := by
  refine ⟨fun c hc => ?_, fun c hc => (not_blank_of_printable (h.printable c hc).1).2, ?_⟩
  · have := (h.printable c hc).2
    omega
  · have := h.length_le
    rw [maxLineLength]
    omega

/-- An encoded word can stand behind any blanks. -/
theorem EncodedWord.proper {word blanks : Text} (h : EncodedWord word) (hne : blanks ≠ [])
    (hblanks : ∀ c ∈ blanks, isBlank c = true) : Piece.Proper (blanks, word) where
  ne_nil := hne
  blanks := hblanks
  word c hc := (not_blank_of_printable (h.printable c hc).1).1
  oneLine c hc := (not_blank_of_printable (h.printable c hc).1).2

/-! ## The policy -/

/-- The threading headers, which have no structure. -/
def threadingNames : List Text := ["In-Reply-To".toList, "References".toList]

/-- What the assignment of a header and the serialisation leave to the email package. -/
structure SmtpPolicy where
  /-- What an assignment stores: it decodes the encoded words of the value. -/
  store : HeaderStore
  /-- A threading header without an opening of an encoded word is stored as it is. -/
  store_unencoded : ∀ name ∈ threadingNames, ∀ value stored, ¬ Contains "=?".toList value →
    store name value = .ok stored → stored = value
  /-- The encoded words for a word, by the header it is in and what stands before it there. -/
  encode (name before word : Text) : List Text
  encode_ne_nil (name before word : Text) : encode name before word ≠ []
  encoded (name before word : Text) : ∀ e ∈ encode name before word, EncodedWord e
  /-- The folded value of a structured header. -/
  fold (name value : Text) : { b : FieldBody // b.Folded }
  /-- The transfer encoding of a text, and the encoded text. -/
  encodeContent (text : Text) : Text × Text

namespace SmtpPolicy

variable (P : SmtpPolicy)

/-- The encoded words behind the blanks of the word that they replace. -/
def encodedPieces (blanks : Text) : List Text → List Piece
  | [] => []
  | e :: es => (blanks, e) :: es.map fun e => ([' '], e)

/-- The pieces of a header as they are written, behind what has been written of it. -/
def spell (name before : Text) : List Piece → List Piece
  | [] => []
  | p :: ps =>
    (if PlainWord p.2 then [p] else encodedPieces p.1 (P.encode name before p.2)) ++
      spell name (before ++ p.text) ps

/-- The body of an unstructured header, of what is stored. -/
def refolded (name value : Text) : FieldBody :=
  refold maxLineLength (name.length + 1) [] (P.spell name [] (pieces value))

/-- A header as a field. -/
def field (header : Text × Text) : Text × FieldBody :=
  (header.1, if header.1 ∈ threadingNames then P.refolded header.1 header.2
    else (P.fold header.1 header.2).1)

/-- The headers that `set_content` adds. -/
def contentHeaders (transferEncoding : Text) : List (Text × Text) :=
  [("Content-Type".toList, "text/plain; charset=\"utf-8\"".toList),
    ("Content-Transfer-Encoding".toList, transferEncoding), ("MIME-Version".toList, "1.0".toList)]

/-- `bytes(msg)`. -/
def wire (msg : EmailMessage) : Text :=
  writeSection ((msg.headers ++ contentHeaders (P.encodeContent msg.body).1).map P.field)
    (P.encodeContent msg.body).2

/-! ## What is written -/

variable {P} {name before value : Text} {ps : List Piece}

theorem mem_encodedPieces {blanks : Text} {es : List Text} {p : Piece}
    (h : p ∈ encodedPieces blanks es) : p.2 ∈ es ∧ (p.1 = blanks ∨ p.1 = [' ']) := by
  cases es with
  | nil => cases h
  | cons e es =>
    rcases List.mem_cons.mp h with rfl | h
    · exact ⟨List.mem_cons_self, Or.inl rfl⟩
    · obtain ⟨e', he', rfl⟩ := List.mem_map.mp h
      exact ⟨List.mem_cons_of_mem _ he', Or.inr rfl⟩

/-- What is written in the place of a piece is plain, and can begin a line if the piece stands
apart.

**Proof sketch.** Induction on the pieces. A plain piece is written itself. Any other piece is
replaced by encoded words, which are plain; the first of them stands behind the blanks of the piece,
and each later one behind a space. -/
theorem mem_spell (h : ∀ p ∈ ps, p.Apart) :
    ∀ p ∈ P.spell name before ps, p.Proper ∧ PlainWord p.2 := by
  induction ps generalizing before with
  | nil => exact fun p hp => nomatch hp
  | cons q ps ih =>
    intro p hp
    have hq := h q List.mem_cons_self
    rcases List.mem_append.mp hp with hp | hp
    · split_ifs at hp with hplain
      · rw [List.mem_singleton.mp hp]
        exact ⟨⟨hq, hplain.2.1⟩, hplain⟩
      · obtain ⟨hmem, hblanks⟩ := mem_encodedPieces hp
        have hencoded := P.encoded name before q.2 p.2 hmem
        refine ⟨?_, hencoded.plain⟩
        rcases hblanks with hblanks | hblanks
        · exact hencoded.proper (hblanks ▸ hq.ne_nil) (hblanks ▸ hq.blanks)
        · exact hencoded.proper (hblanks ▸ List.cons_ne_nil _ _) (hblanks ▸ by decide)
    · exact ih (fun r hr => h r (List.mem_cons_of_mem _ hr)) p hp

/-- Plain words are written as they are. -/
theorem spell_of_plain (h : ∀ p ∈ ps, PlainWord p.2) : P.spell name before ps = ps := by
  induction ps generalizing before with
  | nil => rfl
  | cons p ps ih =>
    rw [spell, if_pos (h p List.mem_cons_self), ih fun q hq => h q (List.mem_cons_of_mem _ hq)]
    rfl

theorem mem_pieceWords_iff {ps : List Piece} {word : Text} :
    word ∈ pieceWords ps ↔ word ≠ [] ∧ ∃ p ∈ ps, p.2 = word := by
  unfold pieceWords
  rw [List.mem_filter, List.mem_map, and_comm]
  simp

/-- The words of pieces are kept exactly if all of them are plain. -/
theorem pieceWords_spell_iff (h : ∀ p ∈ ps, p.Apart) :
    pieceWords (P.spell name before ps) = pieceWords ps ↔ ∀ w ∈ pieceWords ps, PlainWord w := by
  constructor
  · intro heq w hw
    rw [← heq, mem_pieceWords_iff] at hw
    obtain ⟨-, p, hp, rfl⟩ := hw
    exact (mem_spell h p hp).2
  · intro hplain
    rw [spell_of_plain]
    intro p hp
    cases hword : p.2 with
    | nil => decide
    | cons c w =>
      exact hplain _ (mem_pieceWords_iff.mpr ⟨List.cons_ne_nil c w, p, hp, hword⟩)

theorem folded_refolded (name value : Text) : (P.refolded name value).Folded :=
  folded_refold _ _ (fun _ hc => (List.not_mem_nil hc).elim) fun p hp =>
    (mem_spell (apart_of_mem_pieces value) p hp).1

/-- The words of a refolded value are those that are spelt. -/
theorem words_refolded (name value : Text) :
    words isBlank (P.refolded name value).value = pieceWords (P.spell name [] (pieces value)) := by
  rw [refolded, value_refold, List.nil_append,
    words_flatMap fun p hp => (mem_spell (apart_of_mem_pieces value) p hp).1.toApart]

/-! ## How a stored value is spelt -/

variable (P) in
/-- A stored value with a word that is not plain, whose encoded form is the given words. -/
def Reencodes (name stored : Text) (tokens : List Text) : Prop :=
  (∃ w ∈ words isBlank stored, ¬ PlainWord w) ∧
    pieceWords (P.spell name [] (pieces stored)) = tokens

variable (P) in
/-- **A stored value is written as the given words**: it has these words and all of them are plain,
or they are themselves the encoded form of what is stored. -/
def Spells (name stored : Text) (tokens : List Text) : Prop :=
  (words isBlank stored = tokens ∧ ∀ w ∈ tokens, PlainWord w) ∨ P.Reencodes name stored tokens

/-- **The words of a refolded value.**

**Proof sketch.** If all words of the stored value are plain then they are written as they are, and
otherwise the words that are written are compared as a whole. -/
theorem words_refolded_iff (name stored : Text) (tokens : List Text) :
    words isBlank (P.refolded name stored).value = tokens ↔ P.Spells name stored tokens := by
  rw [words_refolded, Spells, Reencodes]
  have hkept : pieceWords (P.spell name [] (pieces stored)) = pieceWords (pieces stored) ↔
      ∀ w ∈ pieceWords (pieces stored), PlainWord w :=
    pieceWords_spell_iff (apart_of_mem_pieces stored)
  rw [pieceWords_pieces] at hkept
  by_cases hplain : ∀ w ∈ words isBlank stored, PlainWord w
  · rw [hkept.mpr hplain]
    have hnone : ¬ ∃ w ∈ words isBlank stored, ¬ PlainWord w := by
      rintro ⟨w, hw, hnot⟩
      exact hnot (hplain w hw)
    constructor
    · rintro rfl
      exact Or.inl ⟨rfl, hplain⟩
    · rintro (⟨h, -⟩ | ⟨h, -⟩)
      · exact h
      · exact absurd h hnone
  · have hsome : ∃ w ∈ words isBlank stored, ¬ PlainWord w := by
      push Not at hplain
      exact hplain
    constructor
    · exact fun h => Or.inr ⟨hsome, h⟩
    · rintro (⟨rfl, h⟩ | ⟨-, h⟩)
      · exact absurd h hplain
      · exact h

/-- There is an encoded word in the place of each word that is not plain.

**Proof sketch.** Induction over the pieces. If the first piece is plain, the word that is not plain
comes later, and its encoded word is there by the induction hypothesis. If it is not, it is written
as encoded words, of which there is at least one. -/
theorem exists_encodedWord_of_spell (h : ∃ p ∈ ps, ¬ PlainWord p.2) :
    ∃ w ∈ pieceWords (P.spell name before ps), EncodedWord w := by
  induction ps generalizing before with
  | nil =>
    obtain ⟨p, hp, -⟩ := h
    cases hp
  | cons q ps ih =>
    by_cases hq : PlainWord q.2
    · obtain ⟨p, hp, hnot⟩ := h
      rcases List.mem_cons.mp hp with rfl | hp
      · exact absurd hq hnot
      · have hlater : ∃ w ∈ pieceWords (P.spell name (before ++ q.text) ps), EncodedWord w :=
          ih ⟨p, hp, hnot⟩
        obtain ⟨w, hw, hencoded⟩ := hlater
        refine ⟨w, ?_, hencoded⟩
        rw [mem_pieceWords_iff] at hw ⊢
        obtain ⟨hne, r, hr, hword⟩ := hw
        exact ⟨hne, r, List.mem_append_right _ hr, hword⟩
    · obtain ⟨e, es, hes⟩ := List.exists_cons_of_ne_nil (P.encode_ne_nil name before q.2)
      have hencoded : EncodedWord e := P.encoded name before q.2 e (hes ▸ List.mem_cons_self)
      have hne : e ≠ [] := by
        rintro rfl
        exact absurd (List.prefix_nil.mp hencoded.opening) (by decide)
      refine ⟨e, mem_pieceWords_iff.mpr ⟨hne, (q.1, e), ?_, rfl⟩, hencoded⟩
      rw [spell, if_neg hq, hes]
      exact List.mem_append_left _ List.mem_cons_self

/-- A value that is re-encoded as the given words has an encoded word among them. -/
theorem Reencodes.exists_encodedWord {stored : Text} {tokens : List Text}
    (h : P.Reencodes name stored tokens) : ∃ w ∈ tokens, EncodedWord w := by
  obtain ⟨⟨w, hw, hnot⟩, rfl⟩ := h
  rw [← pieceWords_pieces, mem_pieceWords_iff] at hw
  obtain ⟨-, p, hp, rfl⟩ := hw
  exact exists_encodedWord_of_spell ⟨p, hp, hnot⟩

/-! ## What is read -/

/-- The names of the headers of a message. -/
def headerNames : List Text :=
  ["From", "To", "Cc", "Subject", "Message-ID", "In-Reply-To", "References", "Content-Type",
    "Content-Transfer-Encoding", "MIME-Version"].map String.toList

theorem field_of_threading {header : Text × Text} (h : header.1 ∈ threadingNames) :
    P.field header = (header.1, P.refolded header.1 header.2) := by
  rw [field, if_pos h]

theorem validName_of_mem (h : name ∈ headerNames) : ValidName name := by
  have hall : ∀ n ∈ headerNames,
      n ≠ [] ∧ ':' ∉ n ∧ (∀ c ∈ n, c ≠ '\r' ∧ c ≠ '\n') ∧ n.head?.any isBlank = false := by decide
  obtain ⟨hne, hcolon, hline, hblank⟩ := hall name h
  exact ⟨hne, hcolon, hline, hblank⟩

/-- **What is read in the bytes of a message**: its headers, folded and unfolded again.

**Proof sketch.** All fields have names that can be read back and bodies that are folded: a
threading header is laid out, and the fold of any other header is one by assumption. So the section
is read back field by field, and the headers of the content have other names. -/
theorem mem_readSection_wire_iff {msg : EmailMessage}
    (hnames : ∀ header ∈ msg.headers, header.1 ∈ headerNames)
    (hname : name ∈ threadingNames) (read : Text) :
    (name, read) ∈ readSection (P.wire msg) ↔
      ∃ value, (name, value) ∈ msg.headers ∧ read = (P.refolded name value).value := by
  have hcontent : ∀ header ∈ contentHeaders (P.encodeContent msg.body).1,
      header.1 ∈ headerNames ∧ header.1 ∉ threadingNames := by
    have hnames : ∀ n ∈ ["Content-Type".toList, "Content-Transfer-Encoding".toList,
        "MIME-Version".toList], n ∈ headerNames ∧ n ∉ threadingNames := by decide
    intro header hheader
    simp only [contentHeaders, List.mem_cons, List.not_mem_nil, or_false] at hheader
    rcases hheader with rfl | rfl | rfl
    · exact hnames _ (by simp)
    · exact hnames _ (by simp)
    · exact hnames _ (by simp)
  have hfields : ∀ f ∈ (msg.headers ++ contentHeaders (P.encodeContent msg.body).1).map P.field,
      ValidName f.1 ∧ f.2.Folded := by
    intro f hf
    obtain ⟨header, hheader, rfl⟩ := List.mem_map.mp hf
    rcases List.mem_append.mp hheader with hheader | hheader
    · refine ⟨validName_of_mem (hnames header hheader), ?_⟩
      by_cases hthreading : header.1 ∈ threadingNames
      · rw [field_of_threading hthreading]
        exact folded_refolded _ _
      · rw [field, if_neg hthreading]
        exact (P.fold header.1 header.2).2
    · refine ⟨validName_of_mem (hcontent header hheader).1, ?_⟩
      rw [field, if_neg (hcontent header hheader).2]
      exact (P.fold header.1 header.2).2
  rw [wire, readSection_writeSection hfields, List.map_map, List.mem_map]
  constructor
  · rintro ⟨header, hheader, heq⟩
    obtain ⟨rfl, rfl⟩ := Prod.mk.inj heq
    rcases List.mem_append.mp hheader with hmem | hmem
    · refine ⟨header.2, hmem, ?_⟩
      change header.1 ∈ threadingNames at hname
      rw [field_of_threading hname]
    · exact absurd hname (hcontent header hmem).2
  · rintro ⟨value, hmem, rfl⟩
    refine ⟨(name, value), List.mem_append_left _ hmem, ?_⟩
    rw [Function.comp_apply, field_of_threading hname]

end SmtpPolicy

end Mime

end MailAggregator
