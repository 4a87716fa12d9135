import MailAggregator.Lib.PyText
import MailAggregator.Lib.Words

set_option relaxedAutoImplicit false
set_option autoImplicit false

/-!
# Header sections

A header section is a list of fields, each a name and a body that may be folded over several lines:
a line that begins with a blank goes on with the one before it. An empty line ends the section. A
body is folded at blanks, so that the lines do not get longer than a width, as far as its words
allow.

## Main definitions

* `Lib.FieldBody` — the lines of a body.
* `Lib.writeSection`, `Lib.readSection` — a section as text, and the fields that are read in it.
* `Lib.pieces` — a text as words with the blanks in front of them.
* `Lib.refold` — the lines that pieces are laid out on.

## Main results

* `Lib.readSection_writeSection` — what is written is read back, each body on one line.
* `Lib.value_refold` — folding changes nothing but the line breaks.
* `Lib.folded_refold` — the lines of a layout can be read back.
* `Lib.words_flatMap`, `Lib.pieceWords_pieces` — the words of a text are those of its pieces.
-/

namespace Lib

open PyText

/-- A space or a tab. -/
def isBlank (c : Char) : Bool := c = ' ' || c = '\t'

/-- A text without line breaks. -/
def OneLine (text : Text) : Prop := ∀ c ∈ text, c ≠ '\r' ∧ c ≠ '\n'

theorem oneLine_append_iff (xs ys : Text) : OneLine (xs ++ ys) ↔ OneLine xs ∧ OneLine ys :=
  List.forall_mem_append

/-! ## Writing and reading -/

/-- The lines of a body. -/
structure FieldBody where
  first : Text
  rest : List Text
  deriving DecidableEq, Repr

/-- The body as text. -/
def FieldBody.text (b : FieldBody) : Text := b.first ++ b.rest.flatMap fun l => '\r' :: '\n' :: l

/-- The unfolded body. -/
def FieldBody.value (b : FieldBody) : Text := b.first ++ b.rest.flatten

/-- A line that goes on with the one before it. -/
structure Continues (line : Text) : Prop where
  blank : ∃ c ∈ line.head?, isBlank c = true
  oneLine : OneLine line

/-- **A body that can be read back**: its lines are lines, and all but the first go on with the one
before. -/
structure FieldBody.Folded (b : FieldBody) : Prop where
  first : OneLine b.first
  rest : ∀ line ∈ b.rest, Continues line

/-- A name that can be read back. -/
structure ValidName (name : Text) : Prop where
  ne_nil : name ≠ []
  colon : ':' ∉ name
  oneLine : OneLine name
  /-- It does not go on with the line before it. -/
  blank : name.head?.any isBlank = false

/-- A field as text. -/
def writeField (f : Text × FieldBody) : Text := f.1 ++ ':' :: f.2.text ++ ['\r', '\n']

/-- A section as text, with what follows it. -/
def writeSection (fs : List (Text × FieldBody)) (content : Text) : Text :=
  fs.flatMap writeField ++ '\r' :: '\n' :: content

/-- The unfolded lines of a section, of which `line` has been read of the current one. A CR before
an LF is a part of the line break. -/
def readLines (line : Text) : Text → List Text
  | [] => if line = [] then [] else [line]
  | c :: rest =>
    if c = '\r' ∧ rest.head? = some '\n' then readLines line rest
    else if c = '\n' then
      if line = [] then []
      else if rest.head?.any isBlank then readLines line rest
      else line :: readLines [] rest
    else readLines (line ++ [c]) rest

/-- A line is a name and a value. -/
def readField (line : Text) : Text × Text :=
  (line.takeWhile (· ≠ ':'), (line.dropWhile (· ≠ ':')).drop 1)

/-- The fields of a section. -/
def readSection (text : Text) : List (Text × Text) := (readLines [] text).map readField

theorem readLines_oneLine {line text : Text} (h : OneLine text) (rest : Text) :
    readLines line (text ++ rest) = readLines (line ++ text) rest := by
  induction text generalizing line with
  | nil => rw [List.nil_append, List.append_nil]
  | cons c text ih =>
    obtain ⟨hcr, hlf⟩ := h c List.mem_cons_self
    rw [List.cons_append, readLines, if_neg fun hc => hcr hc.1, if_neg hlf,
      ih fun d hd => h d (List.mem_cons_of_mem _ hd), List.append_assoc, List.singleton_append]

/-- A line break before a blank is left out. -/
theorem readLines_fold {line next : Text} (hline : line ≠ []) (h : Continues next) (rest : Text) :
    readLines line ('\r' :: '\n' :: (next ++ rest)) = readLines (line ++ next) rest := by
  obtain ⟨c, hc, hblank⟩ := h.blank
  have hhead : (next ++ rest).head? = some c := by
    cases next with
    | nil => cases hc
    | cons d next => exact hc
  rw [readLines, if_pos ⟨rfl, rfl⟩, readLines, if_neg (by simp), if_pos rfl, if_neg hline, hhead,
    Option.any_some, if_pos hblank, readLines_oneLine h.oneLine]

/-- A line break before anything else ends the line. -/
theorem readLines_break {line rest : Text} (hline : line ≠ [])
    (h : rest.head?.any isBlank = false) :
    readLines line ('\r' :: '\n' :: rest) = line :: readLines [] rest := by
  rw [readLines, if_pos ⟨rfl, rfl⟩, readLines, if_neg (by simp), if_pos rfl, if_neg hline, h,
    if_neg (by decide)]

theorem readLines_body {line : Text} (hline : line ≠ []) {b : FieldBody} (h : b.Folded)
    (rest : Text) : readLines line (b.text ++ rest) = readLines (line ++ b.value) rest := by
  obtain ⟨first, lines⟩ := b
  have hlines : ∀ {line : Text}, line ≠ [] → (∀ l ∈ lines, Continues l) →
      readLines line ((lines.flatMap fun l => '\r' :: '\n' :: l) ++ rest) =
        readLines (line ++ lines.flatten) rest := by
    clear h hline
    induction lines with
    | nil =>
      intro line _ _
      rw [List.flatMap_nil, List.nil_append, List.flatten_nil, List.append_nil]
    | cons l lines ih =>
      intro line hline hall
      rw [List.flatMap_cons, List.append_assoc, List.cons_append, List.cons_append,
        readLines_fold hline (hall l List.mem_cons_self),
        ih (List.append_ne_nil_of_left_ne_nil hline _) fun l' hl' =>
          hall l' (List.mem_cons_of_mem _ hl'),
        List.flatten_cons, List.append_assoc]
  rw [FieldBody.text, FieldBody.value, List.append_assoc, readLines_oneLine h.first,
    hlines (List.append_ne_nil_of_left_ne_nil hline _) h.rest, List.append_assoc]

theorem readField_name {name : Text} (h : ':' ∉ name) (value : Text) :
    readField (name ++ ':' :: value) = (name, value) := by
  have hname : ∀ c ∈ name, decide (c ≠ ':') = true := fun c hc =>
    decide_eq_true (ne_of_mem_of_not_mem hc h)
  rw [readField, List.takeWhile_append_of_pos hname, List.dropWhile_append_of_pos hname]
  simp

/-- **What is written is read back**, each body on one line.

**Proof sketch.** Induction on the fields. Behind the body of a field comes the name of the next one
or the empty line, neither of which begins with a blank; so the line ends there. -/
theorem readSection_writeSection {fs : List (Text × FieldBody)}
    (h : ∀ f ∈ fs, ValidName f.1 ∧ f.2.Folded) (content : Text) :
    readSection (writeSection fs content) = fs.map fun f => (f.1, f.2.value) := by
  unfold writeSection readSection
  induction fs with
  | nil =>
    rw [List.flatMap_nil, List.nil_append, readLines, if_pos ⟨rfl, rfl⟩, readLines,
      if_neg (by simp), if_pos rfl, if_pos rfl]
    rfl
  | cons f fs ih =>
    obtain ⟨hname, hbody⟩ := h f List.mem_cons_self
    have hnext : (fs.flatMap writeField ++ '\r' :: '\n' :: content).head?.any isBlank = false := by
      cases fs with
      | nil => rfl
      | cons g fs =>
        obtain ⟨hvalid, -⟩ := h g (List.mem_cons_of_mem _ List.mem_cons_self)
        have hblank := hvalid.blank
        obtain ⟨c, name, hg⟩ := List.exists_cons_of_ne_nil hvalid.ne_nil
        rw [hg] at hblank
        rw [List.flatMap_cons, writeField, hg]
        exact hblank
    have hne : f.1 ++ [':'] ≠ [] := List.append_ne_nil_of_right_ne_nil _ (List.cons_ne_nil _ _)
    have hcolon : OneLine (f.1 ++ [':']) := by
      rw [oneLine_append_iff]
      refine ⟨hname.oneLine, fun c hc => ?_⟩
      rw [List.mem_singleton.mp hc]
      decide
    have hsplit : (f :: fs).flatMap writeField ++ '\r' :: '\n' :: content =
        (f.1 ++ [':']) ++ (f.2.text ++ ('\r' :: '\n' :: (fs.flatMap writeField ++
          '\r' :: '\n' :: content))) := by
      simp only [List.flatMap_cons, writeField, List.append_assoc, List.cons_append,
        List.nil_append]
    rw [hsplit, readLines_oneLine hcolon, List.nil_append, readLines_body hne hbody,
      readLines_break (List.append_ne_nil_of_left_ne_nil hne _) hnext, List.map_cons,
      ih fun g hg => h g (List.mem_cons_of_mem _ hg), List.map_cons, List.append_assoc,
      List.singleton_append, readField_name hname.colon]

/-! ## Laying out -/

/-- A piece of a text: blanks, and the word behind them. -/
abbrev Piece := Text × Text

/-- A piece as text. -/
def Piece.text (p : Piece) : Text := p.1 ++ p.2

/-- The pieces of a text, of which `blanks` and `word` have been read of the current one. -/
def piecesFrom (blanks word : Text) : Text → List Piece
  | [] => [(blanks, word)]
  | c :: rest =>
    if isBlank c then
      if word = [] then piecesFrom (blanks ++ [c]) [] rest
      else (blanks, word) :: piecesFrom [c] [] rest
    else piecesFrom blanks (word ++ [c]) rest

/-- The pieces of a text behind a space. -/
def pieces (text : Text) : List Piece := piecesFrom [' '] [] text

/-- The lines that pieces are laid out on: a piece that does not fit begins a new line. `used` is
how much of the first line is taken. -/
def refold (width used : ℕ) (line : Text) : List Piece → FieldBody
  | [] => { first := line, rest := [] }
  | p :: ps =>
    if used + (line ++ p.text).length ≤ width then refold width used (line ++ p.text) ps
    else
      let later := refold width 0 p.text ps
      { first := line, rest := later.first :: later.rest }

/-- A piece that stands apart from the next one: at least one blank, and a word without blanks. -/
structure Piece.Apart (p : Piece) : Prop where
  ne_nil : p.1 ≠ []
  blanks : ∀ c ∈ p.1, isBlank c = true
  word : ∀ c ∈ p.2, isBlank c = false

/-- A piece that can begin a line: it stands apart, and its word has no line break. -/
structure Piece.Proper (p : Piece) : Prop extends Piece.Apart p where
  oneLine : OneLine p.2

/-- The words of pieces. -/
def pieceWords (ps : List Piece) : List Text := (ps.map Prod.snd).filter fun w => !w.isEmpty

/-- **Folding changes nothing but the line breaks.** -/
theorem value_refold (width used : ℕ) (line : Text) (ps : List Piece) :
    (refold width used line ps).value = line ++ ps.flatMap Piece.text := by
  induction ps generalizing used line with
  | nil => rw [refold, FieldBody.value, List.flatten_nil, List.flatMap_nil]
  | cons p ps ih =>
    rw [refold, List.flatMap_cons]
    split_ifs with hfits
    · rw [ih, List.append_assoc]
    · have hlater := ih 0 p.text
      simp only [FieldBody.value] at hlater ⊢
      rw [List.flatten_cons, hlater]

theorem Piece.Proper.continues {p : Piece} (h : p.Proper) : Continues p.text := by
  refine ⟨?_, (oneLine_append_iff _ _).mpr ⟨fun c hc => ?_, h.oneLine⟩⟩
  · obtain ⟨c, blanks, hp⟩ := List.exists_cons_of_ne_nil h.ne_nil
    refine ⟨c, ?_, h.blanks c (hp ▸ List.mem_cons_self)⟩
    rw [Piece.text, hp]
    rfl
  · have hblank := h.blanks c hc
    constructor
    · rintro rfl
      exact absurd hblank (by decide)
    · rintro rfl
      exact absurd hblank (by decide)

/-- **The lines of a layout can be read back**, if its pieces can begin a line.

**Proof sketch.** Induction over the pieces, for every line that is begun, together with the fact
that the first line begins with it. A piece that fits is put on the line. One that does not begins a
new line, which is a continuation, because a proper piece begins with a blank. -/
theorem folded_refold (width used : ℕ) {line : Text} {ps : List Piece} (hline : OneLine line)
    (h : ∀ p ∈ ps, p.Proper) : (refold width used line ps).Folded := by
  suffices hall : ∀ used line, OneLine line →
      (refold width used line ps).Folded ∧ line <+: (refold width used line ps).first from
    (hall used line hline).1
  clear hline line used
  induction ps with
  | nil => exact fun used line hline => ⟨⟨hline, fun l hl => nomatch hl⟩, List.prefix_rfl⟩
  | cons p ps ih =>
    intro used line hline
    have hp := (h p List.mem_cons_self).continues
    have ih := ih fun q hq => h q (List.mem_cons_of_mem _ hq)
    rw [refold]
    split_ifs with hfits
    · obtain ⟨hfolded, hfirst⟩ := ih used (line ++ p.text)
        ((oneLine_append_iff _ _).mpr ⟨hline, hp.oneLine⟩)
      exact ⟨hfolded, (List.prefix_append _ _).trans hfirst⟩
    · obtain ⟨hfolded, hfirst⟩ := ih 0 p.text hp.oneLine
      refine ⟨⟨hline, List.forall_mem_cons.mpr ⟨⟨?_, hfolded.first⟩, hfolded.rest⟩⟩,
        List.prefix_rfl⟩
      -- the new line begins with the blanks of the piece
      obtain ⟨c, hc, hblank⟩ := hp.blank
      refine ⟨c, ?_, hblank⟩
      obtain ⟨tail, htail⟩ := hfirst
      rw [← htail]
      obtain ⟨rest, hrest⟩ := List.head?_eq_some_iff.mp hc
      rw [hrest]
      rfl

/-- **The words of a text are those of its pieces.** -/
theorem words_flatMap {ps : List Piece} (h : ∀ p ∈ ps, p.Apart) :
    words isBlank (ps.flatMap Piece.text) = pieceWords ps := by
  induction ps with
  | nil => rfl
  | cons p ps ih =>
    have hp := h p List.mem_cons_self
    have hps := fun q hq => h q (List.mem_cons_of_mem p hq)
    rw [List.flatMap_cons, Piece.text, List.append_assoc, words_append_of_forall_sep hp.blanks]
    have hrest : words isBlank (p.2 ++ ps.flatMap Piece.text) =
        words isBlank p.2 ++ words isBlank (ps.flatMap Piece.text) := by
      cases ps with
      | nil => rw [List.flatMap_nil, List.append_nil, words_nil, List.append_nil]
      | cons q qs =>
        have hq := hps q List.mem_cons_self
        rw [List.flatMap_cons, Piece.text, List.append_assoc,
          words_append_append hq.ne_nil hq.blanks, words_append_of_forall_sep hq.blanks]
    rw [hrest, ih hps, pieceWords, pieceWords, List.map_cons, List.filter_cons]
    cases hword : p.2 with
    | nil => rfl
    | cons c w =>
      rw [words_of_word (List.cons_ne_nil c w) fun d hd => hp.word d (hword ▸ hd)]
      rfl

/-! ### The pieces of a text -/

theorem flatMap_piecesFrom (blanks word text : Text) :
    (piecesFrom blanks word text).flatMap Piece.text = blanks ++ word ++ text := by
  induction text generalizing blanks word with
  | nil => simp [piecesFrom, Piece.text]
  | cons c rest ih =>
    rw [piecesFrom]
    split_ifs with hblank hword
    · rw [ih, hword]
      simp
    · rw [List.flatMap_cons, ih, Piece.text]
      simp
    · rw [ih]
      simp

theorem apart_of_mem_piecesFrom {blanks word : Text} (text : Text)
    (h : Piece.Apart (blanks, word)) : ∀ p ∈ piecesFrom blanks word text, p.Apart := by
  induction text generalizing blanks word with
  | nil =>
    intro p hp
    rw [List.mem_singleton.mp hp]
    exact h
  | cons c rest ih =>
    rw [piecesFrom]
    split_ifs with hblank hword
    · subst hword
      refine ih ⟨?_, ?_, h.word⟩
      · exact List.append_ne_nil_of_right_ne_nil _ (List.cons_ne_nil c [])
      · exact List.forall_mem_append.mpr ⟨h.blanks, List.forall_mem_singleton.mpr hblank⟩
    · refine List.forall_mem_cons.mpr ⟨h, ih ⟨List.cons_ne_nil c [], ?_, ?_⟩⟩
      · exact List.forall_mem_singleton.mpr hblank
      · exact fun d hd => (List.not_mem_nil hd).elim
    · have hc' : isBlank c = false := Bool.eq_false_of_not_eq_true hblank
      refine ih ⟨h.ne_nil, h.blanks, ?_⟩
      exact List.forall_mem_append.mpr ⟨h.word, List.forall_mem_singleton.mpr hc'⟩

theorem apart_of_mem_pieces (text : Text) : ∀ p ∈ pieces text, p.Apart := by
  refine apart_of_mem_piecesFrom text ⟨List.cons_ne_nil _ _, by decide, ?_⟩
  exact fun d hd => (List.not_mem_nil hd).elim

/-- **The pieces of a text have its words**, also if there are line breaks among them: a line break
is part of a word here. -/
theorem pieceWords_pieces (text : Text) : pieceWords (pieces text) = words isBlank text := by
  have hspace : isBlank ' ' = true := by decide
  rw [← words_flatMap (apart_of_mem_pieces text), pieces, flatMap_piecesFrom, List.append_nil,
    List.singleton_append, words_cons hspace]

end Lib
