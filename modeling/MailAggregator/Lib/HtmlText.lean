import MailAggregator.Lib.PyText
import Mathlib.Tactic.SplitIfs

set_option relaxedAutoImplicit false
set_option autoImplicit false

/-!
# Rendered HTML and how it is read back

A document is a list of tags and text. It is rendered with double-quoted attribute values, in
which the characters that have a meaning in HTML are written as character references; references
that the document already holds stay as they are. The rendered text is read by the states of an
HTML tokenizer that such a text reaches.

## Main definitions

* `HtmlText.Token`, `HtmlText.render` — documents and their text.
* `HtmlText.readTags` — the start tags of a text, with their attribute values as written.
* `HtmlText.decodeRefs` — a text with its character references replaced.

## Main results

* `HtmlText.readTags_render` — the start tags of a rendered document are its own.
* `HtmlText.decodeRefs_renderPieces` — a rendered value decodes to the characters it stands for.
* `HtmlText.filter_render` — deleting characters from the text of a document, none of which the
  markup uses, deletes them from its values and its text.
-/

namespace HtmlText

open PyText

/-! ## Documents -/

/-- The characters of the name of a character reference. -/
def isRefChar (c : Char) : Bool := c.isAlphanum || c = '#'

/-- The name of a character reference, as it stands between `&` and `;`. -/
structure RefName where
  text : Text
  valid : ∀ c ∈ text, isRefChar c = true
  deriving DecidableEq

/-- A piece of a value: a character, or a character reference. -/
inductive Piece where
  | lit (c : Char)
  | ref (name : RefName)
  deriving DecidableEq

/-- A token of a document. -/
inductive Token where
  | startTag (name : Text) (attrs : List (Text × List Piece))
  | endTag (name : Text)
  | data (pieces : List Piece)
  deriving DecidableEq

/-! ## Rendering -/

/-- The references by which a value writes the characters that would end it. -/
def attrEscapes : List (Char × Text) :=
  [('&', ['a', 'm', 'p']), ('<', ['l', 't']), ('"', ['q', 'u', 'o', 't'])]

/-- The references by which text writes the characters that would end it. -/
def dataEscapes : List (Char × Text) :=
  [('&', ['a', 'm', 'p']), ('<', ['l', 't']), ('>', ['g', 't'])]

/-- The text of a reference. -/
def renderRef (name : Text) : Text := '&' :: name ++ [';']

/-- The text of a character: itself, or a reference to it. -/
def renderChar (escapes : List (Char × Text)) (c : Char) : Text :=
  match escapes.lookup c with
  | some name => renderRef name
  | none => [c]

/-- The text of a piece. -/
def renderPiece (escapes : List (Char × Text)) : Piece → Text
  | .lit c => renderChar escapes c
  | .ref name => renderRef name.text

/-- The text of a value. -/
def renderPieces (escapes : List (Char × Text)) (pieces : List Piece) : Text :=
  pieces.flatMap (renderPiece escapes)

/-- The text of an attribute, with the space before it. -/
def renderAttr (attr : Text × List Piece) : Text :=
  ' ' :: attr.1 ++ '=' :: '"' :: renderPieces attrEscapes attr.2 ++ ['"']

/-- The text of a token. -/
def renderToken : Token → Text
  | .startTag name attrs => '<' :: name ++ attrs.flatMap renderAttr ++ ['>']
  | .endTag name => '<' :: '/' :: name ++ ['>']
  | .data pieces => renderPieces dataEscapes pieces

/-- The text of a document. -/
def render (tokens : List Token) : Text := tokens.flatMap renderToken

/-! ## Reading -/

/-- A start tag as it is read: its name, and its attributes with the values as written. -/
structure StartTag where
  name : Text
  attrs : List (Text × Text)
  deriving DecidableEq, Repr

/-- The states of the tokenizer that a rendered text reaches. Another markup is skipped up to its
`>`. -/
inductive ReadState where
  | data
  | tagOpen
  | skip
  | tagName (name : Text)
  | beforeAttrName (name : Text) (attrs : List (Text × Text))
  | attrName (name : Text) (attrs : List (Text × Text)) (attr : Text)
  | beforeAttrValue (name : Text) (attrs : List (Text × Text)) (attr : Text)
  | attrValue (name : Text) (attrs : List (Text × Text)) (attr value : Text)
  deriving DecidableEq

/-- The state after a character, and the start tag it completes. -/
def readChar : ReadState → Char → ReadState × Option StartTag
  | .data, c => (if c = '<' then .tagOpen else .data, none)
  | .tagOpen, c => (if c.isAlpha then .tagName [c] else .skip, none)
  | .skip, c => (if c = '>' then .data else .skip, none)
  | .tagName name, c =>
    if c = ' ' then (.beforeAttrName name [], none)
    else if c = '>' then (.data, some ⟨name, []⟩)
    else (.tagName (name ++ [c]), none)
  | .beforeAttrName name attrs, c =>
    if c = ' ' then (.beforeAttrName name attrs, none)
    else if c = '>' then (.data, some ⟨name, attrs⟩)
    else (.attrName name attrs [c], none)
  | .attrName name attrs attr, c =>
    if c = '=' then (.beforeAttrValue name attrs attr, none)
    else (.attrName name attrs (attr ++ [c]), none)
  | .beforeAttrValue name attrs attr, c =>
    if c = '"' then (.attrValue name attrs attr [], none) else (.skip, none)
  | .attrValue name attrs attr value, c =>
    if c = '"' then (.beforeAttrName name (attrs ++ [(attr, value)]), none)
    else (.attrValue name attrs attr (value ++ [c]), none)

-- The equations of `readChar` are derived here, and not by every proof that rewrites with them.
example : readChar .data '<' = (.tagOpen, none) := by
  rw [readChar, if_pos rfl]

/-- The start tags that reading a text from a state completes. -/
def readFrom : ReadState → Text → List StartTag
  | _, [] => []
  | s, c :: cs => (readChar s c).2.toList ++ readFrom (readChar s c).1 cs

example (s : ReadState) : readFrom s [] = [] := by
  rw [readFrom]

/-- The start tags of a text. -/
def readTags (text : Text) : List StartTag := readFrom .data text

/-- Replace the references `&name;` that `refs` knows. `pending` is the name read since the last
`&`. -/
def decodeFrom (refs : Text → Option Text) : Option Text → Text → Text
  | none, [] => []
  | some name, [] => '&' :: name
  | none, c :: cs => if c = '&' then decodeFrom refs (some []) cs else c :: decodeFrom refs none cs
  | some name, c :: cs =>
    if c = ';' then (refs name).getD (renderRef name) ++ decodeFrom refs none cs
    else if isRefChar c then decodeFrom refs (some (name ++ [c])) cs
    else if c = '&' then '&' :: name ++ decodeFrom refs (some []) cs
    else '&' :: name ++ c :: decodeFrom refs none cs

/-- A text with the references that `refs` knows replaced. -/
def decodeRefs (refs : Text → Option Text) (text : Text) : Text := decodeFrom refs none text

/-- The characters a piece stands for. -/
def Piece.decode (refs : Text → Option Text) : Piece → Text
  | .lit c => [c]
  | .ref name => (refs name.text).getD (renderRef name.text)

/-- The characters a value stands for. -/
def decodePieces (refs : Text → Option Text) (pieces : List Piece) : Text :=
  pieces.flatMap (Piece.decode refs)

/-! ## Reading a rendered document back -/

/-- A name that the tokenizer reads as one. -/
def ValidName (name : Text) : Prop :=
  name.head?.any Char.isAlpha = true ∧ ∀ c ∈ name, c ≠ ' ' ∧ c ≠ '>' ∧ c ≠ '=' ∧ c ≠ '<'

instance : DecidablePred ValidName := fun _ => inferInstanceAs (Decidable (_ ∧ _))

/-- A valid name has a first character, which is a letter. -/
theorem ValidName.exists_cons {name : Text} (h : ValidName name) :
    ∃ c cs, name = c :: cs ∧ c.isAlpha = true := by
  cases name with
  | nil => exact absurd h.1 (by decide)
  | cons c cs => exact ⟨c, cs, rfl, by simpa using h.1⟩

/-- Every name of the token is valid. -/
def Token.Valid : Token → Prop
  | .startTag name attrs => ValidName name ∧ ∀ a ∈ attrs, ValidName a.1
  | .endTag name => ValidName name
  | .data _ => True

/-- The start tag of a token, as it is read. -/
def Token.startTag? : Token → Option StartTag
  | .startTag name attrs =>
    some ⟨name, attrs.map fun a => (a.1, renderPieces attrEscapes a.2)⟩
  | _ => none

/-- The escapes write a character by a reference with a proper name. -/
def ProperEscapes (escapes : List (Char × Text)) : Prop :=
  ∀ e ∈ escapes, ∀ c ∈ e.2, isRefChar c = true

theorem mem_of_lookup {α β : Type*} [BEq α] [LawfulBEq α] {l : List (α × β)} {a : α} {b : β}
    (h : l.lookup a = some b) : (a, b) ∈ l := by
  induction l with
  | nil => cases h
  | cons e l ih =>
    rw [List.lookup_cons] at h
    split at h
    · next heq =>
      obtain rfl := Option.some.inj h
      rw [beq_iff_eq.mp heq]
      exact List.mem_cons_self
    · exact List.mem_cons_of_mem _ (ih h)

/-- A character that the escapes replace does not occur in a rendered value. -/
theorem not_mem_renderPieces {escapes : List (Char × Text)} (he : ProperEscapes escapes)
    {x : Char} (hx : escapes.lookup x ≠ none) (hamp : x ≠ '&') (hsemi : x ≠ ';')
    (href : isRefChar x = false) (pieces : List Piece) : x ∉ renderPieces escapes pieces := by
  have hrefs : ∀ name : Text, (∀ c ∈ name, isRefChar c = true) → x ∉ renderRef name := by
    intro name hname hmem
    rcases List.mem_append.mp hmem with hmem | hmem
    · rcases List.mem_cons.mp hmem with rfl | hmem
      · exact hamp rfl
      · rw [hname x hmem] at href
        cases href
    · exact hsemi (List.mem_singleton.mp hmem)
  intro hmem
  obtain ⟨piece, _, hmem⟩ := List.mem_flatMap.mp hmem
  cases piece with
  | ref name => exact hrefs _ name.valid hmem
  | lit c =>
    simp only [renderPiece, renderChar] at hmem
    split at hmem
    · next name hl => exact hrefs name (fun c hc => he _ (mem_of_lookup hl) c hc) hmem
    · next hl =>
      rw [List.mem_singleton] at hmem
      exact hx (hmem ▸ hl)

theorem attrEscapes_proper : ProperEscapes attrEscapes := by
  unfold ProperEscapes
  decide

theorem dataEscapes_proper : ProperEscapes dataEscapes := by
  unfold ProperEscapes
  decide

section Read

variable (rest : Text)

theorem readFrom_data {xs : Text} (h : '<' ∉ xs) :
    readFrom .data (xs ++ rest) = readFrom .data rest := by
  induction xs with
  | nil => rfl
  | cons x xs ih =>
    rw [List.mem_cons, not_or] at h
    rw [List.cons_append, readFrom, readChar, if_neg fun hx => h.1 hx.symm]
    exact ih h.2

theorem readFrom_skip {xs : Text} (h : '>' ∉ xs) :
    readFrom .skip (xs ++ '>' :: rest) = readFrom .data rest := by
  induction xs with
  | nil => rfl
  | cons x xs ih =>
    rw [List.mem_cons, not_or] at h
    rw [List.cons_append, readFrom, readChar, if_neg fun hx => h.1 hx.symm]
    exact ih h.2

theorem readFrom_tagName {xs : Text} (h : ∀ c ∈ xs, c ≠ ' ' ∧ c ≠ '>') (name : Text) :
    readFrom (.tagName name) (xs ++ rest) = readFrom (.tagName (name ++ xs)) rest := by
  induction xs generalizing name with
  | nil => rw [List.nil_append, List.append_nil]
  | cons x xs ih =>
    obtain ⟨hsp, hgt⟩ := h x List.mem_cons_self
    rw [List.cons_append, readFrom, readChar, if_neg hsp, if_neg hgt]
    rw [show name ++ x :: xs = (name ++ [x]) ++ xs by simp]
    exact ih (fun c hc => h c (List.mem_cons_of_mem x hc)) (name ++ [x])

variable (name : Text) (attrs : List (Text × Text))

theorem readFrom_attrName {xs : Text} (h : ∀ c ∈ xs, c ≠ '=') (attr : Text) :
    readFrom (.attrName name attrs attr) (xs ++ rest) =
      readFrom (.attrName name attrs (attr ++ xs)) rest := by
  induction xs generalizing attr with
  | nil => rw [List.nil_append, List.append_nil]
  | cons x xs ih =>
    rw [List.cons_append, readFrom, readChar, if_neg (h x List.mem_cons_self)]
    rw [show attr ++ x :: xs = (attr ++ [x]) ++ xs by simp]
    exact ih (fun c hc => h c (List.mem_cons_of_mem x hc)) (attr ++ [x])

theorem readFrom_attrValue {xs : Text} (h : '"' ∉ xs) (attr value : Text) :
    readFrom (.attrValue name attrs attr value) (xs ++ '"' :: rest) =
      readFrom (.beforeAttrName name (attrs ++ [(attr, value ++ xs)])) rest := by
  induction xs generalizing value with
  | nil =>
    rw [List.nil_append, readFrom, readChar, if_pos rfl, List.append_nil]
    rfl
  | cons x xs ih =>
    rw [List.mem_cons, not_or] at h
    rw [List.cons_append, readFrom, readChar, if_neg fun hx => h.1 hx.symm]
    rw [show value ++ x :: xs = (value ++ [x]) ++ xs by simp]
    exact ih h.2 (value ++ [x])

/-- Reading one rendered attribute adds it to the tag. -/
theorem readFrom_renderAttr {attr : Text × List Piece} (h : ValidName attr.1) :
    readFrom (.beforeAttrName name attrs) (renderAttr attr ++ rest) =
      readFrom (.beforeAttrName name
        (attrs ++ [(attr.1, renderPieces attrEscapes attr.2)])) rest := by
  obtain ⟨attr, value⟩ := attr
  obtain ⟨c, cs, rfl, _⟩ := h.exists_cons
  obtain ⟨_, hchars⟩ := h
  obtain ⟨hsp, hgt, _, _⟩ := hchars c List.mem_cons_self
  have hquote : '"' ∉ renderPieces attrEscapes value :=
    not_mem_renderPieces attrEscapes_proper (by decide) (by decide) (by decide) (by decide) value
  have hstart : renderAttr (c :: cs, value) ++ rest =
      ' ' :: c :: (cs ++ '=' :: '"' :: (renderPieces attrEscapes value ++ '"' :: rest)) := by
    simp [renderAttr]
  rw [hstart, readFrom, readChar, if_pos rfl, readFrom, readChar, if_neg hsp, if_neg hgt]
  simp only [Option.toList, List.nil_append]
  rw [readFrom_attrName _ _ _ fun d hd => (hchars d (List.mem_cons_of_mem c hd)).2.2.1]
  rw [readFrom, readChar, if_pos rfl, readFrom, readChar, if_pos rfl]
  simp only [Option.toList, List.nil_append]
  rw [readFrom_attrValue _ _ _ hquote]
  simp

theorem readFrom_renderAttrs {as : List (Text × List Piece)} (h : ∀ a ∈ as, ValidName a.1) :
    readFrom (.beforeAttrName name attrs) (as.flatMap renderAttr ++ '>' :: rest) =
      ⟨name, attrs ++ as.map fun a => (a.1, renderPieces attrEscapes a.2)⟩ ::
        readFrom .data rest := by
  induction as generalizing attrs with
  | nil =>
    simp [readFrom, readChar]
  | cons a as ih =>
    rw [List.flatMap_cons, List.append_assoc,
      readFrom_renderAttr _ _ _ (h a List.mem_cons_self),
      ih _ fun b hb => h b (List.mem_cons_of_mem a hb)]
    simp

/-- Reading one rendered token completes its start tag, if it is one.

**Proof sketch.** By cases on the token. Data has no `<`, because that is written as a reference. An
end tag is skipped up to its `>`. A start tag is read by its name and then attribute by
attribute. -/
theorem readFrom_renderToken {token : Token} (h : token.Valid) :
    readFrom .data (renderToken token ++ rest) =
      token.startTag?.toList ++ readFrom .data rest := by
  cases token with
  | data pieces =>
    exact readFrom_data _
      (not_mem_renderPieces dataEscapes_proper (by decide) (by decide) (by decide) (by decide) _)
  | endTag name =>
    obtain ⟨_, hchars⟩ := h
    have hskip : '>' ∉ name := fun hmem => (hchars _ hmem).2.1 rfl
    simp only [renderToken, List.cons_append, List.append_assoc, List.nil_append]
    rw [readFrom, readChar, if_pos rfl, readFrom, readChar, if_neg (by decide)]
    exact readFrom_skip _ hskip
  | startTag name as =>
    obtain ⟨hname, has⟩ := h
    obtain ⟨c, cs, rfl, halpha⟩ := hname.exists_cons
    obtain ⟨_, hchars⟩ := hname
    have hname : ∀ d ∈ cs, d ≠ ' ' ∧ d ≠ '>' := fun d hd =>
      ⟨(hchars d (List.mem_cons_of_mem c hd)).1, (hchars d (List.mem_cons_of_mem c hd)).2.1⟩
    simp only [renderToken, List.cons_append, List.append_assoc, List.nil_append]
    rw [readFrom, readChar, if_pos rfl, readFrom, readChar, if_pos halpha]
    simp only [Option.toList, List.nil_append]
    rw [readFrom_tagName _ hname]
    -- after the name the tag ends, or its first attribute starts with a space
    have hattrs := readFrom_renderAttrs rest ([c] ++ cs) [] has
    cases as with
    | nil => exact hattrs
    | cons a as =>
      rw [List.nil_append] at hattrs
      refine Eq.trans ?_ hattrs
      rfl

end Read

/-- **The start tags of a rendered document are its own.** -/
theorem readTags_render {tokens : List Token} (h : ∀ t ∈ tokens, t.Valid) :
    readTags (render tokens) = tokens.filterMap Token.startTag? := by
  induction tokens with
  | nil => rfl
  | cons t tokens ih =>
    rw [readTags, render, List.flatMap_cons,
      readFrom_renderToken _ (h t List.mem_cons_self), ← render, ← readTags,
      ih fun u hu => h u (List.mem_cons_of_mem t hu), List.filterMap_cons]
    cases t.startTag? <;> rfl

/-! ## Decoding a rendered value -/

/-- The references of the escapes are known, and `&` is escaped. -/
structure Knows (refs : Text → Option Text) (escapes : List (Char × Text)) : Prop where
  proper : ProperEscapes escapes
  amp : escapes.lookup '&' ≠ none
  refs_eq : ∀ e ∈ escapes, refs e.2 = some [e.1]

section Decode

variable {refs : Text → Option Text} {escapes : List (Char × Text)}

theorem decodeFrom_pending {name : Text} (h : ∀ c ∈ name, isRefChar c = true) (acc rest : Text) :
    decodeFrom refs (some acc) (name ++ ';' :: rest) =
      (refs (acc ++ name)).getD (renderRef (acc ++ name)) ++ decodeFrom refs none rest := by
  induction name generalizing acc with
  | nil => rw [List.nil_append, decodeFrom, if_pos rfl, List.append_nil]
  | cons c name ih =>
    have hc : isRefChar c = true := h c List.mem_cons_self
    have hsemi : c ≠ ';' := fun hcs => by
      rw [hcs] at hc
      exact absurd hc (by decide)
    rw [List.cons_append, decodeFrom, if_neg hsemi, if_pos hc,
      ih (fun d hd => h d (List.mem_cons_of_mem c hd)), List.append_assoc, List.singleton_append]

theorem decodeFrom_renderRef {name : Text} (h : ∀ c ∈ name, isRefChar c = true) (rest : Text) :
    decodeFrom refs none (renderRef name ++ rest) =
      (refs name).getD (renderRef name) ++ decodeFrom refs none rest := by
  have hstart : renderRef name ++ rest = '&' :: (name ++ ';' :: rest) := by simp [renderRef]
  rw [hstart, decodeFrom, if_pos rfl, decodeFrom_pending h]
  rfl

theorem decodeFrom_renderPiece (hk : Knows refs escapes) (piece : Piece) (rest : Text) :
    decodeFrom refs none (renderPiece escapes piece ++ rest) =
      piece.decode refs ++ decodeFrom refs none rest := by
  cases piece with
  | ref name => exact decodeFrom_renderRef name.valid rest
  | lit c =>
    simp only [renderPiece, renderChar]
    cases hl : escapes.lookup c with
    | none =>
      have hne : c ≠ '&' := fun hc => hk.amp (hc ▸ hl)
      rw [List.singleton_append, decodeFrom, if_neg hne]
      rfl
    | some name =>
      have hmem := mem_of_lookup hl
      simp only
      rw [decodeFrom_renderRef (hk.proper _ hmem), hk.refs_eq _ hmem]
      rfl

/-- **A rendered value decodes to the characters it stands for.** -/
theorem decodeRefs_renderPieces (hk : Knows refs escapes) (pieces : List Piece) :
    decodeRefs refs (renderPieces escapes pieces) = decodePieces refs pieces := by
  induction pieces with
  | nil => rfl
  | cons piece pieces ih =>
    rw [decodeRefs, renderPieces, List.flatMap_cons, decodeFrom_renderPiece hk, ← renderPieces,
      ← decodeRefs, ih]
    rfl

end Decode

/-! ## Deleting characters -/

/-- The characters that markup is written with. -/
def isMarkup (c : Char) : Bool :=
  isRefChar c || c ∈ ['<', '>', '/', ' ', '=', '"', '&', ';']

/-- The pieces without the characters that `keep` drops. -/
def filterPieces (keep : Char → Bool) (pieces : List Piece) : List Piece :=
  pieces.filter fun
    | .lit c => keep c
    | .ref _ => true

/-- The token without the characters of its values and its text that `keep` drops. -/
def Token.filter (keep : Char → Bool) : Token → Token
  | .startTag name attrs => .startTag name (attrs.map fun a => (a.1, filterPieces keep a.2))
  | .endTag name => .endTag name
  | .data pieces => .data (filterPieces keep pieces)

section Filter

variable {keep : Char → Bool} {escapes : List (Char × Text)}

theorem filter_eq_self_of_markup (hk : ∀ c, isMarkup c = true → keep c = true) {text : Text}
    (h : ∀ c ∈ text, isMarkup c = true) : text.filter keep = text :=
  List.filter_eq_self.mpr fun c hc => hk c (h c hc)

theorem isMarkup_of_isRefChar {c : Char} (h : isRefChar c = true) : isMarkup c = true := by
  simp [isMarkup, h]

theorem renderRef_markup {name : Text} (h : ∀ c ∈ name, isRefChar c = true) :
    ∀ c ∈ renderRef name, isMarkup c = true := by
  intro c hc
  rcases List.mem_append.mp hc with hc | hc
  · rcases List.mem_cons.mp hc with rfl | hc
    · decide
    · exact isMarkup_of_isRefChar (h c hc)
  · obtain rfl := List.mem_singleton.mp hc
    decide

theorem filterPieces_cons_ref (name : RefName) (pieces : List Piece) :
    filterPieces keep (.ref name :: pieces) = .ref name :: filterPieces keep pieces := rfl

theorem filterPieces_cons_lit (c : Char) (pieces : List Piece) :
    filterPieces keep (.lit c :: pieces) =
      if keep c then .lit c :: filterPieces keep pieces else filterPieces keep pieces := by
  rw [filterPieces, List.filter_cons]
  rfl

theorem renderPieces_cons (piece : Piece) (pieces : List Piece) :
    renderPieces escapes (piece :: pieces) =
      renderPiece escapes piece ++ renderPieces escapes pieces := rfl

/-- Deleting characters that are no markup from a rendered value deletes them from the value.

**Proof sketch.** Induction over the pieces. A reference is markup and is kept as a whole. A
character that is escaped is kept with its reference, because it is markup itself; any other one is
written as it is, and is kept or deleted as a character of the value is. -/
theorem filter_renderPieces (hk : ∀ c, isMarkup c = true → keep c = true)
    (he : ProperEscapes escapes) (hm : ∀ e ∈ escapes, isMarkup e.1 = true)
    (pieces : List Piece) :
    (renderPieces escapes pieces).filter keep =
      renderPieces escapes (filterPieces keep pieces) := by
  induction pieces with
  | nil => rfl
  | cons piece pieces ih =>
    rw [renderPieces_cons, List.filter_append, ih]
    cases piece with
    | ref name =>
      rw [filterPieces_cons_ref, renderPieces_cons, renderPiece,
        filter_eq_self_of_markup hk (renderRef_markup name.valid)]
    | lit c =>
      rw [filterPieces_cons_lit, renderPiece]
      cases hl : escapes.lookup c with
      | some name =>
        -- an escaped character is markup, and is kept
        have hmem := mem_of_lookup hl
        have htext : renderChar escapes c = renderRef name := by rw [renderChar, hl]
        rw [if_pos (hk c (hm _ hmem)), renderPieces_cons, renderPiece, htext,
          filter_eq_self_of_markup hk (renderRef_markup (he _ hmem))]
      | none =>
        have htext : renderChar escapes c = [c] := by rw [renderChar, hl]
        rw [htext]
        split_ifs with hc
        · rw [renderPieces_cons, renderPiece, htext, List.filter_cons_of_pos hc]
          rfl
        · rw [List.filter_cons_of_neg hc]
          rfl

/-- Every name of the token is kept. -/
def Token.NamesKept (keep : Char → Bool) : Token → Prop
  | .startTag name attrs =>
    (∀ c ∈ name, keep c = true) ∧ ∀ a ∈ attrs, ∀ c ∈ a.1, keep c = true
  | .endTag name => ∀ c ∈ name, keep c = true
  | .data _ => True

theorem filter_renderAttr (hk : ∀ c, isMarkup c = true → keep c = true)
    {attr : Text × List Piece} (h : ∀ c ∈ attr.1, keep c = true) :
    (renderAttr attr).filter keep = renderAttr (attr.1, filterPieces keep attr.2) := by
  have hpieces := filter_renderPieces hk attrEscapes_proper (by decide) attr.2
  have hq : keep '"' = true := hk _ (by decide)
  simp [renderAttr, hpieces, hq, hk '=' (by decide), hk ' ' (by decide),
    List.filter_eq_self.mpr h]

theorem filter_renderToken (hk : ∀ c, isMarkup c = true → keep c = true) {token : Token}
    (h : token.NamesKept keep) :
    (renderToken token).filter keep = renderToken (token.filter keep) := by
  have hlt : keep '<' = true := hk _ (by decide)
  have hgt : keep '>' = true := hk _ (by decide)
  cases token with
  | data pieces => exact filter_renderPieces hk dataEscapes_proper (by decide) pieces
  | endTag name =>
    simp [renderToken, Token.filter, hlt, hgt, hk '/' (by decide), List.filter_eq_self.mpr h]
  | startTag name attrs =>
    have hattrs : (attrs.flatMap renderAttr).filter keep =
        (attrs.map fun a => (a.1, filterPieces keep a.2)).flatMap renderAttr := by
      obtain ⟨_, has⟩ := h
      induction attrs with
      | nil => rfl
      | cons a attrs ih =>
        rw [List.flatMap_cons, List.filter_append, List.map_cons, List.flatMap_cons,
          filter_renderAttr hk (has a List.mem_cons_self),
          ih fun b hb => has b (List.mem_cons_of_mem a hb)]
    simp [renderToken, Token.filter, hlt, hgt, hattrs, List.filter_eq_self.mpr h.1]

/-- **Deleting characters that markup does not use** from a rendered document deletes them from
its values and its text. -/
theorem filter_render (hk : ∀ c, isMarkup c = true → keep c = true) {tokens : List Token}
    (h : ∀ t ∈ tokens, t.NamesKept keep) :
    (render tokens).filter keep = render (tokens.map (Token.filter keep)) := by
  induction tokens with
  | nil => rfl
  | cons t tokens ih =>
    rw [render, List.flatMap_cons, List.filter_append, ← render,
      filter_renderToken hk (h t List.mem_cons_self),
      ih fun u hu => h u (List.mem_cons_of_mem t hu)]
    rfl

end Filter

end HtmlText
