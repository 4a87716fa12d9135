import MailAggregator.Lib.HtmlText
import MailAggregator.Lib.Utf8

set_option relaxedAutoImplicit false
set_option autoImplicit false

/-!
# Rendered HTML that is cut

The text of a document is a list of parts: its tags, its character references, and the characters
of its text. A text that is cut at a number of bytes ends inside a tag or a reference exactly if
these bytes end inside such a part.

## Main definitions

* `HtmlText.stateAfter` — the state of the reader at the end of a text.
* `HtmlText.EndsOutside` — a text does not end inside a tag, a value or a reference.
* `HtmlText.parts` — the parts of a document.
* `HtmlText.Splits` — a number of bytes ends inside a tag or a reference.

## Main results

* `HtmlText.Inside` — the reader goes through a text without leaving the tag, composed part by
  part.
* `HtmlText.endsOutside_fit_render` — where a rendered text that is cut ends.
-/

namespace HtmlText

open PyText Utf8

/-! ## The end of a text -/

/-- The state of the reader after a text. -/
def stateAfter : ReadState → Text → ReadState
  | s, [] => s
  | s, c :: cs => stateAfter (readChar s c).1 cs

/-- A text ends inside a character reference: its last characters are an ampersand and the
characters of a name. -/
def EndsInReference (text : Text) : Prop := (text.rdropWhile isRefChar).getLast? = some '&'

/-- A text ends outside of tags, with their attribute values, and outside of references. -/
def EndsOutside (text : Text) : Prop := stateAfter .data text = .data ∧ ¬ EndsInReference text

instance : DecidablePred EndsInReference := fun _ => inferInstanceAs (Decidable (_ = _))

instance : DecidablePred EndsOutside := fun _ => inferInstanceAs (Decidable (_ ∧ _))

theorem stateAfter_append (s : ReadState) (xs ys : Text) :
    stateAfter s (xs ++ ys) = stateAfter (stateAfter s xs) ys := by
  induction xs generalizing s with
  | nil => rfl
  | cons x xs ih => exact ih (readChar s x).1

/-- Text is read outside of tags. -/
theorem stateAfter_data {xs : Text} (h : '<' ∉ xs) : stateAfter .data xs = .data := by
  induction xs with
  | nil => rfl
  | cons x xs ih =>
    rw [List.mem_cons, not_or] at h
    rw [stateAfter, readChar, if_neg fun hx => h.1 hx.symm]
    exact ih h.2

theorem endsInReference_append_name {name : Text} (h : ∀ c ∈ name, isRefChar c = true)
    (before : Text) : EndsInReference (before ++ name) ↔ EndsInReference before := by
  induction name using List.reverseRecOn with
  | nil => rw [List.append_nil]
  | append_singleton name c ih =>
    rw [EndsInReference, ← List.append_assoc, List.rdropWhile_concat_pos _ _ _ (h c (by simp))]
    exact ih fun d hd => h d (List.mem_append_left _ hd)

theorem endsInReference_append_other {c : Char} (h : isRefChar c = false) (before : Text) :
    EndsInReference (before ++ [c]) ↔ c = '&' := by
  rw [EndsInReference, List.rdropWhile_concat_neg _ _ _ (by simp [h]), List.getLast?_concat,
    Option.some.injEq]

/-! ## Inside a tag -/

/-- The reader goes from one state to another without leaving the tag. -/
inductive Inside : ReadState → Text → ReadState → Prop
  | nil {s : ReadState} (h : s ≠ .data) : Inside s [] s
  | cons {s s' : ReadState} {c : Char} {cs : Text} (h : s ≠ .data)
      (rest : Inside (readChar s c).1 cs s') : Inside s (c :: cs) s'

namespace Inside

variable {s s' s'' : ReadState} {xs ys p : Text}

theorem append (h : Inside s xs s') (h' : Inside s' ys s'') : Inside s (xs ++ ys) s'' := by
  induction h with
  | nil _ => exact h'
  | cons hs _ ih => exact cons hs (ih h')

theorem stateAfter_eq (h : Inside s xs s') : stateAfter s xs = s' := by
  induction h with
  | nil _ => rfl
  | cons _ _ ih => exact ih

/-- No start of the text leaves the tag. -/
theorem stateAfter_ne (h : Inside s xs s') (hp : p <+: xs) : stateAfter s p ≠ .data := by
  induction h generalizing p with
  | nil hs =>
    rw [List.prefix_nil.mp hp]
    exact hs
  | cons hs _ ih =>
    cases p with
    | nil => exact hs
    | cons d p =>
      obtain ⟨rfl, hrest⟩ := List.cons_prefix_cons.mp hp
      exact ih hrest

end Inside

section Tags

variable (name : Text) (attrs : List (Text × Text))

/-- Reading characters that a state collects stays inside the tag. -/
theorem inside_collect {f : Text → ReadState} (hne : ∀ v, f v ≠ .data) {xs : Text}
    (hstep : ∀ v, ∀ c ∈ xs, (readChar (f v) c).1 = f (v ++ [c])) (v : Text) :
    Inside (f v) xs (f (v ++ xs)) := by
  induction xs generalizing v with
  | nil =>
    rw [List.append_nil]
    exact .nil (hne v)
  | cons x xs ih =>
    refine .cons (hne v) ?_
    rw [hstep v x List.mem_cons_self, List.append_cons v x xs]
    exact ih (fun v c hc => hstep v c (List.mem_cons_of_mem x hc)) (v ++ [x])

theorem inside_tagName {xs : Text} (h : ∀ c ∈ xs, c ≠ ' ' ∧ c ≠ '>') :
    Inside (.tagName name) xs (.tagName (name ++ xs)) := by
  refine inside_collect (f := .tagName) (by simp) (fun v c hc => ?_) name
  rw [readChar, if_neg (h c hc).1, if_neg (h c hc).2]

theorem inside_skip {xs : Text} (h : '>' ∉ xs) : Inside .skip xs .skip := by
  refine inside_collect (f := fun _ => .skip) (by simp) (fun v c hc => ?_) []
  have hgt : c ≠ '>' := fun heq => h (heq ▸ hc)
  rw [readChar, if_neg hgt]

theorem inside_attrName {xs : Text} (h : ∀ c ∈ xs, c ≠ '=') (attr : Text) :
    Inside (.attrName name attrs attr) xs (.attrName name attrs (attr ++ xs)) := by
  refine inside_collect (f := .attrName name attrs) (by simp) (fun v c hc => ?_) attr
  rw [readChar, if_neg (h c hc)]

theorem inside_attrValue {xs : Text} (h : '"' ∉ xs) (attr value : Text) :
    Inside (.attrValue name attrs attr value) xs (.attrValue name attrs attr (value ++ xs)) := by
  refine inside_collect (f := .attrValue name attrs attr) (by simp) (fun v c hc => ?_) value
  have hquote : c ≠ '"' := fun heq => h (heq ▸ hc)
  rw [readChar, if_neg hquote]

/-- An attribute is read inside the tag, up to the quote after its value. -/
theorem inside_renderAttr {attr : Text × List Piece} (h : ValidName attr.1) :
    Inside (.beforeAttrName name attrs) (renderAttr attr)
      (.beforeAttrName name (attrs ++ [(attr.1, renderPieces attrEscapes attr.2)])) := by
  obtain ⟨attr, value⟩ := attr
  obtain ⟨c, cs, rfl, _⟩ := h.exists_cons
  obtain ⟨_, hchars⟩ := h
  obtain ⟨hsp, hgt, _, _⟩ := hchars c List.mem_cons_self
  have hname : ∀ d ∈ cs, d ≠ '=' := fun d hd => (hchars d (List.mem_cons_of_mem c hd)).2.2.1
  have hquote : '"' ∉ renderPieces attrEscapes value :=
    not_mem_renderPieces attrEscapes_proper (by decide) (by decide) (by decide) (by decide) value
  have hsplit : renderAttr (c :: cs, value) =
      [' ', c] ++ (cs ++ (['=', '"'] ++ (renderPieces attrEscapes value ++ ['"']))) := by
    simp [renderAttr]
  rw [hsplit]
  have hfirst : Inside (.beforeAttrName name attrs) [' ', c] (.attrName name attrs [c]) := by
    refine .cons (by simp) (.cons (by simp [readChar]) ?_)
    simp only [readChar, if_pos, if_neg hsp, if_neg hgt]
    exact .nil (by simp)
  have hopen : Inside (.attrName name attrs (c :: cs)) ['=', '"']
      (.attrValue name attrs (c :: cs) []) :=
    .cons (by simp) (.cons (by simp [readChar]) (.nil (by simp [readChar])))
  refine hfirst.append (.append (inside_attrName name attrs hname [c]) (hopen.append ?_))
  refine .append (inside_attrValue name attrs hquote (c :: cs) []) ?_
  exact .cons (by simp) (.nil (by simp [readChar]))

theorem inside_renderAttrs {as : List (Text × List Piece)} (h : ∀ a ∈ as, ValidName a.1) :
    Inside (.beforeAttrName name attrs) (as.flatMap renderAttr) (.beforeAttrName name
      (attrs ++ as.map fun a => (a.1, renderPieces attrEscapes a.2))) := by
  induction as generalizing attrs with
  | nil =>
    rw [List.map_nil, List.append_nil]
    exact .nil (by simp)
  | cons a as ih =>
    rw [List.flatMap_cons, List.map_cons, List.append_cons]
    exact (inside_renderAttr name attrs (h a List.mem_cons_self)).append
      (ih _ fun b hb => h b (List.mem_cons_of_mem a hb))

end Tags

/-- The reader stays inside a tag up to its last character, which ends it. -/
structure IsTag (part : Text) : Prop where
  cut : ∀ p, p <+: part → p ≠ [] → p ≠ part → stateAfter .data p ≠ .data
  whole : stateAfter .data part = .data

/-- A text that is read inside a tag from `<` on, and then ended by `>`, is a tag. -/
theorem isTag_of_inside {s : ReadState} {xs : Text} (h : Inside .tagOpen xs s)
    (hend : (readChar s '>').1 = .data) : IsTag ('<' :: (xs ++ ['>'])) where
  cut p hp hne hpart := by
    cases p with
    | nil => exact absurd rfl hne
    | cons c p =>
      obtain ⟨rfl, hrest⟩ := List.cons_prefix_cons.mp hp
      rcases List.prefix_concat_iff.mp hrest with rfl | hrest
      · exact absurd rfl hpart
      · exact h.stateAfter_ne hrest
  whole := by
    rw [stateAfter, readChar, if_pos rfl, stateAfter_append, h.stateAfter_eq]
    exact hend

theorem isTag_endTag {name : Text} (h : ValidName name) : IsTag (renderToken (.endTag name)) := by
  have hskip : '>' ∉ name := fun hmem => (h.2 _ hmem).2.1 rfl
  have hinside : Inside .tagOpen ('/' :: name) .skip := .cons (by simp) (inside_skip hskip)
  exact isTag_of_inside hinside rfl

theorem isTag_startTag {name : Text} {attrs : List (Text × List Piece)} (h : ValidName name)
    (hattrs : ∀ a ∈ attrs, ValidName a.1) : IsTag (renderToken (.startTag name attrs)) := by
  obtain ⟨c, cs, rfl, halpha⟩ := h.exists_cons
  have hname : ∀ d ∈ cs, d ≠ ' ' ∧ d ≠ '>' := fun d hd =>
    ⟨(h.2 d (List.mem_cons_of_mem c hd)).1, (h.2 d (List.mem_cons_of_mem c hd)).2.1⟩
  have hstart : Inside .tagOpen (c :: cs) (.tagName (c :: cs)) := by
    refine .cons (by simp) ?_
    rw [readChar, if_pos halpha]
    exact inside_tagName [c] hname
  cases attrs with
  | nil =>
    have htag := isTag_of_inside hstart (by simp [readChar])
    rwa [renderToken, List.flatMap_nil, List.append_nil]
  | cons a as =>
    -- the space before the first attribute leaves the name
    have hall := inside_renderAttrs (c :: cs) [] hattrs
    have hspace : Inside (.tagName (c :: cs)) ((a :: as).flatMap renderAttr)
        (.beforeAttrName (c :: cs)
          ([] ++ (a :: as).map fun a => (a.1, renderPieces attrEscapes a.2))) := by
      cases hall with
      | cons _ hrest => exact .cons (by simp) hrest
    have htag := isTag_of_inside (hstart.append hspace) (by simp [readChar])
    rwa [renderToken]

/-! ## The parts of a document -/

/-- The parts of a token: a tag is one part, text has its references and its characters. -/
def Token.parts : Token → List Text
  | .startTag name attrs => [renderToken (.startTag name attrs)]
  | .endTag name => [renderToken (.endTag name)]
  | .data pieces => pieces.map (renderPiece dataEscapes)

/-- The parts of a document. -/
def parts (tokens : List Token) : List Text := tokens.flatMap Token.parts

/-- A part that is a tag or a reference. -/
def IsMarkupPart (part : Text) : Prop := part.head? = some '<' ∨ part.head? = some '&'

instance : DecidablePred IsMarkupPart := fun _ => inferInstanceAs (Decidable (_ ∨ _))

/-- So many bytes of a document end inside a tag or a reference, which begins before and ends
after them. -/
def Splits (n : ℕ) (ps : List Text) : Prop :=
  ∃ before part after, ps = before ++ part :: after ∧ IsMarkupPart part ∧
    (encode before.flatten).length < n ∧ n < (encode (before.flatten ++ part)).length

theorem Token.flatten_parts (token : Token) : token.parts.flatten = renderToken token := by
  cases token with
  | startTag name attrs => exact List.append_nil _
  | endTag name => exact List.append_nil _
  | data pieces => exact List.flatMap_def.symm

theorem flatten_parts (tokens : List Token) : (parts tokens).flatten = render tokens := by
  induction tokens with
  | nil => rfl
  | cons token tokens ih =>
    rw [parts, List.flatMap_cons, List.flatten_append, token.flatten_parts, ← parts, ih]
    rfl

/-- A part as it is read: a character of text, a reference, or a tag. -/
inductive Part : Text → Prop
  | char {c : Char} (hlt : c ≠ '<') (hamp : c ≠ '&') : Part [c]
  | ref {name : Text} (h : ∀ c ∈ name, isRefChar c = true) : Part (renderRef name)
  | tag {xs : Text} (h : IsTag ('<' :: (xs ++ ['>']))) : Part ('<' :: (xs ++ ['>']))

/-- The parts of a valid document are of the three kinds.

**Proof sketch.** By cases on the token. A tag is one part. The data of a token is cut into its
characters and references, and an escaped character is a reference. -/
theorem part_of_mem {tokens : List Token} (h : ∀ t ∈ tokens, t.Valid) {part : Text}
    (hmem : part ∈ parts tokens) : Part part := by
  obtain ⟨token, htoken, hmem⟩ := List.mem_flatMap.mp hmem
  have hvalid := h token htoken
  cases token with
  | startTag name attrs =>
    rw [List.mem_singleton.mp hmem]
    exact .tag (isTag_startTag hvalid.1 hvalid.2)
  | endTag name =>
    rw [List.mem_singleton.mp hmem]
    exact .tag (isTag_endTag hvalid)
  | data pieces =>
    obtain ⟨piece, -, rfl⟩ := List.mem_map.mp hmem
    cases piece with
    | ref name => exact .ref name.valid
    | lit c =>
      simp only [renderPiece, renderChar]
      cases hl : dataEscapes.lookup c with
      | some name => exact .ref fun d hd => dataEscapes_proper _ (mem_of_lookup hl) d hd
      | none =>
        refine .char ?_ ?_
        · rintro rfl
          exact absurd hl (by decide)
        · rintro rfl
          exact absurd hl (by decide)

namespace Part

variable {part before : Text}

theorem isMarkupPart_or (h : Part part) : IsMarkupPart part ∨ ∃ c, part = [c] := by
  cases h with
  | char _ _ => exact Or.inr ⟨_, rfl⟩
  | ref _ => exact Or.inl (Or.inr rfl)
  | tag _ => exact Or.inl (Or.inl rfl)

/-- A whole part leaves the reader outside.

**Proof sketch.** By cases on the part. A plain character leaves the reader in the data, and goes on
with a reference only if none was begun. A reference and a tag each bring the reader back to where
it was. -/
theorem endsOutside_append (h : Part part) (hbefore : EndsOutside before) :
    EndsOutside (before ++ part) := by
  obtain ⟨hstate, href⟩ := hbefore
  unfold EndsOutside
  rw [stateAfter_append, hstate]
  cases h with
  | char hlt hamp =>
    rename_i c
    refine ⟨by simp [stateAfter, readChar, hlt], ?_⟩
    cases hc : isRefChar c with
    | true =>
      rwa [endsInReference_append_name fun d hd => List.mem_singleton.mp hd ▸ hc]
    | false =>
      rw [endsInReference_append_other hc]
      exact hamp
  | ref hname =>
    refine ⟨stateAfter_data fun hmem => ?_, ?_⟩
    · rcases List.mem_append.mp hmem with hmem | hmem
      · rcases List.mem_cons.mp hmem with hmem | hmem
        · cases hmem
        · exact absurd (hname _ hmem) (by decide)
      · exact absurd (List.mem_singleton.mp hmem) (by decide)
    · rw [renderRef, ← List.append_assoc, endsInReference_append_other (by decide)]
      decide
  | tag htag =>
    refine ⟨htag.whole, ?_⟩
    rw [← List.cons_append, ← List.append_assoc, endsInReference_append_other (by decide)]
    decide

/-- A part that is markup and is cut leaves the reader inside. -/
theorem not_endsOutside_cut (h : Part part) (hmarkup : IsMarkupPart part)
    (hbefore : stateAfter .data before = .data) {p : Text} (hp : p <+: part) (hne : p ≠ [])
    (hpart : p ≠ part) : ¬ EndsOutside (before ++ p) := by
  rintro ⟨hstate, href⟩
  cases h with
  | char hlt hamp =>
    rcases hmarkup with hhead | hhead
    · exact hlt (Option.some.inj hhead)
    · exact hamp (Option.some.inj hhead)
  | ref hname =>
    cases p with
    | nil => exact hne rfl
    | cons c p =>
      obtain ⟨rfl, hrest⟩ := List.cons_prefix_cons.mp hp
      rcases List.prefix_concat_iff.mp hrest with rfl | hrest
      · exact hpart rfl
      · rw [List.append_cons, endsInReference_append_name fun d hd => hname d (hrest.subset hd),
          endsInReference_append_other (by decide)] at href
        exact href rfl
  | tag htag =>
    rw [stateAfter_append, hbefore] at hstate
    exact htag.cut p hp hne hpart hstate

end Part

/-! ## Cutting a document -/

section Splits

variable {n : ℕ} {part : Text} {ps : List Text}

/-- The first part is split, or it fits and the other parts are split at the bytes that are left. -/
theorem splits_cons : Splits n (part :: ps) ↔
    (IsMarkupPart part ∧ 0 < n ∧ n < (encode part).length) ∨
      ((encode part).length ≤ n ∧ Splits (n - (encode part).length) ps) := by
  constructor
  · rintro ⟨before, split, after, hps, hmarkup, hlo, hhi⟩
    cases before with
    | nil =>
      obtain ⟨rfl, -⟩ := List.cons_eq_cons.mp hps
      exact Or.inl ⟨hmarkup, hlo, hhi⟩
    | cons first before =>
      obtain ⟨rfl, rfl⟩ := List.cons_eq_cons.mp hps
      simp only [List.flatten_cons, List.append_assoc, encode_append, List.length_append] at hlo hhi
      refine Or.inr ⟨by omega, before, split, after, rfl, hmarkup, by omega, ?_⟩
      rw [encode_append, List.length_append]
      omega
  · rintro (⟨hmarkup, hlo, hhi⟩ | ⟨hfits, before, split, after, rfl, hmarkup, hlo, hhi⟩)
    · exact ⟨[], part, ps, rfl, hmarkup, hlo, hhi⟩
    · refine ⟨part :: before, split, after, rfl, hmarkup, ?_, ?_⟩
      · rw [List.flatten_cons, encode_append, List.length_append]
        omega
      · rw [encode_append, List.length_append] at hhi
        simp only [List.flatten_cons, List.append_assoc, encode_append, List.length_append]
        omega

theorem not_splits_nil : ¬ Splits n [] := by
  rintro ⟨before, split, after, hps, -⟩
  exact absurd hps.symm (by simp)

/-- Markup begins with a character of one byte. -/
theorem fit_ne_nil_of_isMarkupPart (h : IsMarkupPart part) (hn : 0 < n) : fit n part ≠ [] := by
  have hbyte : ∀ {c : Char}, c = '<' ∨ c = '&' → (encodeChar c).length ≤ n := by
    rintro c (rfl | rfl)
    · exact hn
    · exact hn
  cases part with
  | nil => rcases h with h | h <;> cases h
  | cons c cs =>
    rw [fit, if_pos (hbyte (h.imp Option.some.inj Option.some.inj))]
    exact List.cons_ne_nil _ _

/-- **Where a cut text ends.** After a text that ends outside, the parts that fit leave the reader
outside, unless the last bytes are those of a tag or a reference that does not fit.

**Proof sketch.** Induction on the parts. A part that fits goes to the text before. The first part
that does not fit is a character, which is dropped, or it is split; what is kept of it is empty only
if no bytes are left. -/
theorem endsOutside_append_fit (hps : ∀ part ∈ ps, Part part) {before : Text}
    (hbefore : EndsOutside before) :
    EndsOutside (before ++ fit n ps.flatten) ↔ ¬ Splits n ps := by
  induction ps generalizing before n with
  | nil =>
    rw [List.flatten_nil, fit_nil, List.append_nil]
    exact iff_of_true hbefore not_splits_nil
  | cons part ps ih =>
    have hpart := hps part List.mem_cons_self
    have hrest : ∀ p ∈ ps, Part p := fun p hp => hps p (List.mem_cons_of_mem part hp)
    rw [List.flatten_cons, splits_cons]
    by_cases hfits : (encode part).length ≤ n
    · have hnotsplit : ¬ (IsMarkupPart part ∧ 0 < n ∧ n < (encode part).length) :=
        fun h => Nat.not_lt.mpr hfits h.2.2
      rw [fit_append_of_le hfits, ← List.append_assoc, ih hrest (hpart.endsOutside_append hbefore)]
      simp only [hnotsplit, hfits, true_and, false_or]
    · have hlt := Nat.lt_of_not_le hfits
      rw [fit_append_of_lt hlt]
      simp only [hfits, false_and, or_false]
      rcases hpart.isMarkupPart_or with hmarkup | ⟨c, rfl⟩
      · simp only [hmarkup, hlt, true_and, and_true, Nat.not_lt, Nat.le_zero]
        by_cases hzero : n = 0
        · rw [hzero, fit_zero, List.append_nil]
          exact iff_of_true hbefore rfl
        · have hne : fit n part ≠ part := fun heq =>
            Nat.ne_of_lt (length_fit_lt hlt) (congrArg List.length heq)
          have hcut := hpart.not_endsOutside_cut hmarkup hbefore.1 (isPrefix_fit n part)
            (fit_ne_nil_of_isMarkupPart hmarkup (Nat.pos_of_ne_zero hzero)) hne
          exact iff_of_false hcut hzero
      · have hdropped : fit n [c] = [] := by
          have hbyte : n < (encodeChar c).length := by simpa [encode] using hlt
          rw [fit, if_neg (Nat.not_le.mpr hbyte)]
        rw [hdropped, List.append_nil]
        refine iff_of_true hbefore ?_
        rintro ⟨hmarkup, hpos, -⟩
        exact fit_ne_nil_of_isMarkupPart hmarkup hpos hdropped

/-- **Where a rendered document that is cut ends**: outside, unless the bytes split a tag or a
reference. -/
theorem endsOutside_fit_render {tokens : List Token} (h : ∀ t ∈ tokens, t.Valid) (n : ℕ) :
    EndsOutside (fit n (render tokens)) ↔ ¬ Splits n (parts tokens) := by
  have houtside : EndsOutside [] := by decide
  rw [← flatten_parts]
  exact endsOutside_append_fit (fun part hpart => part_of_mem h hpart) houtside

end Splits

end HtmlText
