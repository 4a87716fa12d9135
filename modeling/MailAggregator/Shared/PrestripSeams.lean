import MailAggregator.Lib.Places
import MailAggregator.Shared.PrestripPatterns

set_option relaxedAutoImplicit false
set_option autoImplicit false

/-!
# When the pre-strip is idempotent

The three patterns delete one after the other, and each deletion joins the text on its two sides.
A construct that is left after them has been torn apart in the input: something was taken out of
one of its delimiters. The characters of the input are followed through the deletions by their
places.

## Main definitions

* `MailAggregator.HtmlSanitize.kept` — the characters that no pattern takes, with their places.
* `MailAggregator.HtmlSanitize.Torn` — a delimiter is interrupted by what the patterns take.
* `MailAggregator.HtmlSanitize.CutShort` — the start of a delimiter stands directly before a `<`.

## Main results

* `MailAggregator.HtmlSanitize.prestrip_eq_self_iff` — the pre-strip changes nothing exactly if no
  construct begins anywhere.
* `MailAggregator.HtmlSanitize.not_construct_of_unbroken` — no construct with whole delimiters is
  left.
* `MailAggregator.HtmlSanitize.prestrip_prestrip_iff` — the pre-strip is idempotent exactly on the
  inputs that tear no construct apart.
* `MailAggregator.HtmlSanitize.prestrip_prestrip_of_not_cutShort` — it is idempotent on the inputs
  in which no delimiter is cut short by another.
* `MailAggregator.HtmlSanitize.prestrip_not_idempotent` — an input on which it is not.
-/

namespace MailAggregator

open PyText Lib

namespace HtmlSanitize

/-! ## A text that the pre-strip leaves alone -/

variable {isWord : Char → Bool}

/-- The pre-strip as three deletions. -/
theorem prestrip_eq_sub (html : Text) :
    prestripUnsafeBlocks isWord html = sub (taken (matchVoid isWord)) []
      (sub (taken matchComment) [] (sub (taken (matchBlock isWord)) [] html)) := by
  unfold prestripUnsafeBlocks
  split_ifs with hempty
  · rw [hempty]
    rfl
  · rw [subEmpty_eq_sub (shortens_matchBlock isWord), subEmpty_eq_sub shortens_matchComment,
      subEmpty_eq_sub (shortens_matchVoid isWord)]

/-- A deletion that changes nothing has found no match. -/
theorem sub_taken_eq_self_iff {m : Text → Option Text} (h : Shortens m) {text : Text} :
    sub (taken m) [] text = text ↔ ∀ t, t <:+ text → m t = none := by
  rw [sub_nil_eq_self_iff]
  constructor
  · intro hnone t ht
    by_cases hnil : t = []
    · subst hnil
      cases hm : m [] with
      | none => rfl
      | some rest => exact absurd (h [] rest hm) (Nat.not_lt_zero _)
    · exact (taken_eq_zero_iff h).mp (hnone t hnil ht)
  · exact fun hnone t _ ht => (taken_eq_zero_iff h).mpr (hnone t ht)

/-- **The pre-strip changes nothing** exactly if no construct begins anywhere in the text.

**Proof sketch.** Each of the three deletions leaves some of the characters. If all characters are
left at the end, none of the three has deleted any, so none of them has found a match. -/
theorem prestrip_eq_self_iff (text : Text) :
    prestripUnsafeBlocks isWord text = text ↔
      ∀ before opening middle closing after,
        text = before ++ opening ++ middle ++ closing ++ after →
          ¬ Construct isWord opening middle closing := by
  have hthree : prestripUnsafeBlocks isWord text = text ↔
      sub (taken (matchBlock isWord)) [] text = text ∧ sub (taken matchComment) [] text = text ∧
        sub (taken (matchVoid isWord)) [] text = text := by
    rw [prestrip_eq_sub]
    constructor
    · intro heq
      have hblock := sub_nil_sublist (m := taken (matchBlock isWord)) text
      have hcomment := sub_nil_sublist (m := taken matchComment)
        (sub (taken (matchBlock isWord)) [] text)
      have hvoid := sub_nil_sublist (m := taken (matchVoid isWord))
        (sub (taken matchComment) [] (sub (taken (matchBlock isWord)) [] text))
      rw [heq] at hvoid
      have hb := hblock.antisymm (hvoid.trans hcomment)
      rw [hb] at hcomment hvoid heq
      have hc := hcomment.antisymm hvoid
      rw [hc] at heq
      exact ⟨hb, hc, heq⟩
    · rintro ⟨hb, hc, hv⟩
      rw [hb, hc, hv]
  rw [hthree, sub_taken_eq_self_iff (shortens_matchBlock isWord),
    sub_taken_eq_self_iff shortens_matchComment, sub_taken_eq_self_iff (shortens_matchVoid isWord)]
  constructor
  · rintro ⟨hb, hc, hv⟩ before opening middle closing after rfl hconstruct
    have hsuffix : opening ++ middle ++ closing ++ after <:+
        before ++ opening ++ middle ++ closing ++ after := ⟨before, by simp⟩
    have hmatch := exists_match_iff.mpr ⟨opening, middle, closing, after, rfl, hconstruct⟩
    rcases hmatch with hmatch | hmatch | hmatch
    · exact hmatch (hb _ hsuffix)
    · exact hmatch (hc _ hsuffix)
    · exact hmatch (hv _ hsuffix)
  · intro hnone
    have hno : ∀ t, t <:+ text →
        ¬ (matchBlock isWord t ≠ none ∨ matchComment t ≠ none ∨ matchVoid isWord t ≠ none) := by
      rintro t ⟨before, rfl⟩ hmatch
      obtain ⟨opening, middle, closing, after, rfl, hconstruct⟩ := exists_match_iff.mp hmatch
      exact hnone before opening middle closing after (by simp) hconstruct
    refine ⟨fun t ht => ?_, fun t ht => ?_, fun t ht => ?_⟩
    · by_contra hm
      exact hno t ht (Or.inl hm)
    · by_contra hm
      exact hno t ht (Or.inr (Or.inl hm))
    · by_contra hm
      exact hno t ht (Or.inr (Or.inr hm))

/-! ## The characters that are left -/

/-- A character with its place in the input. -/
abbrev PlacedChar := Char × ℕ

/-- The characters that a pattern does not take. -/
def keep (m : Text → Option Text) (l : List PlacedChar) : List PlacedChar :=
  sub (fun t => taken m (items t)) [] l

variable (isWord) in
/-- The characters of the input that the patterns do not take, one pattern after the other, with
their places. -/
def kept (html : Text) : List PlacedChar :=
  keep (matchVoid isWord) (keep matchComment (keep (matchBlock isWord) html.zipIdx))

variable (isWord) in
/-- A construct is torn apart in the input: the characters that no pattern takes have it, and the
places of one of its delimiters are interrupted by what the patterns take. -/
def Torn (html : Text) : Prop :=
  ∃ before opening middle closing after : List PlacedChar,
    kept isWord html = before ++ opening ++ middle ++ closing ++ after ∧
      Construct isWord (items opening) (items middle) (items closing) ∧
        ¬ (Unbroken opening ∧ Unbroken closing)

theorem items_keep (m : Text → Option Text) (l : List PlacedChar) :
    items (keep m l) = sub (taken m) [] (items l) := map_sub Prod.fst l

/-- The characters that are left are the text that the pre-strip returns. -/
theorem items_kept (html : Text) : items (kept isWord html) = prestripUnsafeBlocks isWord html := by
  have hinput : items html.zipIdx = html := List.zipIdx_map_fst 0 html
  rw [kept, items_keep, items_keep, items_keep, hinput, prestrip_eq_sub]

theorem keep_sublist (m : Text → Option Text) (l : List PlacedChar) : (keep m l).Sublist l :=
  sub_nil_sublist l

/-- What the three patterns have in common: a match takes a character at least, and the first one
is `<`. -/
structure TakesMarkup (m : Text → Option Text) : Prop where
  shortens : Shortens m
  head : ∀ text, m text ≠ none → text.head? = some '<'

/-- A construct begins with `<`. -/
theorem head?_of_match {text : Text}
    (h : matchBlock isWord text ≠ none ∨ matchComment text ≠ none ∨ matchVoid isWord text ≠ none) :
    text.head? = some '<' := by
  obtain ⟨opening, middle, closing, after, rfl, hconstruct⟩ := exists_match_iff.mp h
  cases hconstruct with
  | block hopening _ _ _ =>
    obtain ⟨blanks, rfl, -⟩ := hopening
    rfl
  | comment => rfl
  | void hopening _ =>
    obtain ⟨blanks, rfl, -⟩ := hopening
    rfl

variable (isWord) in
theorem takesMarkup_block : TakesMarkup (matchBlock isWord) where
  shortens := shortens_matchBlock isWord
  head _ hm := head?_of_match (Or.inl hm)

variable (isWord) in
theorem takesMarkup_void : TakesMarkup (matchVoid isWord) where
  shortens := shortens_matchVoid isWord
  head _ hm := head?_of_match (Or.inr (Or.inr hm))

theorem takesMarkup_comment : TakesMarkup matchComment where
  shortens := shortens_matchComment
  head text hm := by
    have hmatch : matchBlock (fun _ => true) text ≠ none ∨ matchComment text ≠ none ∨
        matchVoid (fun _ => true) text ≠ none := Or.inr (Or.inl hm)
    exact head?_of_match hmatch

namespace TakesMarkup

variable {m : Text → Option Text} {before run rest l : List PlacedChar} {a : PlacedChar}

/-- A character other than `<` at the start is left. -/
theorem keep_cons (h : TakesMarkup m) (ha : a.1 ≠ '<') : keep m (a :: l) = a :: keep m l := by
  refine sub_of_noMatch ?_
  by_contra hmatch
  have hstart := h.head _ (mt (taken_eq_zero_iff h.shortens).mpr hmatch)
  rw [items_cons, List.head?_cons, Option.some.injEq] at hstart
  exact ha hstart

/-- A word that ends in front of what a pattern leaves ended there before. -/
theorem atBoundary_of_keep (h : TakesMarkup m) (hlt : isWord '<' = false)
    (hb : atBoundary isWord (items (keep m l)) = true) : atBoundary isWord (items l) = true := by
  cases l with
  | nil => rfl
  | cons a l =>
    by_cases ha : a.1 = '<'
    · rw [items_cons, ha, atBoundary, hlt]
      rfl
    · rw [h.keep_cons ha] at hb
      exact hb

/-- A whole delimiter that a pattern leaves stood in the text, and the pattern did not match
there. -/
theorem keep_layer (h : TakesMarkup m) (hl : Ordered l) (hrun : Unbroken run) (hne : run ≠ [])
    (hsplit : keep m l = before ++ run ++ rest) :
    ∃ before₁ rest₁, l = before₁ ++ run ++ rest₁ ∧ rest = keep m rest₁ ∧
      m (items run ++ items rest₁) = none := by
  obtain ⟨before₁, rest₁, hl₁, hrest, hnone⟩ := sub_layer hl hrun hne hsplit
  rw [taken_eq_zero_iff h.shortens, items_append] at hnone
  exact ⟨before₁, rest₁, hl₁, hrest, hnone⟩

end TakesMarkup

/-- **A whole delimiter that is left** stood in the text of each deletion: in front of what was left
of the input behind it, and where the pattern did not match. -/
theorem kept_layers {html : Text} {before run rest : List PlacedChar} (hrun : Unbroken run)
    (hne : run ≠ []) (h : kept isWord html = before ++ run ++ rest) :
    ∃ before₀ rest₀, html.zipIdx = before₀ ++ run ++ rest₀ ∧
      rest = keep (matchVoid isWord) (keep matchComment (keep (matchBlock isWord) rest₀)) ∧
      matchBlock isWord (items run ++ items rest₀) = none ∧
      matchComment (items run ++ items (keep (matchBlock isWord) rest₀)) = none ∧
      matchVoid isWord
        (items run ++ items (keep matchComment (keep (matchBlock isWord) rest₀))) = none := by
  have hl₀ : Ordered html.zipIdx := ordered_zipIdx html 0
  have hl₁ := hl₀.sublist (keep_sublist (matchBlock isWord) html.zipIdx)
  have hl₂ := hl₁.sublist (keep_sublist matchComment _)
  obtain ⟨before₂, rest₂, h₂, rfl, hvoid⟩ := (takesMarkup_void isWord).keep_layer hl₂ hrun hne h
  obtain ⟨before₁, rest₁, h₁, rfl, hcomment⟩ := takesMarkup_comment.keep_layer hl₁ hrun hne h₂
  obtain ⟨before₀, rest₀, h₀, rfl, hblock⟩ :=
    (takesMarkup_block isWord).keep_layer hl₀ hrun hne h₁
  exact ⟨before₀, rest₀, h₀, rfl, hblock, hcomment, hvoid⟩

/-! ## Whole delimiters -/

section Whole

variable {middle closing after rest : List PlacedChar} {opening name : Text}

/-- A void tag that is left with its `>` was matched. -/
theorem matchVoid_of_kept (hlt : isWord '<' = false)
    (hopening : IsOpening dropVoidTags opening name)
    (hboundary : atBoundary isWord (items middle ++ ['>']) = true)
    (hclosing : items closing = ['>'])
    (h : middle ++ closing ++ after = keep (matchVoid isWord) rest) :
    matchVoid isWord (opening ++ items rest) ≠ none := by
  have hitems : items (keep (matchVoid isWord) rest) = items middle ++ ['>'] ++ items after := by
    rw [← h, items_append, items_append, hclosing]
  have hb : atBoundary isWord (items rest) = true := by
    refine (takesMarkup_void isWord).atBoundary_of_keep hlt ?_
    rw [hitems, atBoundary_append (by simp), hboundary]
  have hgt : '>' ∈ items rest := by
    refine (items_sublist (keep_sublist (matchVoid isWord) rest)).subset ?_
    rw [hitems]
    simp
  exact matchVoid_of_mem hopening hb hgt

/-- A comment that is left with a whole closing delimiter was matched. -/
theorem matchComment_of_kept (hrest : Ordered rest) (hunbroken : Unbroken closing)
    (hclosing : items closing = ['-', '-', '>'])
    (h : (middle ++ closing ++ after).Sublist rest) :
    matchComment (['<', '!', '-', '-'] ++ items rest) ≠ none := by
  have hne : closing ≠ [] := fun hnil => by
    rw [hnil] at hclosing
    cases hclosing
  obtain ⟨u, v, rfl, -, -⟩ := exists_of_unbroken hrest hunbroken hne h
  refine matchComment_ne_none_iff.mpr ⟨items u, items v, ?_⟩
  rw [items_append, items_append, hclosing]
  simp

/-- An element that is left with a whole closing delimiter was matched. -/
theorem matchBlock_of_kept (hrest : Ordered rest) (hunbroken : Unbroken closing)
    (hopening : IsOpening dropTags opening name) (hboundary : atBoundary isWord (items rest) = true)
    (hgt : '>' ∈ items middle) (hclosing : IsClosing name (items closing))
    (h : (middle ++ closing ++ after).Sublist rest) :
    matchBlock isWord (opening ++ items rest) ≠ none := by
  have hne : closing ≠ [] := fun hnil => by
    obtain ⟨b₁, b₂, b₃, name', hitems, -⟩ := hclosing
    rw [hnil] at hitems
    cases hitems
  obtain ⟨u, v, rfl, hu, -⟩ := exists_of_unbroken hrest hunbroken hne h
  have hgtu : '>' ∈ items u := (items_sublist hu).subset hgt
  rw [items_append, items_append, List.append_assoc,
    atBoundary_append (List.ne_nil_of_mem hgtu)] at hboundary
  refine matchBlock_ne_none_iff.mpr
    ⟨opening, items u, items closing, items v, name, ?_, hopening, hboundary, hgtu, hclosing⟩
  rw [items_append, items_append]
  simp

end Whole

/-- **No construct with whole delimiters is left.**

**Proof sketch.** The opening delimiter has unbroken places, so it stood in the text of each of the
three deletions, in front of what is left behind it now and of what was taken there, and none of
the patterns matched at it. But the construct's own pattern matched: a word that ends there now
ended there then, and the closing delimiter, whose places are unbroken as well, stood behind it. -/
theorem not_construct_of_unbroken (hlt : isWord '<' = false) {html : Text}
    {before opening middle closing after : List PlacedChar}
    (h : kept isWord html = before ++ opening ++ middle ++ closing ++ after)
    (hconstruct : Construct isWord (items opening) (items middle) (items closing))
    (hopening : Unbroken opening) (hclosing : Unbroken closing) : False := by
  have hne : opening ≠ [] := fun hnil => hconstruct.opening_ne_nil (by rw [hnil]; rfl)
  have hsplit : kept isWord html = before ++ opening ++ (middle ++ closing ++ after) := by
    rw [h]
    simp
  obtain ⟨before₀, rest₀, h₀, hrest, hblock, hcomment, hvoid⟩ := kept_layers hopening hne hsplit
  -- what stood behind the opening delimiter at each deletion
  have hordered₀ : Ordered rest₀ :=
    (ordered_zipIdx html 0).sublist (h₀ ▸ List.sublist_append_right _ rest₀)
  have hordered₁ := hordered₀.sublist (keep_sublist (matchBlock isWord) rest₀)
  have hsub₁ : (middle ++ closing ++ after).Sublist (keep (matchBlock isWord) rest₀) := by
    rw [hrest]
    exact (keep_sublist (matchVoid isWord) _).trans (keep_sublist matchComment _)
  have hsub₀ := hsub₁.trans (keep_sublist (matchBlock isWord) rest₀)
  generalize ho : items opening = o at hconstruct hvoid hcomment hblock
  generalize hm : items middle = m at hconstruct
  generalize hc : items closing = c at hconstruct
  cases hconstruct with
  | void hopens hends => exact matchVoid_of_kept hlt hopens (hm ▸ hends) hc hrest hvoid
  | comment => exact matchComment_of_kept hordered₁ hclosing hc hsub₁ hcomment
  | block hopens hends hgt hcloses =>
    have hleft : atBoundary isWord (items (middle ++ closing ++ after)) = true := by
      rw [items_append, items_append, hm, List.append_assoc,
        atBoundary_append (List.ne_nil_of_mem hgt), hends]
    rw [hrest] at hleft
    have hb := (takesMarkup_block isWord).atBoundary_of_keep hlt
      (takesMarkup_comment.atBoundary_of_keep hlt
        ((takesMarkup_void isWord).atBoundary_of_keep hlt hleft))
    exact matchBlock_of_kept hordered₀ hclosing hopens hb (hm ▸ hgt) (hc ▸ hcloses) hsub₀ hblock

/-- On an input that tears no construct apart nothing is left for a second run. -/
theorem prestrip_prestrip_of_not_torn (hlt : isWord '<' = false) {html : Text}
    (h : ¬ Torn isWord html) :
    prestripUnsafeBlocks isWord (prestripUnsafeBlocks isWord html) =
      prestripUnsafeBlocks isWord html := by
  rw [prestrip_eq_self_iff, ← items_kept]
  intro before o m c after hsplit hconstruct
  obtain ⟨l₁, after', hl₁, h₁, rfl⟩ := List.map_eq_append_iff.mp hsplit
  obtain ⟨l₂, closing, rfl, h₂, rfl⟩ := List.map_eq_append_iff.mp h₁
  obtain ⟨l₃, middle, rfl, h₃, rfl⟩ := List.map_eq_append_iff.mp h₂
  obtain ⟨before', opening, rfl, rfl, rfl⟩ := List.map_eq_append_iff.mp h₃
  by_cases hunbroken : Unbroken opening ∧ Unbroken closing
  · exact not_construct_of_unbroken hlt hl₁ hconstruct hunbroken.1 hunbroken.2
  · exact h ⟨before', opening, middle, closing, after', hl₁, hconstruct, hunbroken⟩

/-- **When the pre-strip is idempotent.** Running it twice gives the same as running it once exactly
if the input tears no construct apart. -/
theorem prestrip_prestrip_iff (hlt : isWord '<' = false) (html : Text) :
    prestripUnsafeBlocks isWord (prestripUnsafeBlocks isWord html) =
        prestripUnsafeBlocks isWord html ↔ ¬ Torn isWord html := by
  constructor
  · rintro hsame ⟨before, opening, middle, closing, after, hkept, hconstruct, -⟩
    rw [prestrip_eq_self_iff, ← items_kept] at hsame
    refine hsame (items before) _ _ _ (items after) ?_ hconstruct
    rw [hkept]
    simp
  · exact prestrip_prestrip_of_not_torn hlt

/-! ## Delimiters that are cut short -/

variable (isWord) in
/-- A delimiter is cut short in the input: the start of one stands directly before a `<` that does
not belong to it. -/
def CutShort (html : Text) : Prop :=
  ∃ before start more rest opening middle closing,
    html = before ++ start ++ '<' :: rest ∧ start ≠ [] ∧ more ≠ [] ∧
      Construct isWord opening middle closing ∧ (opening = start ++ more ∨ closing = start ++ more)

/-- In front of a gap in what is left, a `<` follows in the input.

**Proof sketch.** The characters up to the gap stand in the input, and the next place belongs to a
character that is taken. If that were no `<`, no pattern could match there, and each deletion would
leave it. -/
theorem exists_lt_of_gap {html : Text} {before start rest : List PlacedChar} {a b : PlacedChar}
    (hstart : Unbroken (start ++ [a])) (hgap : b.2 ≠ a.2 + 1)
    (h : kept isWord html = before ++ (start ++ [a]) ++ b :: rest) :
    ∃ before₀ rest₀, html = before₀ ++ items (start ++ [a]) ++ '<' :: rest₀ := by
  obtain ⟨before₀, rest₀, h₀, hrest, -⟩ := kept_layers hstart (by simp) h
  have hinput : html = items before₀ ++ items (start ++ [a]) ++ items rest₀ := by
    have hitems : items html.zipIdx = html := List.zipIdx_map_fst 0 html
    rw [← hitems, h₀, items_append, items_append]
  cases rest₀ with
  | nil => exact absurd hrest (by simp [keep])
  | cons c t =>
    by_cases hc : c.1 = '<'
    · exact ⟨items before₀, items t, by rw [hinput, items_cons, hc]⟩
    · -- the character at the next place is left, so it is the one behind the gap
      rw [(takesMarkup_block isWord).keep_cons hc, takesMarkup_comment.keep_cons hc,
        (takesMarkup_void isWord).keep_cons hc] at hrest
      obtain ⟨rfl, -⟩ := List.cons_eq_cons.mp hrest
      have hplaces : Unbroken ((before₀ ++ start) ++ a :: b :: t) := by
        have hwhole : Unbroken html.zipIdx := unbroken_zipIdx html 0
        rw [h₀] at hwhole
        simpa using hwhole
      exact absurd (List.isChain_append_cons_cons.mp hplaces).2.1 hgap

/-- A construct is torn apart only where a delimiter is cut short. -/
theorem cutShort_of_torn {html : Text} (h : Torn isWord html) : CutShort isWord html := by
  obtain ⟨before, opening, middle, closing, after, hkept, hconstruct, hbroken⟩ := h
  rcases not_and_or.mp hbroken with hbroken | hbroken
  · obtain ⟨start, a, b, more, rfl, hstart, hgap⟩ := exists_gap hbroken
    have hsplit : kept isWord html =
        before ++ (start ++ [a]) ++ b :: (more ++ middle ++ closing ++ after) := by
      rw [hkept]
      simp
    obtain ⟨before₀, rest₀, hinput⟩ := exists_lt_of_gap hstart hgap hsplit
    exact ⟨before₀, _, items (b :: more), rest₀, _, _, _, hinput, by simp, by simp, hconstruct,
      Or.inl (by simp)⟩
  · obtain ⟨start, a, b, more, rfl, hstart, hgap⟩ := exists_gap hbroken
    have hsplit : kept isWord html =
        before ++ opening ++ middle ++ (start ++ [a]) ++ b :: (more ++ after) := by
      rw [hkept]
      simp
    obtain ⟨before₀, rest₀, hinput⟩ := exists_lt_of_gap hstart hgap hsplit
    exact ⟨before₀, _, items (b :: more), rest₀, _, _, _, hinput, by simp, by simp, hconstruct,
      Or.inr (by simp)⟩

/-- **On an input in which no delimiter is cut short** by another `<`, the pre-strip is
idempotent. -/
theorem prestrip_prestrip_of_not_cutShort (hlt : isWord '<' = false) {html : Text}
    (h : ¬ CutShort isWord html) :
    prestripUnsafeBlocks isWord (prestripUnsafeBlocks isWord html) =
      prestripUnsafeBlocks isWord html :=
  prestrip_prestrip_of_not_torn hlt (mt cutShort_of_torn h)

/-! ## A comment inside the name of an element -/

/-- What `\w` matches among the ASCII characters. -/
def asciiWord (c : Char) : Bool := c.isAlphanum || c = '_'

/-- A style element with a comment inside its name. -/
def tornStyle : Text := "<sty<!-- -->le>x</style>".toList

theorem prestrip_prestrip_tornStyle :
    prestripUnsafeBlocks asciiWord (prestripUnsafeBlocks asciiWord tornStyle) =
      prestripUnsafeBlocks asciiWord tornStyle ↔ ¬ Torn asciiWord tornStyle :=
  prestrip_prestrip_iff (by decide) tornStyle

/-- Taking out the comment puts the style element together, which a second run removes. -/
theorem prestrip_not_idempotent :
    ¬ ∀ (isWord : Char → Bool) (html : Text), isWord '<' = false →
      prestripUnsafeBlocks isWord (prestripUnsafeBlocks isWord html) =
        prestripUnsafeBlocks isWord html := by
  intro h
  have hsame := h asciiWord tornStyle (by decide)
  have honce : prestripUnsafeBlocks asciiWord tornStyle = "<style>x</style>".toList := by decide
  have htwice : prestripUnsafeBlocks asciiWord "<style>x</style>".toList = [] := by decide
  rw [honce, htwice] at hsame
  exact absurd hsame (by decide)

end HtmlSanitize

end MailAggregator
