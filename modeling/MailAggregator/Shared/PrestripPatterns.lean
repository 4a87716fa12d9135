import Mathlib.Data.List.Infix
import MailAggregator.Lib.Substitute
import MailAggregator.Shared.HtmlSanitize

set_option relaxedAutoImplicit false
set_option autoImplicit false

/-!
# What the patterns of the pre-strip match

Each of the three patterns takes a text with an opening delimiter, a middle and a closing
delimiter: an element with its content, a comment, or a void tag.

## Main definitions

* `MailAggregator.HtmlSanitize.IsOpening`, `HtmlSanitize.IsClosing` — the delimiters of an element.
* `MailAggregator.HtmlSanitize.Construct` — the delimiters and the middle of what a pattern takes.
* `MailAggregator.HtmlSanitize.taken` — the number of characters that a pattern takes.

## Main results

* `MailAggregator.HtmlSanitize.matchOpen_eq_some_iff`, `HtmlSanitize.matchClose_eq_some_iff` — the
  delimiters that the patterns match.
* `MailAggregator.HtmlSanitize.exists_match_iff` — one of the patterns matches at the start of a
  text exactly if a construct begins there.
* `MailAggregator.HtmlSanitize.subEmpty_eq_sub` — the deletion of the matches of a pattern.
-/

namespace MailAggregator

open PyText

namespace HtmlSanitize

/-! ## Letters and blanks -/

/-- The letter of a pattern that matches a character, ignoring case. -/
def patternLetter (c : Char) : Char :=
  if c = '\u0131' then 'i' else if c = '\u017F' then 's' else lowerOne c

/-- **A letter of a pattern** matches the characters that are sent to it.

**Proof sketch.** Beside the letter itself, in either case, two characters match that are not folded
to one: the dotless `i` and the long `s`. `patternLetter` sends these two to their letters and folds
all others. -/
theorem matchesLetter_iff {p c : Char} (hp : p.isLower = true) :
    matchesLetter p c = true ↔ patternLetter c = p := by
  have hdotless : '\u0131' ≠ p := by rintro rfl; exact absurd hp (by decide)
  have hlong : '\u017F' ≠ p := by rintro rfl; exact absurd hp (by decide)
  have hlower₁ : lowerOne '\u0131' = '\u0131' := by decide
  have hlower₂ : lowerOne '\u017F' = '\u017F' := by decide
  unfold matchesLetter patternLetter
  simp only [Bool.or_eq_true, Bool.and_eq_true, decide_eq_true_eq]
  split_ifs with h₁ h₂
  · subst h₁
    rw [hlower₁]
    constructor
    · rintro ((heq | ⟨rfl, -⟩) | ⟨-, heq⟩)
      · exact absurd heq hdotless
      · rfl
      · exact absurd heq (by decide)
    · exact fun heq => Or.inl (Or.inr ⟨heq.symm, rfl⟩)
  · subst h₂
    rw [hlower₂]
    constructor
    · rintro ((heq | ⟨-, heq⟩) | ⟨rfl, -⟩)
      · exact absurd heq hlong
      · exact absurd heq (by decide)
      · rfl
    · exact fun heq => Or.inr ⟨heq.symm, rfl⟩
  · simp only [h₁, h₂, and_false, or_false]

/-- A blank is not a letter in either case. -/
theorem lowerOne_of_isSpace {c : Char} (h : isSpace c = true) :
    lowerOne c = c ∧ c.isLower = false ∧ patternLetter c = c := by
  have hall : ∀ n ∈ [0x09, 0x0A, 0x0B, 0x0C, 0x0D, 0x1C, 0x1D, 0x1E, 0x1F, 0x20, 0x85, 0xA0, 0x1680,
      0x2000, 0x2001, 0x2002, 0x2003, 0x2004, 0x2005, 0x2006, 0x2007, 0x2008, 0x2009, 0x200A,
      0x2028, 0x2029, 0x202F, 0x205F, 0x3000], lowerOne (Char.ofNat n) = Char.ofNat n ∧
        (Char.ofNat n).isLower = false ∧ patternLetter (Char.ofNat n) = Char.ofNat n := by
    decide
  have hc := hall c.toNat (of_decide_eq_true h)
  rwa [Char.ofNat_toNat] at hc

theorem lowerOne_upper : ∀ n < 91, 65 ≤ n → isSpace (Char.ofNat (n + 32)) = false := by
  decide

/-- Lower-casing makes no blank. -/
theorem isSpace_of_lowerOne {c : Char} (h : isSpace (lowerOne c) = true) : isSpace c = true := by
  unfold lowerOne at h
  split_ifs at h with h₁ h₂ h₃
  · exact absurd h (by decide)
  · exact absurd h (by decide)
  · have hlo : 65 ≤ c.toNat := h₃.1
    have hhi : c.toNat ≤ 90 := h₃.2
    rw [lowerOne_upper c.toNat (by omega) hlo] at h
    cases h
  · exact h

/-- A character that a letter of a pattern matches is no blank. -/
theorem isSpace_of_patternLetter {c : Char} (h : (patternLetter c).isLower = true) :
    isSpace c = false := by
  by_contra hspace
  obtain ⟨-, hlower, hsame⟩ := lowerOne_of_isSpace (Bool.eq_true_of_not_eq_false hspace)
  rw [hsame, hlower] at h
  cases h

/-- Blanks before another character are skipped. -/
theorem skipSpace_append {blanks : Text} {c : Char} (h : ∀ b ∈ blanks, isSpace b = true)
    (hc : isSpace c = false) (cs : Text) : skipSpace (blanks ++ c :: cs) = c :: cs := by
  rw [skipSpace, List.dropWhile_append_of_pos h, List.dropWhile_cons_of_neg (by simp [hc])]

/-- A text is the blanks that are skipped, and the rest. -/
theorem exists_skipSpace (text : Text) :
    ∃ blanks, text = blanks ++ skipSpace text ∧ ∀ b ∈ blanks, isSpace b = true :=
  ⟨text.takeWhile isSpace, List.takeWhile_append_dropWhile.symm, fun _ => List.mem_takeWhile_imp⟩

theorem matchChar_eq_some_iff {p : Char} {text rest : Text} :
    matchChar p text = some rest ↔ text = p :: rest := by
  cases text with
  | nil => simp [matchChar]
  | cons c cs =>
    rw [matchChar]
    split_ifs with hc
    · simp [hc]
    · simp [hc]

/-! ## The delimiters -/

/-- The words of a pattern: lower-case letters, and none is the start of another. -/
structure ElementNames (words : List Text) : Prop where
  ne_nil : ∀ w ∈ words, w ≠ []
  lower : ∀ w ∈ words, ∀ p ∈ w, Char.isLower p = true
  apart : ∀ w ∈ words, ∀ w' ∈ words, w <+: w' → w = w'

theorem elementNames_dropTags : ElementNames dropTags where
  ne_nil := by decide
  lower := by decide
  apart := by decide

theorem elementNames_dropVoidTags : ElementNames dropVoidTags where
  ne_nil := by decide
  lower := by decide
  apart := by decide

/-- The opening delimiter of an element: `<`, blanks, and the name as it is written. -/
def IsOpening (words : List Text) (opening name : Text) : Prop :=
  ∃ blanks, opening = '<' :: blanks ++ name ∧ (∀ b ∈ blanks, isSpace b = true) ∧
    name.map patternLetter ∈ words

/-- The closing delimiter of an element: the name between `<`, `/` and `>`, with blanks. -/
def IsClosing (name closing : Text) : Prop :=
  ∃ b₁ b₂ b₃ name', closing = '<' :: b₁ ++ '/' :: b₂ ++ name' ++ b₃ ++ ['>'] ∧
    (∀ b ∈ b₁, isSpace b = true) ∧ (∀ b ∈ b₂, isSpace b = true) ∧ (∀ b ∈ b₃, isSpace b = true) ∧
      name'.map lowerOne = name.map lowerOne

/-- **A word of a pattern** matches the texts that begin with it, ignoring case.

**Proof sketch.** Induction over the word. A letter of the pattern matches exactly the characters
that are folded to it, so that the first character is compared as `matchesLetter_iff` says and the
others by the induction hypothesis. -/
theorem matchWord_eq_some_iff {w text name rest : Text} (hw : ∀ p ∈ w, Char.isLower p = true) :
    matchWord w text = some (name, rest) ↔ text = name ++ rest ∧ name.map patternLetter = w := by
  induction w generalizing text name with
  | nil =>
    rw [matchWord, Option.some.injEq, Prod.mk.injEq, List.map_eq_nil_iff]
    constructor
    · rintro ⟨rfl, rfl⟩
      exact ⟨rfl, rfl⟩
    · rintro ⟨rfl, rfl⟩
      exact ⟨rfl, rfl⟩
  | cons p w ih =>
    have hrest : ∀ q ∈ w, Char.isLower q = true := fun q hq => hw q (List.mem_cons_of_mem p hq)
    cases text with
    | nil =>
      rw [matchWord]
      constructor
      · rintro ⟨⟩
      · rintro ⟨hnil, hname⟩
        obtain ⟨rfl, -⟩ := List.append_eq_nil_iff.mp hnil.symm
        cases hname
    | cons c cs =>
      have hp := matchesLetter_iff (c := c) (hw p List.mem_cons_self)
      rw [matchWord]
      by_cases hc : matchesLetter p c = true
      · rw [if_pos hc, Option.map_eq_some_iff]
        constructor
        · rintro ⟨⟨name', rest'⟩, hmatch, heq⟩
          obtain ⟨rfl, rfl⟩ := Prod.mk.inj heq
          obtain ⟨rfl, rfl⟩ := (ih hrest).mp hmatch
          exact ⟨rfl, by rw [List.map_cons, hp.mp hc]⟩
        · rintro ⟨htext, hname⟩
          cases name with
          | nil => cases hname
          | cons d name =>
            obtain ⟨rfl, rfl⟩ := List.cons_eq_cons.mp htext
            obtain ⟨-, hname⟩ := List.cons_eq_cons.mp hname
            exact ⟨(name, rest), (ih hrest).mpr ⟨rfl, hname⟩, rfl⟩
      · rw [if_neg hc]
        constructor
        · rintro ⟨⟩
        · rintro ⟨htext, hname⟩
          cases name with
          | nil => cases hname
          | cons d name =>
            obtain ⟨rfl, -⟩ := List.cons_eq_cons.mp htext
            exact absurd (hp.mpr (List.cons_eq_cons.mp hname).1) hc

/-- The name in an opening delimiter begins with a character that is no blank. -/
theorem isSpace_head_of_name {words : List Text} (hwords : ElementNames words) {name : Text}
    (h : name.map patternLetter ∈ words) :
    name ≠ [] ∧ ∀ c ∈ name, isSpace c = false := by
  refine ⟨fun hnil => hwords.ne_nil _ h (by rw [hnil]; rfl), fun c hc => ?_⟩
  exact isSpace_of_patternLetter (hwords.lower _ h _ (List.mem_map_of_mem hc))

/-- A search whose only find is known. -/
theorem findSome?_eq_some_of_unique {α β : Type*} {f : α → Option β} {l : List α} {b : β}
    (hunique : ∀ a ∈ l, ∀ b', f a = some b' → b' = b) (hfind : ∃ a ∈ l, f a = some b) :
    l.findSome? f = some b := by
  cases hfound : l.findSome? f with
  | none =>
    obtain ⟨a, ha, hb⟩ := hfind
    rw [List.findSome?_eq_none_iff.mp hfound a ha] at hb
    cases hb
  | some b' =>
    obtain ⟨a, ha, hb'⟩ := List.exists_of_findSome?_eq_some hfound
    rw [hunique a ha b' hb']

/-- Two words of a pattern that match at the same place match the same characters. -/
theorem name_unique {words : List Text} (hwords : ElementNames words)
    {name name' rest rest' : Text} (h : name.map patternLetter ∈ words)
    (h' : name'.map patternLetter ∈ words) (heq : name ++ rest = name' ++ rest') :
    name = name' ∧ rest = rest' := by
  have hlength : name.length = name'.length := by
    rcases List.append_eq_append_iff.mp heq with ⟨more, rfl, -⟩ | ⟨more, rfl, -⟩
    · have hsame := hwords.apart _ h _ h' ((List.prefix_append name more).map patternLetter)
      simpa using congrArg List.length hsame
    · have hsame := hwords.apart _ h' _ h ((List.prefix_append name' more).map patternLetter)
      simpa using congrArg List.length hsame.symm
  exact List.append_inj heq hlength

/-- **The opening delimiter** that a pattern matches: its name ends where no further character of a
word follows.

**Proof sketch.** What one word of the pattern matches is known. No word is the start of another, so
that all words that match at a place match the same characters. -/
theorem matchOpen_eq_some_iff {isWord : Char → Bool} {words : List Text}
    (hwords : ElementNames words) {text name rest : Text} :
    matchOpen isWord words text = some (name, rest) ↔
      ∃ opening, text = opening ++ rest ∧ IsOpening words opening name ∧
        atBoundary isWord rest = true := by
  unfold matchOpen
  constructor
  · intro h
    cases hlt : matchChar '<' text with
    | none =>
      rw [hlt] at h
      cases h
    | some cs =>
      rw [hlt] at h
      obtain ⟨w, hw, hsome⟩ := List.exists_of_findSome?_eq_some h
      obtain ⟨blanks, hblanks, hspace⟩ := exists_skipSpace cs
      split at hsome
      · next name' rest' hmatch =>
        split_ifs at hsome with hboundary
        obtain ⟨rfl, rfl⟩ := Prod.mk.inj (Option.some.inj hsome)
        obtain ⟨hskip, hname⟩ := (matchWord_eq_some_iff (hwords.lower w hw)).mp hmatch
        refine ⟨'<' :: blanks ++ name', ?_, ⟨blanks, rfl, hspace, hname ▸ hw⟩, hboundary⟩
        rw [matchChar_eq_some_iff.mp hlt, hblanks, hskip]
        simp
      · cases hsome
  · rintro ⟨opening, rfl, ⟨blanks, rfl, hspace, hname⟩, hboundary⟩
    obtain ⟨hne, hnoblank⟩ := isSpace_head_of_name hwords hname
    have hskip : skipSpace (blanks ++ (name ++ rest)) = name ++ rest := by
      cases name with
      | nil => exact absurd rfl hne
      | cons c cs => exact skipSpace_append hspace (hnoblank c List.mem_cons_self) (cs ++ rest)
    have hlt : matchChar '<' ('<' :: blanks ++ name ++ rest) = some (blanks ++ (name ++ rest)) :=
      matchChar_eq_some_iff.mpr (by simp)
    rw [hlt]
    simp only [hskip]
    refine findSome?_eq_some_of_unique ?_ ⟨_, hname, ?_⟩
    · intro w hw found hfound
      split at hfound
      · next name' rest' hmatch =>
        split_ifs at hfound
        obtain ⟨heq, rfl⟩ := (matchWord_eq_some_iff (hwords.lower w hw)).mp hmatch
        obtain ⟨rfl, rfl⟩ := name_unique hwords hname hw heq
        exact (Option.some.inj hfound).symm
      · cases hfound
    · rw [(matchWord_eq_some_iff (hwords.lower _ hname)).mpr ⟨rfl, rfl⟩]
      exact if_pos hboundary

/-- **A name that is written again** matches the texts that begin with it, ignoring case.

**Proof sketch.** Induction over the name. A character matches exactly if it is folded to the same
one, and the rest is matched by the induction hypothesis. -/
theorem matchBackref_eq_some_iff {name text rest : Text} :
    matchBackref name text = some rest ↔
      ∃ name', text = name' ++ rest ∧ name'.map lowerOne = name.map lowerOne := by
  induction name generalizing text with
  | nil =>
    rw [matchBackref, Option.some.injEq]
    constructor
    · rintro rfl
      exact ⟨[], rfl, rfl⟩
    · rintro ⟨name', rfl, hname⟩
      rw [List.map_eq_nil_iff.mp hname]
      rfl
  | cons p name ih =>
    cases text with
    | nil =>
      rw [matchBackref]
      constructor
      · rintro ⟨⟩
      · rintro ⟨name', hnil, hname⟩
        obtain ⟨rfl, -⟩ := List.append_eq_nil_iff.mp hnil.symm
        cases hname
    | cons c cs =>
      rw [matchBackref]
      split_ifs with hc
      · rw [ih]
        constructor
        · rintro ⟨name', rfl, hname⟩
          exact ⟨c :: name', rfl, by rw [List.map_cons, List.map_cons, hname, hc]⟩
        · rintro ⟨name', htext, hname⟩
          cases name' with
          | nil => cases hname
          | cons d name' =>
            obtain ⟨rfl, rfl⟩ := List.cons_eq_cons.mp htext
            exact ⟨name', rfl, (List.cons_eq_cons.mp hname).2⟩
      · constructor
        · rintro ⟨⟩
        · rintro ⟨name', htext, hname⟩
          cases name' with
          | nil => cases hname
          | cons d name' =>
            obtain ⟨rfl, -⟩ := List.cons_eq_cons.mp htext
            exact absurd (List.cons_eq_cons.mp hname).1.symm hc

/-- **The closing delimiter** that a pattern matches.

**Proof sketch.** From left to right the match consists of its characters, each run of blanks and
the name that is written again, in this order. From right to left the runs of blanks are as long as
they can be, because what follows each of them is no blank: a slash, the first character of the
name, or the end of the delimiter. -/
theorem matchClose_eq_some_iff {name text rest : Text} (hne : name ≠ [])
    (hname : ∀ c ∈ name, isSpace c = false) :
    matchClose name text = some rest ↔
      ∃ closing, text = closing ++ rest ∧ IsClosing name closing := by
  constructor
  · intro h
    unfold matchClose at h
    simp only [Option.bind_eq_bind, Option.bind_eq_some_iff] at h
    obtain ⟨t₁, h₁, t₂, h₂, t₃, h₃, h₄⟩ := h
    obtain ⟨b₁, hb₁, hspace₁⟩ := exists_skipSpace t₁
    obtain ⟨b₂, hb₂, hspace₂⟩ := exists_skipSpace t₂
    obtain ⟨b₃, hb₃, hspace₃⟩ := exists_skipSpace t₃
    obtain ⟨name', hname', hlower⟩ := matchBackref_eq_some_iff.mp h₃
    rw [matchChar_eq_some_iff] at h₁ h₂ h₄
    refine ⟨_, ?_, b₁, b₂, b₃, name', rfl, hspace₁, hspace₂, hspace₃, hlower⟩
    rw [h₁, hb₁, h₂, hb₂, hname', hb₃, h₄]
    simp
  · rintro ⟨closing, rfl, b₁, b₂, b₃, name', rfl, hspace₁, hspace₂, hspace₃, hlower⟩
    -- the name as it is written again begins with no blank
    obtain ⟨c, cs, rfl, hc⟩ : ∃ c cs, name' = c :: cs ∧ isSpace c = false := by
      cases name' with
      | nil => exact absurd (List.map_eq_nil_iff.mp hlower.symm) hne
      | cons c cs =>
        cases name with
        | nil => exact absurd rfl hne
        | cons d ds =>
          refine ⟨c, cs, rfl, ?_⟩
          by_contra hspace
          have hblank := Bool.eq_true_of_not_eq_false hspace
          have heq : lowerOne c = lowerOne d := (List.cons_eq_cons.mp hlower).1
          have hdblank : isSpace d = false := hname d List.mem_cons_self
          rw [← (lowerOne_of_isSpace hblank).1, heq] at hblank
          rw [isSpace_of_lowerOne hblank] at hdblank
          cases hdblank
    have hslash : isSpace '/' = false := by decide
    have hgt : isSpace '>' = false := by decide
    have hback : matchBackref name (c :: cs ++ (b₃ ++ '>' :: rest)) = some (b₃ ++ '>' :: rest) :=
      matchBackref_eq_some_iff.mpr ⟨c :: cs, rfl, hlower⟩
    have htext : '<' :: b₁ ++ '/' :: b₂ ++ c :: cs ++ b₃ ++ ['>'] ++ rest =
        '<' :: (b₁ ++ '/' :: (b₂ ++ c :: (cs ++ (b₃ ++ '>' :: rest)))) := by simp
    rw [htext, matchClose]
    simp only [Option.bind_eq_bind, Option.bind_eq_some_iff]
    refine ⟨_, matchChar_eq_some_iff.mpr rfl, b₂ ++ c :: (cs ++ (b₃ ++ '>' :: rest)), ?_,
      b₃ ++ '>' :: rest, ?_, ?_⟩
    · rw [skipSpace_append hspace₁ hslash, matchChar_eq_some_iff]
    · rw [skipSpace_append hspace₂ hc, ← hback, List.cons_append]
    · rw [skipSpace_append hspace₃ hgt, matchChar_eq_some_iff]

/-! ## The constructs -/

/-- `[^>]*>` matches if there is a `>`, and takes the text up to the first. -/
theorem afterGt_append {middle : Text} (h : '>' ∈ middle) (rest : Text) :
    ∃ more, afterGt (middle ++ rest) = some (more ++ rest) := by
  induction middle with
  | nil => cases h
  | cons c middle ih =>
    rw [List.cons_append, afterGt]
    split_ifs with hc
    · exact ⟨middle, rfl⟩
    · exact ih ((List.mem_cons.mp h).resolve_left fun heq => hc heq.symm)

theorem afterGt_eq_some {text rest : Text} (h : afterGt text = some rest) :
    ∃ middle, text = middle ++ '>' :: rest := by
  induction text with
  | nil => cases h
  | cons c text ih =>
    rw [afterGt] at h
    split_ifs at h with hc
    · obtain rfl := Option.some.inj h
      exact ⟨[], by rw [hc]; rfl⟩
    · obtain ⟨middle, rfl⟩ := ih h
      exact ⟨c :: middle, rfl⟩

/-- `.*?` before a pattern matches if the pattern matches somewhere.

**Proof sketch.** Induction over the text. The pattern matches here, or it is tried from the next
character on. -/
theorem findFirst_ne_none_iff {m : Text → Option Text} {text : Text} :
    findFirst m text ≠ none ↔ ∃ content rest, text = content ++ rest ∧ m rest ≠ none := by
  induction text with
  | nil =>
    rw [findFirst]
    constructor
    · exact fun h => ⟨[], [], rfl, h⟩
    · rintro ⟨content, rest, hnil, h⟩
      rwa [(List.append_eq_nil_iff.mp hnil.symm).2] at h
  | cons c text ih =>
    cases hm : m (c :: text) with
    | some found =>
      simp only [findFirst, hm]
      exact iff_of_true (by simp) ⟨[], c :: text, rfl, by simp [hm]⟩
    | none =>
      simp only [findFirst, hm]
      rw [ih]
      constructor
      · rintro ⟨content, rest, rfl, h⟩
        exact ⟨c :: content, rest, rfl, h⟩
      · rintro ⟨content, rest, heq, h⟩
        cases content with
        | nil =>
          rw [List.nil_append] at heq
          exact absurd (heq ▸ hm) h
        | cons d content => exact ⟨content, rest, (List.cons_eq_cons.mp heq).2, h⟩

/-- The two delimiters and the middle of a stretch of text that one of the patterns takes. -/
inductive Construct (isWord : Char → Bool) : Text → Text → Text → Prop
  /-- An element with its content: the middle begins with the rest of the opening tag. -/
  | block {opening middle closing name : Text} (hopening : IsOpening dropTags opening name)
      (hboundary : atBoundary isWord middle = true) (hgt : '>' ∈ middle)
      (hclosing : IsClosing name closing) : Construct isWord opening middle closing
  /-- A comment. -/
  | comment (middle : Text) : Construct isWord ['<', '!', '-', '-'] middle ['-', '-', '>']
  /-- A void tag: it is closed by the next `>`. -/
  | void {opening middle name : Text} (hopening : IsOpening dropVoidTags opening name)
      (hboundary : atBoundary isWord (middle ++ ['>']) = true) :
      Construct isWord opening middle ['>']

theorem Construct.opening_ne_nil {isWord : Char → Bool} {opening middle closing : Text}
    (h : Construct isWord opening middle closing) : opening ≠ [] := by
  cases h with
  | block hopening _ _ _ =>
    obtain ⟨blanks, rfl, -⟩ := hopening
    simp
  | comment => simp
  | void hopening _ =>
    obtain ⟨blanks, rfl, -⟩ := hopening
    simp

theorem atBoundary_append {isWord : Char → Bool} {middle : Text} (h : middle ≠ []) (rest : Text) :
    atBoundary isWord (middle ++ rest) = atBoundary isWord middle := by
  cases middle with
  | nil => exact absurd rfl h
  | cons c middle => rfl

/-- **The block pattern** matches at the start of a text exactly if an element begins there.

**Proof sketch.** A match begins with an opening delimiter, passes a `>`, and ends with the first
closing delimiter after it. Conversely, if an element begins here, its opening delimiter matches,
the middle has a `>`, and behind it the closing delimiter is found, there or earlier. The boundary
after the name depends on the next character only, which stands in the middle. -/
theorem matchBlock_ne_none_iff {isWord : Char → Bool} {text : Text} :
    matchBlock isWord text ≠ none ↔ ∃ opening middle closing after name,
      text = opening ++ middle ++ closing ++ after ∧ IsOpening dropTags opening name ∧
        atBoundary isWord middle = true ∧ '>' ∈ middle ∧ IsClosing name closing := by
  constructor
  · intro h
    obtain ⟨found, hfound⟩ := Option.ne_none_iff_exists'.mp h
    simp only [matchBlock, Option.bind_eq_bind, Option.bind_eq_some_iff] at hfound
    obtain ⟨⟨name, rest⟩, hopen, content, hgt, hclose⟩ := hfound
    obtain ⟨opening, rfl, hopening, hboundary⟩ :=
      (matchOpen_eq_some_iff elementNames_dropTags).mp hopen
    obtain ⟨hne, hnoblank⟩ := isSpace_head_of_name elementNames_dropTags hopening.choose_spec.2.2
    obtain ⟨middle, rfl⟩ := afterGt_eq_some hgt
    have hsome : findFirst (matchClose name) content ≠ none := by rw [hclose]; simp
    obtain ⟨more, rest, rfl, hrest⟩ := findFirst_ne_none_iff.mp hsome
    obtain ⟨after, hafter⟩ := Option.ne_none_iff_exists'.mp hrest
    obtain ⟨closing, rfl, hclosing⟩ := (matchClose_eq_some_iff hne hnoblank).mp hafter
    refine ⟨opening, middle ++ '>' :: more, closing, after, name, by simp, hopening, ?_, by simp,
      hclosing⟩
    rw [← hboundary, ← List.cons_append, ← List.append_assoc]
    exact (atBoundary_append (by simp) _).symm
  · rintro ⟨opening, middle, closing, after, name, rfl, hopening, hboundary, hgt, hclosing⟩
    obtain ⟨hne, hnoblank⟩ := isSpace_head_of_name elementNames_dropTags hopening.choose_spec.2.2
    have hmiddle : middle ≠ [] := List.ne_nil_of_mem hgt
    have hopen : matchOpen isWord dropTags (opening ++ middle ++ closing ++ after) =
        some (name, middle ++ (closing ++ after)) := by
      refine (matchOpen_eq_some_iff elementNames_dropTags).mpr ⟨opening, by simp, hopening, ?_⟩
      rw [atBoundary_append hmiddle, hboundary]
    obtain ⟨more, hmore⟩ := afterGt_append hgt (closing ++ after)
    have hclose : findFirst (matchClose name) (more ++ (closing ++ after)) ≠ none := by
      refine findFirst_ne_none_iff.mpr ⟨more, closing ++ after, rfl, ?_⟩
      rw [(matchClose_eq_some_iff hne hnoblank).mpr ⟨closing, rfl, hclosing⟩]
      simp
    rw [matchBlock, hopen]
    simp only [Option.bind_eq_bind, Option.bind_some, hmore]
    exact hclose

/-- **The comment pattern** matches at the start of a text exactly if a comment begins there.

**Proof sketch.** A match begins with the four characters of the opening and ends with the first
`-->` behind them. Conversely, where a comment begins, the closing characters are found behind it,
there or earlier. -/
theorem matchComment_ne_none_iff {text : Text} :
    matchComment text ≠ none ↔ ∃ middle after,
      text = ['<', '!', '-', '-'] ++ middle ++ ['-', '-', '>'] ++ after := by
  have hend : ∀ t : Text, ((matchChar '-' t).bind fun t =>
      (matchChar '-' t).bind fun t => matchChar '>' t) ≠ none ↔
        ∃ after, t = '-' :: '-' :: '>' :: after := by
    intro t
    rw [Option.ne_none_iff_exists']
    simp only [Option.bind_eq_some_iff, matchChar_eq_some_iff]
    constructor
    · rintro ⟨after, t₁, rfl, t₂, rfl, rfl⟩
      exact ⟨after, rfl⟩
    · rintro ⟨after, rfl⟩
      exact ⟨after, _, rfl, _, rfl, rfl⟩
  constructor
  · intro h
    obtain ⟨found, hfound⟩ := Option.ne_none_iff_exists'.mp h
    simp only [matchComment, Option.bind_eq_bind, Option.bind_eq_some_iff,
      matchChar_eq_some_iff] at hfound
    obtain ⟨t₁, rfl, t₂, rfl, t₃, rfl, t₄, rfl, hfound⟩ := hfound
    obtain ⟨middle, rest, rfl, hrest⟩ := findFirst_ne_none_iff.mp (by rw [hfound]; simp)
    obtain ⟨after, rfl⟩ := (hend rest).mp hrest
    exact ⟨middle, after, by simp⟩
  · rintro ⟨middle, after, rfl⟩
    have hclose := (hend ('-' :: '-' :: '>' :: after)).mpr ⟨after, rfl⟩
    have htext : ['<', '!', '-', '-'] ++ middle ++ ['-', '-', '>'] ++ after =
        '<' :: '!' :: '-' :: '-' :: (middle ++ '-' :: '-' :: '>' :: after) := by simp
    rw [htext]
    change findFirst _ (middle ++ '-' :: '-' :: '>' :: after) ≠ none
    exact findFirst_ne_none_iff.mpr ⟨middle, _, rfl, hclose⟩

/-- **The void pattern** matches at the start of a text exactly if a void tag begins there.

**Proof sketch.** A match begins with an opening delimiter and goes on to the first `>`. Conversely,
where a void tag begins, the delimiter matches and the `>` is found, there or earlier. The boundary
after the name depends on the next character only. -/
theorem matchVoid_ne_none_iff {isWord : Char → Bool} {text : Text} :
    matchVoid isWord text ≠ none ↔ ∃ opening middle after name,
      text = opening ++ middle ++ ['>'] ++ after ∧ IsOpening dropVoidTags opening name ∧
        atBoundary isWord (middle ++ ['>']) = true := by
  constructor
  · intro h
    obtain ⟨found, hfound⟩ := Option.ne_none_iff_exists'.mp h
    simp only [matchVoid, Option.bind_eq_bind, Option.bind_eq_some_iff] at hfound
    obtain ⟨⟨name, rest⟩, hopen, hgt⟩ := hfound
    obtain ⟨opening, rfl, hopening, hboundary⟩ :=
      (matchOpen_eq_some_iff elementNames_dropVoidTags).mp hopen
    obtain ⟨middle, rfl⟩ := afterGt_eq_some hgt
    refine ⟨opening, middle, found, name, by simp, hopening, ?_⟩
    have hne : middle ++ ['>'] ≠ [] := by simp
    rw [← atBoundary_append hne found, ← hboundary]
    simp
  · rintro ⟨opening, middle, after, name, rfl, hopening, hboundary⟩
    have hopen : matchOpen isWord dropVoidTags (opening ++ middle ++ ['>'] ++ after) =
        some (name, (middle ++ ['>']) ++ after) := by
      refine (matchOpen_eq_some_iff elementNames_dropVoidTags).mpr ⟨opening, by simp, hopening, ?_⟩
      rw [atBoundary_append (by simp), hboundary]
    have hgt : '>' ∈ middle ++ ['>'] := by simp
    obtain ⟨more, hmore⟩ := afterGt_append hgt after
    rw [matchVoid, hopen]
    simp only [Option.bind_eq_bind, Option.bind_some, hmore]
    simp

/-- A void tag begins with an opening delimiter behind which there is a `>`. -/
theorem matchVoid_of_mem {isWord : Char → Bool} {opening name rest : Text}
    (hopening : IsOpening dropVoidTags opening name) (hboundary : atBoundary isWord rest = true)
    (hgt : '>' ∈ rest) : matchVoid isWord (opening ++ rest) ≠ none := by
  obtain ⟨middle, after, rfl⟩ := List.append_of_mem hgt
  refine matchVoid_ne_none_iff.mpr ⟨opening, middle, after, name, by simp, hopening, ?_⟩
  have hne : middle ++ ['>'] ≠ [] := by simp
  rw [← atBoundary_append hne after, ← hboundary]
  simp

/-- **One of the patterns matches** at the start of a text exactly if a construct begins there. -/
theorem exists_match_iff {isWord : Char → Bool} {text : Text} :
    (matchBlock isWord text ≠ none ∨ matchComment text ≠ none ∨ matchVoid isWord text ≠ none) ↔
      ∃ opening middle closing after, text = opening ++ middle ++ closing ++ after ∧
        Construct isWord opening middle closing := by
  rw [matchBlock_ne_none_iff, matchComment_ne_none_iff, matchVoid_ne_none_iff]
  constructor
  · rintro (⟨opening, middle, closing, after, name, rfl, hopening, hboundary, hgt, hclosing⟩ |
      ⟨middle, after, rfl⟩ | ⟨opening, middle, after, name, rfl, hopening, hboundary⟩)
    · exact ⟨opening, middle, closing, after, rfl, .block hopening hboundary hgt hclosing⟩
    · exact ⟨_, middle, _, after, rfl, .comment middle⟩
    · exact ⟨opening, middle, _, after, rfl, .void hopening hboundary⟩
  · rintro ⟨opening, middle, closing, after, rfl, hconstruct⟩
    cases hconstruct with
    | block hopening hboundary hgt hclosing =>
      exact Or.inl ⟨opening, middle, closing, after, _, rfl, hopening, hboundary, hgt, hclosing⟩
    | comment => exact Or.inr (Or.inl ⟨middle, after, rfl⟩)
    | void hopening hboundary =>
      exact Or.inr (Or.inr ⟨opening, middle, after, _, rfl, hopening, hboundary⟩)

/-! ## What a pattern takes -/

/-- A match of the pattern takes a character at least. -/
def Shortens (m : Text → Option Text) : Prop :=
  ∀ text rest, m text = some rest → rest.length < text.length

/-- The number of characters that a pattern takes at the start of a text. -/
def taken (m : Text → Option Text) (text : Text) : ℕ :=
  match m text with
  | some rest => text.length - rest.length
  | none => 0

section Taken

variable {m : Text → Option Text}

theorem taken_eq_zero_iff (h : Shortens m) {text : Text} : taken m text = 0 ↔ m text = none := by
  unfold taken
  cases hm : m text with
  | none => simp
  | some rest =>
    have hlt := h text rest hm
    simp only [reduceCtorEq, iff_false]
    omega

theorem subEmpty_eq_subFrom (h : Shortens m) (skip : ℕ) (text : Text) :
    subEmpty m skip text = Lib.subFrom (taken m) [] skip text := by
  induction text generalizing skip with
  | nil => cases skip <;> rfl
  | cons c cs ih =>
    cases skip with
    | succ skip => exact ih skip
    | zero =>
      rw [subEmpty, Lib.subFrom]
      cases hm : m (c :: cs) with
      | none =>
        rw [(taken_eq_zero_iff h).mpr hm]
        exact congrArg (c :: ·) (ih 0)
      | some rest =>
        have hlt := h _ rest hm
        have hcount : taken m (c :: cs) = (cs.length - rest.length) + 1 := by
          rw [List.length_cons] at hlt
          rw [taken, hm]
          simp only [List.length_cons]
          omega
        rw [hcount]
        simp only
        rw [ih, List.nil_append]

/-- **The deletion of the matches of a pattern** is the general one. -/
theorem subEmpty_eq_sub (h : Shortens m) (text : Text) :
    subEmpty m 0 text = Lib.sub (taken m) [] text := subEmpty_eq_subFrom h 0 text

theorem shortens_findFirst (h : Shortens m) : Shortens (findFirst m) := by
  intro text
  induction text with
  | nil => exact fun rest hm => h [] rest hm
  | cons c text ih =>
    intro rest hfound
    rw [findFirst] at hfound
    split at hfound
    · next found hm =>
      obtain rfl := Option.some.inj hfound
      exact h _ _ hm
    · exact Nat.lt_succ_of_lt (ih rest hfound)

theorem shortens_matchChar (p : Char) : Shortens (matchChar p) := by
  intro text rest h
  rw [matchChar_eq_some_iff.mp h]
  exact Nat.lt_succ_self _

theorem length_skipSpace_le (text : Text) : (skipSpace text).length ≤ text.length :=
  (List.dropWhile_suffix isSpace).length_le

theorem shortens_matchClose (name : Text) : Shortens (matchClose name) := by
  intro text rest h
  simp only [matchClose, Option.bind_eq_bind, Option.bind_eq_some_iff] at h
  obtain ⟨t₁, h₁, t₂, h₂, t₃, h₃, h₄⟩ := h
  obtain ⟨name', hname', -⟩ := matchBackref_eq_some_iff.mp h₃
  have hlt₁ := shortens_matchChar '<' _ _ h₁
  have hlt₂ := shortens_matchChar '/' _ _ h₂
  have hle₃ := congrArg List.length hname'
  have hlt₄ := shortens_matchChar '>' _ _ h₄
  have hskip₁ := length_skipSpace_le t₁
  have hskip₂ := length_skipSpace_le t₂
  have hskip₃ := length_skipSpace_le t₃
  rw [List.length_append] at hle₃
  omega

theorem shortens_afterGt : Shortens afterGt := by
  intro text rest h
  obtain ⟨middle, rfl⟩ := afterGt_eq_some h
  simp
  omega

theorem length_matchOpen_lt {isWord : Char → Bool} {words : List Text}
    (hwords : ElementNames words) {text name rest : Text}
    (h : matchOpen isWord words text = some (name, rest)) : rest.length < text.length := by
  obtain ⟨opening, rfl, ⟨blanks, rfl, -⟩, -⟩ := (matchOpen_eq_some_iff hwords).mp h
  simp only [List.length_append, List.length_cons]
  omega

theorem shortens_matchBlock (isWord : Char → Bool) : Shortens (matchBlock isWord) := by
  intro text rest h
  simp only [matchBlock, Option.bind_eq_bind, Option.bind_eq_some_iff] at h
  obtain ⟨⟨name, rest₁⟩, hopen, content, hgt, hclose⟩ := h
  have hlt₁ := length_matchOpen_lt elementNames_dropTags hopen
  have hlt₂ := shortens_afterGt _ _ hgt
  have hlt₃ := shortens_findFirst (shortens_matchClose name) _ _ hclose
  simp only at hlt₂
  omega

theorem shortens_matchVoid (isWord : Char → Bool) : Shortens (matchVoid isWord) := by
  intro text rest h
  simp only [matchVoid, Option.bind_eq_bind, Option.bind_eq_some_iff] at h
  obtain ⟨⟨name, rest₁⟩, hopen, hgt⟩ := h
  have hlt₁ := length_matchOpen_lt elementNames_dropVoidTags hopen
  have hlt₂ := shortens_afterGt _ _ hgt
  simp only at hlt₂
  omega

theorem shortens_matchComment : Shortens matchComment := by
  intro text rest h
  simp only [matchComment, Option.bind_eq_bind, Option.bind_eq_some_iff] at h
  obtain ⟨t₁, h₁, t₂, h₂, t₃, h₃, t₄, h₄, hfound⟩ := h
  have hlt₁ := shortens_matchChar '<' _ _ h₁
  have hlt₂ := shortens_matchChar '!' _ _ h₂
  have hlt₃ := shortens_matchChar '-' _ _ h₃
  have hlt₄ := shortens_matchChar '-' _ _ h₄
  have hlt₅ := shortens_findFirst (fun t r hr => by
    simp only [Option.bind_eq_some_iff] at hr
    obtain ⟨u₁, g₁, u₂, g₂, g₃⟩ := hr
    have hlt₁ := shortens_matchChar '-' _ _ g₁
    have hlt₂ := shortens_matchChar '-' _ _ g₂
    have hlt₃ := shortens_matchChar '>' _ _ g₃
    omega) _ _ hfound
  omega

end Taken

end HtmlSanitize

end MailAggregator
