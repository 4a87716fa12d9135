import Mathlib.Tactic.SplitIfs
import MailAggregator.Shared.HtmlSanitize

set_option relaxedAutoImplicit false
set_option autoImplicit false

/-!
# The URLs of a sanitised body

The whitelist cleaner checks the scheme of every URL, and the padding is deleted afterwards. A
padding character before the colon of a URL makes the text before the colon no scheme name, so
the check passes; once the padding is deleted the text may be the name of an active scheme.

## Main definitions

* `MailAggregator.HtmlSanitize.browserScheme` — the scheme of a URL value as a browser reads it.
* `MailAggregator.HtmlSanitize.UrlSafe` — no URL value of a text has another scheme than the
  allowed ones.
* `MailAggregator.HtmlSanitize.HidesScheme` — a value whose scheme is hidden by padding.

## Main results

* `MailAggregator.HtmlSanitize.urlSafe_sanitizeEmailHtml_iff` — the output is safe exactly when
  no URL value of an allowed attribute hides its scheme.
* `MailAggregator.HtmlSanitize.hidden_javascript_url` — an input whose output has an active URL.
-/

namespace MailAggregator

open PyText HtmlText

namespace HtmlSanitize

/-- A URL as a browser takes it: without leading control characters and spaces, and without any
tab or line break. -/
def browserUri (value : Text) : Text :=
  (value.dropWhile fun c => c.toNat ≤ 32).filter fun c => c ∉ ['\t', '\n', '\r']

/-- The scheme of a URL as a browser reads it, in lower case. -/
def browserScheme (value : Text) : Option Text :=
  match beforeColon (browserUri value) with
  | some scheme => if IsSchemeName scheme then some (lower scheme) else none
  | none => none

/-- No `href` or `src` value of the start tags of a text has a scheme that is not allowed. -/
def UrlSafe (env : HtmlEnv) (text : Text) : Prop :=
  ∀ tag ∈ readTags text, ∀ attr ∈ tag.attrs, attr.1 ∈ urlAttrs →
    ∀ scheme ∈ browserScheme (decodeRefs env.refs attr.2), scheme ∈ emailAllowedProtocols

instance (env : HtmlEnv) (text : Text) : Decidable (UrlSafe env text) :=
  inferInstanceAs (Decidable (∀ tag ∈ readTags text, ∀ attr ∈ tag.attrs, attr.1 ∈ urlAttrs →
    ∀ scheme ∈ browserScheme (decodeRefs env.refs attr.2), scheme ∈ emailAllowedProtocols))

/-- Padding hides the scheme of a value: a padding character stands before its first colon, and
without the padding the text before the colon is the name of a scheme that is not allowed. -/
def HidesScheme (env : HtmlEnv) (value : List Piece) : Prop :=
  (∃ pre c post, value = pre ++ .lit c :: post ∧ c ∈ invisiblePaddingCodepoints ∧
      ':' ∉ decodePieces env.refs pre) ∧
    ∃ scheme ∈ browserScheme (decodePieces env.refs (filterPieces notPadding value)),
      scheme ∉ emailAllowedProtocols

/-! ## The text before the colon -/

theorem beforeColon_append {xs ys : Text} (h : ':' ∉ xs) :
    beforeColon (xs ++ ':' :: ys) = some xs := by
  have hwhile : ∀ c ∈ xs, decide (c ≠ ':') = true := fun c hc =>
    decide_eq_true fun hcc => h (hcc ▸ hc)
  rw [beforeColon, if_pos (by simp), List.takeWhile_append_of_pos hwhile]
  simp

/-- The text before the first colon is determined. -/
theorem eq_of_colon_split {xs xs' ys ys' : Text} (h : xs ++ ':' :: ys = xs' ++ ':' :: ys')
    (hx : ':' ∉ xs) (hx' : ':' ∉ xs') : xs = xs' := by
  have heq : beforeColon (xs ++ ':' :: ys) = some xs := beforeColon_append hx
  rw [h, beforeColon_append hx'] at heq
  exact (Option.some.inj heq).symm

/-- A text with something before its first colon has a first colon. -/
theorem exists_of_beforeColon {text scheme : Text} (h : beforeColon text = some scheme) :
    ∃ rest, text = scheme ++ ':' :: rest ∧ ':' ∉ scheme := by
  rw [beforeColon] at h
  split_ifs at h with hmem
  obtain ⟨pre, rest, rfl, hpre⟩ := List.eq_append_cons_of_mem hmem
  have heq : beforeColon (pre ++ ':' :: rest) = some pre := beforeColon_append hpre
  rw [beforeColon, if_pos hmem, h] at heq
  obtain rfl := Option.some.inj heq
  exact ⟨rest, rfl, hpre⟩

/-! ## What the check deletes -/

theorem lowerChar_colon_ascii :
    ∀ n : Fin 128, ':' ∈ lowerChar (Char.ofNat n) ↔ Char.ofNat n = ':' := by
  decide

/-- No other character lower-cases to a colon. -/
theorem lowerChar_colon {c : Char} : ':' ∈ lowerChar c ↔ c = ':' := by
  by_cases hc : c.toNat < 128
  · simpa using lowerChar_colon_ascii ⟨c.toNat, hc⟩
  · have hne : c ≠ ':' := fun h => hc (h ▸ by decide)
    have hupper : ¬ ('A' ≤ c ∧ c ≤ 'Z') := fun h => by
      have hle : c.toNat ≤ 90 := h.2
      omega
    unfold lowerChar
    split_ifs with h₁ h₂ <;> simp [hne, Ne.symm hne]

theorem colon_mem_lower {text : Text} : ':' ∈ lower text ↔ ':' ∈ text := by
  simp [lower, lowerChar_colon]

/-- A character of a scheme name is ASCII. -/
theorem toNat_lt_of_isSchemeChar {c : Char} (h : isSchemeChar c = true) : c.toNat < 128 := by
  rw [isSchemeChar, Bool.or_eq_true] at h
  rcases h with h | h
  · rcases (Bool.or_eq_true c.isAlpha c.isDigit).mp h with h | h
    · rcases (Bool.or_eq_true c.isUpper c.isLower).mp h with h | h
      · have hle : c.toNat ≤ 90 := (of_decide_eq_true h).2
        omega
      · have hle : c.toNat ≤ 122 := of_decide_eq_true ((Bool.and_eq_true _ _).mp h).2
        omega
    · have hle : c.toNat ≤ 57 := of_decide_eq_true ((Bool.and_eq_true _ _).mp h).2
      omega
  · simp only [List.mem_cons, List.not_mem_nil, or_false, decide_eq_true_eq] at h
    rcases h with rfl | rfl | rfl <;> decide

theorem schemeChar_ascii : ∀ n : Fin 128, isSchemeChar (Char.ofNat n) = true →
    isJunk (Char.ofNat n) = false ∧ (lowerChar (Char.ofNat n)).length = 1 ∧
      (lowerChar (Char.ofNat n)).all isSchemeChar = true ∧
      ((Char.ofNat n).isAlpha = true → (lowerChar (Char.ofNat n)).all Char.isAlpha = true) := by
  decide

/-- A character of a scheme name is no junk, and lower-cases to one such character. -/
theorem schemeChar_facts {c : Char} (h : isSchemeChar c = true) :
    isJunk c = false ∧ ∃ d, lowerChar c = [d] ∧ isSchemeChar d = true ∧
      (c.isAlpha = true → d.isAlpha = true) := by
  have htable := schemeChar_ascii ⟨c.toNat, toNat_lt_of_isSchemeChar h⟩
  simp only [Char.ofNat_toNat] at htable
  obtain ⟨hjunk, hlen, hall, halpha⟩ := htable h
  obtain ⟨d, hd⟩ := List.length_eq_one_iff.mp hlen
  rw [hd] at hall halpha
  exact ⟨hjunk, d, hd, by simpa using hall, by simpa using halpha⟩

theorem isSchemeChar_of_mem {scheme : Text} (h : IsSchemeName scheme) {c : Char}
    (hc : c ∈ scheme) : isSchemeChar c = true := by
  cases scheme with
  | nil => cases hc
  | cons d scheme =>
    rcases List.mem_cons.mp hc with rfl | hc
    · simp [isSchemeChar, Char.isAlphanum, h.1]
    · exact h.2 c hc

/-- A scheme name in lower case is a scheme name. -/
theorem isSchemeName_lower {scheme : Text} (h : IsSchemeName scheme) :
    IsSchemeName (lower scheme) := by
  cases scheme with
  | nil => exact h
  | cons c scheme =>
    obtain ⟨_, d, hd, _, halpha⟩ := schemeChar_facts (isSchemeChar_of_mem h List.mem_cons_self)
    have htail : ∀ e ∈ lower scheme, isSchemeChar e = true := by
      intro e he
      obtain ⟨b, hb, he⟩ := List.mem_flatMap.mp he
      obtain ⟨_, b', hb', hsc, _⟩ := schemeChar_facts (h.2 b hb)
      rw [hb', List.mem_singleton] at he
      exact he ▸ hsc
    have hcons : lower (c :: scheme) = d :: lower scheme := by
      rw [lower, List.flatMap_cons, hd]
      rfl
    rw [hcons]
    exact ⟨halpha h.1, htail⟩

/-- A padding character is neither junk nor part of a scheme name, and has no lower case. -/
theorem padding_facts :
    ∀ c ∈ invisiblePaddingCodepoints, isJunk c = false ∧ isSchemeChar c = false ∧
      lowerChar c = [c] ∧ c ≠ ':' := by
  decide

/-! ## The check and the browser on the text before the colon -/

/-- The check looks at the text before the first colon without its junk, in lower case. -/
theorem beforeColon_normaliseUri {pre rest : Text} (h : ':' ∉ pre) :
    beforeColon (normaliseUri (pre ++ ':' :: rest)) = some (normaliseUri pre) := by
  have hsplit : normaliseUri (pre ++ ':' :: rest) =
      normaliseUri pre ++ ':' :: normaliseUri rest := by
    rw [normaliseUri, List.filter_append, List.filter_cons_of_pos (by decide), lower_append]
    rfl
  rw [hsplit]
  refine beforeColon_append fun hmem => h ?_
  exact (List.mem_filter.mp (colon_mem_lower.mp hmem)).1

/-- A browser looks at the text before the first colon without leading spaces, tabs and line
breaks. -/
theorem beforeColon_browserUri {pre rest : Text} (h : ':' ∉ pre) :
    beforeColon (browserUri (pre ++ ':' :: rest)) = some (browserUri pre) := by
  have hdrop : (pre ++ ':' :: rest).dropWhile (fun c => c.toNat ≤ 32) =
      pre.dropWhile (fun c => c.toNat ≤ 32) ++ ':' :: rest := by
    rw [List.dropWhile_append]
    split_ifs with hemp
    · rw [List.isEmpty_iff.mp hemp, List.nil_append, List.dropWhile_cons_of_neg (by decide)]
    · rfl
  have hsplit : browserUri (pre ++ ':' :: rest) = browserUri pre ++
      ':' :: rest.filter fun c => c ∉ ['\t', '\n', '\r'] := by
    rw [browserUri, hdrop, List.filter_append, List.filter_cons_of_pos (by decide)]
    rfl
  rw [hsplit]
  refine beforeColon_append fun hmem => h ?_
  exact (List.dropWhile_sublist _).subset (List.mem_filter.mp hmem).1

/-- What the browser drops is junk: a scheme name that it reads is, in lower case, what the check
looks at.

**Proof sketch.** What the browser drops, leading blanks and the three line characters, is junk for
the check as well. What is left of a scheme name has no junk, so that the check drops nothing else
and only lowers the letters. -/
theorem normaliseUri_eq_lower {pre : Text} (h : IsSchemeName (browserUri pre)) :
    normaliseUri pre = lower (browserUri pre) := by
  have hkeep : (browserUri pre).filter (fun c => !isJunk c) = browserUri pre :=
    List.filter_eq_self.mpr fun c hc => by
      rw [(schemeChar_facts (isSchemeChar_of_mem h hc)).1]
      rfl
  have hbreaks : (pre.dropWhile fun c => c.toNat ≤ 32).filter (fun c => !isJunk c) =
      (browserUri pre).filter fun c => !isJunk c := by
    rw [browserUri, List.filter_filter]
    refine List.filter_congr fun c _ => ?_
    by_cases hc : c ∈ ['\t', '\n', '\r']
    · have : isJunk c = true := by
        simp only [List.mem_cons, List.not_mem_nil, or_false] at hc
        rcases hc with rfl | rfl | rfl <;> decide
      simp [this]
    · simp [hc]
  have hspaces : pre.filter (fun c => !isJunk c) =
      (pre.dropWhile fun c => c.toNat ≤ 32).filter fun c => !isJunk c := by
    have hnil : (pre.takeWhile fun c => c.toNat ≤ 32).filter (fun c => !isJunk c) = [] := by
      rw [List.filter_eq_nil_iff]
      intro c hc
      have hle := List.mem_takeWhile_imp hc
      simp only [decide_eq_true_eq] at hle
      simp [isJunk, hle]
    conv_lhs =>
      rw [← List.takeWhile_append_dropWhile (p := fun c : Char => c.toNat ≤ 32) (l := pre)]
    rw [List.filter_append, hnil, List.nil_append]
  rw [normaliseUri, hspaces, hbreaks, hkeep]

/-- A kept value has no scheme for a browser but the allowed ones. -/
theorem browserScheme_of_keepsUri {pre rest scheme : Text} (hpre : ':' ∉ pre)
    (hk : KeepsUri (pre ++ ':' :: rest)) (hs : IsSchemeName (browserUri pre))
    (hscheme : scheme = lower (browserUri pre)) : scheme ∈ emailAllowedProtocols := by
  have hmem := hk _ (beforeColon_normaliseUri hpre)
  rw [normaliseUri_eq_lower hs] at hmem
  exact hscheme ▸ hmem (isSchemeName_lower hs)

/-- A padding character before the first colon makes the check keep the value.

**Proof sketch.** The padding character is no junk and is no colon, so that it stands in what the
check reads before the first colon. It is no character of a scheme name, and the check takes a text
with such a character for a relative address. -/
theorem keepsUri_of_padding {pre post : Text} {c : Char} (hpre : ':' ∉ pre)
    (hc : c ∈ invisiblePaddingCodepoints) : KeepsUri (pre ++ c :: post) := by
  obtain ⟨hjunk, hsc, hlow, hne⟩ := padding_facts c hc
  intro scheme hscheme hname
  have hnorm : normaliseUri (pre ++ c :: post) =
      normaliseUri pre ++ c :: normaliseUri post := by
    rw [normaliseUri, List.filter_append, List.filter_cons_of_pos (by simp [hjunk]),
      lower_append, lower, lower, List.flatMap_cons, hlow]
    rfl
  obtain ⟨rest, heq, hcolon⟩ := exists_of_beforeColon hscheme
  rw [hnorm] at heq
  -- the text before the colon goes on at least to the padding character
  have hmem : c ∈ scheme := by
    rcases List.append_eq_append_iff.mp heq with ⟨as, hs, hrest⟩ | ⟨bs, hp, hrest⟩
    · cases as with
      | nil => exact absurd (List.cons.inj hrest).1 hne
      | cons d as =>
        rw [hs, (List.cons.inj hrest).1]
        simp
    · cases bs with
      | nil => exact absurd (List.cons.inj hrest).1.symm hne
      | cons d bs =>
        have hd : ':' ∈ normaliseUri pre := by
          rw [hp, (List.cons.inj hrest).1]
          simp
        exact absurd (List.mem_filter.mp (colon_mem_lower.mp hd)).1 hpre
  rw [isSchemeChar_of_mem hname hmem] at hsc
  cases hsc

section Values

variable (env : HtmlEnv)

theorem decodePieces_cons (piece : Piece) (pieces : List Piece) :
    decodePieces env.refs (piece :: pieces) =
      piece.decode env.refs ++ decodePieces env.refs pieces := rfl

/-- If no padding character stands before the first colon of a value, deleting the padding
leaves the text before the colon alone.

**Proof sketch.** Induction on the pieces. A piece with a colon ends the text on both sides; a
piece without one is kept, because it is not padding. -/
theorem before_colon_of_no_padding {value : List Piece}
    (h : ∀ pre c post, value = pre ++ .lit c :: post → c ∈ invisiblePaddingCodepoints →
      ':' ∈ decodePieces env.refs pre) {pre rest : Text} (hpre : ':' ∉ pre)
    (hv : decodePieces env.refs (filterPieces notPadding value) = pre ++ ':' :: rest) :
    ∃ rest', decodePieces env.refs value = pre ++ ':' :: rest' := by
  induction value generalizing pre rest with
  | nil =>
    cases pre <;> cases hv
  | cons piece value ih =>
    have hkept : filterPieces notPadding (piece :: value) =
        piece :: filterPieces notPadding value := by
      cases piece with
      | ref name => rfl
      | lit c =>
        rw [filterPieces_cons_lit, if_pos]
        refine decide_eq_true fun hc => ?_
        have := h [] c value rfl hc
        cases this
    rw [hkept, decodePieces_cons] at hv
    by_cases hcolon : ':' ∈ piece.decode env.refs
    · obtain ⟨as, bs, hsplit, has⟩ := List.eq_append_cons_of_mem hcolon
      rw [hsplit, List.append_assoc, List.cons_append] at hv
      obtain rfl := eq_of_colon_split hv has hpre
      exact ⟨bs ++ decodePieces env.refs value, by rw [decodePieces_cons, hsplit]; simp⟩
    · have hmem : ':' ∈ decodePieces env.refs (filterPieces notPadding value) := by
        have : ':' ∈ pre ++ ':' :: rest := by simp
        rw [← hv, List.mem_append] at this
        exact this.resolve_left hcolon
      obtain ⟨as, bs, hsplit, has⟩ := List.eq_append_cons_of_mem hmem
      obtain ⟨rest', hrest⟩ := ih (fun p c q hq hc => by
        have := h (piece :: p) c q (by rw [hq]; rfl) hc
        rw [decodePieces_cons, List.mem_append] at this
        exact this.resolve_left hcolon) has hsplit
      have heq : piece.decode env.refs ++ as = pre := by
        rw [hsplit, ← List.append_assoc] at hv
        refine eq_of_colon_split hv ?_ hpre
        rw [List.mem_append]
        exact fun hm => hm.elim hcolon has
      exact ⟨rest', by rw [decodePieces_cons, hrest, ← heq, List.append_assoc]⟩

/-- **One value.** The cleaner keeps a value and the browser finds a scheme in it that is not
allowed, once the padding is deleted, exactly when padding hides that scheme.

**Proof sketch.** From left to right: if no padding stood before the first colon, the deletion of
padding would leave everything before the colon as it is, and the scheme that the browser finds
would be the one that the check has allowed. From right to left the padding before the colon is what
makes the check find no scheme: its characters are not those of a scheme, so that it takes the value
for a relative one and keeps it. -/
theorem hidesScheme_iff (value : List Piece) :
    (KeepsUri (decodePieces env.refs value) ∧
      ∃ scheme ∈ browserScheme (decodePieces env.refs (filterPieces notPadding value)),
        scheme ∉ emailAllowedProtocols) ↔ HidesScheme env value := by
  constructor
  · rintro ⟨hk, scheme, hscheme, hbad⟩
    refine ⟨?_, scheme, hscheme, hbad⟩
    by_contra hex
    have hno : ∀ pre c post, value = pre ++ .lit c :: post → c ∈ invisiblePaddingCodepoints →
        ':' ∈ decodePieces env.refs pre := by
      intro pre c post hv hc
      by_contra hp
      exact hex ⟨pre, c, post, hv, hc, hp⟩
    -- without padding before the colon, the check has seen the same scheme
    unfold browserScheme at hscheme
    cases hb : beforeColon
        (browserUri (decodePieces env.refs (filterPieces notPadding value))) with
    | none => rw [hb] at hscheme; cases hscheme
    | some name =>
      rw [hb] at hscheme
      have hcolon : ':' ∈ decodePieces env.refs (filterPieces notPadding value) := by
        obtain ⟨rest, heq, _⟩ := exists_of_beforeColon hb
        have hmem : ':' ∈ browserUri (decodePieces env.refs (filterPieces notPadding value)) := by
          rw [heq]
          simp
        exact (List.dropWhile_sublist _).subset (List.mem_filter.mp hmem).1
      obtain ⟨pre, rest, hsplit, hpre⟩ := List.eq_append_cons_of_mem hcolon
      rw [hsplit, beforeColon_browserUri hpre] at hb
      obtain rfl := Option.some.inj hb
      obtain ⟨rest', hvalue⟩ := before_colon_of_no_padding env hno hpre hsplit
      simp only at hscheme
      split_ifs at hscheme with hname
      · rw [hvalue] at hk
        exact hbad (browserScheme_of_keepsUri hpre hk hname (Option.some.inj hscheme).symm)
      · cases hscheme
  · rintro ⟨⟨pre, c, post, rfl, hc, hpre⟩, hscheme⟩
    refine ⟨?_, hscheme⟩
    have hdecode : decodePieces env.refs (pre ++ .lit c :: post) =
        decodePieces env.refs pre ++ c :: decodePieces env.refs post := by
      simp [decodePieces, Piece.decode]
    rw [hdecode]
    exact keepsUri_of_padding hpre hc

/-! ## The output -/

/-- The tokens of the output. -/
def outputTokens (html : Text) : List Token :=
  ((env.parse (prestripUnsafeBlocks env.isWord html)).filterMap (cleanToken env)).map
    (Token.filter notPadding)

theorem allowedTags_valid : ∀ name ∈ emailAllowedTags, ValidName name ∧
    ∀ c ∈ name, notPadding c = true := by
  decide

theorem allowedAttrs_valid : ∀ e ∈ emailAllowedAttrs, ∀ name ∈ e.2, ValidName name ∧
    ∀ c ∈ name, notPadding c = true := by
  decide

theorem allowedAttrsOf_valid {tag name : Text} (h : name ∈ allowedAttrsOf tag) :
    ValidName name ∧ ∀ c ∈ name, notPadding c = true := by
  unfold allowedAttrsOf at h
  cases hl : emailAllowedAttrs.lookup tag with
  | none => rw [hl] at h; cases h
  | some names =>
    rw [hl] at h
    exact allowedAttrs_valid _ (mem_of_lookup hl) name h

/-- A token that the cleaner keeps has valid names, in which there is no padding. -/
theorem cleanToken_valid {token cleaned : Token} (h : cleanToken env token = some cleaned) :
    cleaned.Valid ∧ cleaned.NamesKept notPadding := by
  cases token with
  | data pieces =>
    obtain rfl := Option.some.inj h
    exact ⟨trivial, trivial⟩
  | endTag name =>
    simp only [cleanToken] at h
    split_ifs at h with hname
    obtain rfl := Option.some.inj h
    exact allowedTags_valid name hname
  | startTag name attrs =>
    simp only [cleanToken] at h
    split_ifs at h with hname
    obtain rfl := Option.some.inj h
    have hattrs : ∀ a ∈ attrs.filter (fun a => KeepsAttr env name a), ValidName a.1 ∧
        ∀ c ∈ a.1, notPadding c = true := by
      intro a ha
      rw [List.mem_filter, decide_eq_true_eq] at ha
      exact allowedAttrsOf_valid ha.2.1
    exact ⟨⟨(allowedTags_valid name hname).1, fun a ha => (hattrs a ha).1⟩,
      (allowedTags_valid name hname).2, fun a ha => (hattrs a ha).2⟩

theorem notPadding_of_isMarkup {c : Char} (h : isMarkup c = true) : notPadding c = true := by
  refine decide_eq_true fun hc => ?_
  have hpad : ∀ d ∈ invisiblePaddingCodepoints, isMarkup d = false := by decide
  rw [hpad c hc] at h
  cases h

/-- **The output** is the rendering of its tokens: deleting the padding from the cleaner's text
deletes it from the values and the text of the cleaned tokens. -/
theorem sanitizeEmailHtml_eq_render {html : Text} (h : html ≠ []) :
    sanitizeEmailHtml env html = render (outputTokens env html) := by
  rw [sanitizeEmailHtml, if_neg h, stripInvisiblePadding_eq, bleachClean, outputTokens]
  refine filter_render (fun c => notPadding_of_isMarkup) fun t ht => ?_
  obtain ⟨token, _, hclean⟩ := List.mem_filterMap.mp ht
  exact (cleanToken_valid env hclean).2

/-- A start tag of the output, as it is read. -/
def outputTag (name : Text) (attrs : List (Text × List Piece)) : StartTag where
  name := name
  attrs := (attrs.filter fun a => KeepsAttr env name a).map fun a =>
    (a.1, renderPieces attrEscapes (filterPieces notPadding a.2))

/-- The tokens of the output have valid names. -/
theorem outputTokens_valid (html : Text) : ∀ t ∈ outputTokens env html, t.Valid := by
  intro t ht
  obtain ⟨u, hu, rfl⟩ := List.mem_map.mp ht
  obtain ⟨token, _, hclean⟩ := List.mem_filterMap.mp hu
  have hu' := (cleanToken_valid env hclean).1
  cases u with
  | data _ => trivial
  | endTag _ => exact hu'
  | startTag name attrs =>
    refine ⟨hu'.1, fun a ha => ?_⟩
    obtain ⟨b, hb, rfl⟩ := List.mem_map.mp ha
    exact hu'.2 b hb

/-- The start tags that are read from the output: the allowed ones of the input, with the kept
attributes.

**Proof sketch.** The output is a rendered document without padding, and reading it gives back its
start tags. Each of them comes from a token that the cleaner has kept, which is a start tag with an
allowed name; data and end tags give none. -/
theorem mem_readTags_output {html : Text} (h : html ≠ []) {tag : StartTag} :
    tag ∈ readTags (sanitizeEmailHtml env html) ↔
      ∃ name attrs, .startTag name attrs ∈ env.parse (prestripUnsafeBlocks env.isWord html) ∧
        name ∈ emailAllowedTags ∧ tag = outputTag env name attrs := by
  have htag : ∀ name attrs, (Token.filter notPadding (.startTag name
      (attrs.filter fun a => KeepsAttr env name a))).startTag? =
        some (outputTag env name attrs) := by
    intro name attrs
    simp [Token.filter, Token.startTag?, outputTag]
  rw [sanitizeEmailHtml_eq_render env h, readTags_render (outputTokens_valid env html),
    List.mem_filterMap]
  constructor
  · rintro ⟨t, ht, heq⟩
    obtain ⟨u, hu, rfl⟩ := List.mem_map.mp ht
    obtain ⟨token, htoken, hclean⟩ := List.mem_filterMap.mp hu
    cases token with
    | data _ =>
      obtain rfl := Option.some.inj hclean
      cases heq
    | endTag _ =>
      simp only [cleanToken] at hclean
      split_ifs at hclean
      obtain rfl := Option.some.inj hclean
      cases heq
    | startTag name attrs =>
      simp only [cleanToken] at hclean
      split_ifs at hclean with hname
      obtain rfl := Option.some.inj hclean
      rw [htag] at heq
      exact ⟨name, attrs, htoken, hname, (Option.some.inj heq).symm⟩
  · rintro ⟨name, attrs, htoken, hname, rfl⟩
    refine ⟨_, List.mem_map_of_mem (List.mem_filterMap.mpr ⟨_, htoken, ?_⟩), htag name attrs⟩
    simp only [cleanToken, if_pos hname]

/-- **Sanitised HTML and active URLs.** The output for a body has no URL with another scheme than
the allowed ones exactly when no URL value of an allowed attribute of the pre-stripped body hides
its scheme behind padding.

**Proof sketch.** The start tags of the output are those of the allowed tokens, with the attributes
that were kept, and the value that a browser decodes is the value of the token without padding. For
one value `hidesScheme_iff` says when it is kept and has a scheme that is not allowed. The empty
body has no tags. -/
theorem urlSafe_sanitizeEmailHtml_iff (html : Text) :
    UrlSafe env (sanitizeEmailHtml env html) ↔
      (html ≠ [] → ∀ name attrs,
        .startTag name attrs ∈ env.parse (prestripUnsafeBlocks env.isWord html) →
          name ∈ emailAllowedTags → ∀ attr ∈ attrs, attr.1 ∈ allowedAttrsOf name →
            attr.1 ∈ urlAttrs → ¬ HidesScheme env attr.2) := by
  by_cases hne : html = []
  · subst hne
    refine ⟨fun _ h => absurd rfl h, fun _ => ?_⟩
    intro tag htag
    cases htag
  have hdecode : ∀ pieces, decodeRefs env.refs (renderPieces attrEscapes pieces) =
      decodePieces env.refs pieces := decodeRefs_renderPieces env.knows_attr
  constructor
  · intro hsafe _ name attrs htoken hname attr hattr hallowed hurl hhides
    obtain ⟨hkeep, scheme, hscheme, hbad⟩ := (hidesScheme_iff env attr.2).mpr hhides
    have htag := (mem_readTags_output env hne).mpr ⟨name, attrs, htoken, hname, rfl⟩
    have hmem : (attr.1, renderPieces attrEscapes (filterPieces notPadding attr.2)) ∈
        (outputTag env name attrs).attrs := by
      refine List.mem_map_of_mem (f := fun a : Text × List Piece =>
        (a.1, renderPieces attrEscapes (filterPieces notPadding a.2)))
        (List.mem_filter.mpr ⟨hattr, decide_eq_true ⟨hallowed, fun _ => hkeep⟩⟩)
    refine hbad (hsafe _ htag _ hmem hurl scheme ?_)
    rw [hdecode]
    exact hscheme
  · intro hno tag htag attr hattr hurl scheme hscheme
    obtain ⟨name, attrs, htoken, hname, rfl⟩ := (mem_readTags_output env hne).mp htag
    obtain ⟨a, ha, rfl⟩ := List.mem_map.mp hattr
    rw [List.mem_filter, decide_eq_true_eq] at ha
    rw [hdecode] at hscheme
    by_contra hbad
    exact hno hne name attrs htoken hname a ha.1 ha.2.1 hurl
      ((hidesScheme_iff env a.2).mp ⟨ha.2.2 hurl, scheme, hscheme, hbad⟩)

end Values

/-! ## A scheme split by a zero-width space -/

/-- A link whose scheme has a zero-width space in it. -/
def hiddenUrl : Text := "java\u200Bscript:alert(1)".toList

/-- The body with that link. -/
def hiddenBody : Text := "<a href=\"java\u200Bscript:alert(1)\">x</a>".toList

/-- An environment that tokenizes a body of that one link. -/
def linkEnv : HtmlEnv where
  isWord c := c.isAlphanum || c = '_'
  parse _ := [.startTag "a".toList [("href".toList, hiddenUrl.map .lit)], .data [.lit 'x'],
    .endTag "a".toList]
  refs name := (attrEscapes ++ dataEscapes).findSome? fun e =>
    if e.2 = name then some [e.1] else none
  knows_attr := ⟨attrEscapes_proper, by decide, by decide⟩

/-- The cleaner keeps the link, and deleting the padding makes its scheme active. -/
theorem hidden_javascript_url :
    ¬ ∀ (env : HtmlEnv) (html : Text), UrlSafe env (sanitizeEmailHtml env html) := by
  intro h
  have hactive : ¬ UrlSafe linkEnv (sanitizeEmailHtml linkEnv hiddenBody) := by decide
  exact hactive (h linkEnv hiddenBody)

end HtmlSanitize

end MailAggregator
