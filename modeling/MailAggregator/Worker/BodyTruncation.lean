import MailAggregator.Worker.ImapFetcher

set_option relaxedAutoImplicit false
set_option autoImplicit false

/-!
# The byte budget of a stored body

The text and the HTML of a message are derived on their own paths, and each of them is cut to the
budget. Only the cut of the text is kept in the flag of the message.

## Main definitions

* `MailAggregator.ImapFetcher.fullText` — the text that is cut.
* `MailAggregator.ImapFetcher.TextCut`, `ImapFetcher.HtmlCut` — a stored part is shorter than what
  it was made from.
* `MailAggregator.ImapFetcher.TruncatedExactly` — the flag says whether one of them is.

## Main results

* `MailAggregator.ImapFetcher.truncateBody_exact` — the longest start that fits is kept, and the
  flag says whether it is shorter.
* `MailAggregator.ImapFetcher.truncatedExactly_iff` — the flag is exact unless only the HTML is
  cut.
* `MailAggregator.ImapFetcher.html_cut_not_flagged` — a message of which only the HTML is cut.
-/

namespace MailAggregator

open PyText Utf8 HtmlText HtmlSanitize

namespace ImapFetcher

/-! ## A cut body -/

section Cut

variable {body : Text} {maxBytes : ℕ}

/-- A truncated body is the longest start of it that fits into the budget. -/
theorem truncateBody_fst : (truncateBody body maxBytes).1 = fit maxBytes body := by
  rw [truncateBody]
  split_ifs with hfits
  · exact (fit_eq_self hfits).symm
  · exact decodeIgnore_take_encode maxBytes body

/-- The flag of a truncated body says whether it does not fit. -/
theorem truncateBody_snd : (truncateBody body maxBytes).2 = true ↔
    maxBytes < (encode body).length := by
  rw [truncateBody]
  split_ifs with hfits
  · exact iff_of_false id (Nat.not_lt.mpr hfits)
  · exact iff_of_true rfl (Nat.lt_of_not_le hfits)

/-- A body gets shorter exactly if it does not fit. -/
theorem length_fit_lt_iff : (fit maxBytes body).length < body.length ↔
    maxBytes < (encode body).length := by
  constructor
  · intro hlt
    by_contra hfits
    rw [fit_eq_self (Nat.le_of_not_lt hfits)] at hlt
    exact Nat.lt_irrefl _ hlt
  · exact length_fit_lt

/-- **Truncation is maximal and exact.** The longest start of the body that takes at most
`maxBytes` bytes is kept, and the flag says whether it is shorter than the body. -/
theorem truncateBody_exact (body : Text) (maxBytes : ℕ) :
    (∀ kept, IsLongestFit maxBytes body kept ↔ kept = (truncateBody body maxBytes).1) ∧
      ((truncateBody body maxBytes).2 = true ↔
        (truncateBody body maxBytes).1.length < body.length) := by
  constructor
  · intro kept
    rw [truncateBody_fst]
    exact isLongestFit_iff
  · rw [truncateBody_snd, truncateBody_fst, length_fit_lt_iff]

-- five bytes end inside the third character
example : truncateBody (List.replicate 5 'ё') 5 = (['ё', 'ё'], true) := by decide

/-- At most three bytes of the budget of a truncated body are lost. -/
theorem lt_length_encode_truncateBody (h : (truncateBody body maxBytes).2 = true) :
    maxBytes < (encode (truncateBody body maxBytes).1).length + 4 := by
  rw [truncateBody_fst]
  exact lt_length_encode_fit_add (truncateBody_snd.mp h)

/-- Of two truncations the one with the smaller budget counts. -/
theorem truncateBody_truncateBody (otherBytes : ℕ) :
    (truncateBody (truncateBody body maxBytes).1 otherBytes).1 =
      (truncateBody body (min otherBytes maxBytes)).1 := by
  rw [truncateBody_fst, truncateBody_fst, truncateBody_fst, fit_fit]

/-- A larger budget only adds to the end of a truncated body. -/
theorem truncateBody_isPrefix {otherBytes : ℕ} (h : maxBytes ≤ otherBytes) :
    (truncateBody body maxBytes).1 <+: (truncateBody body otherBytes).1 := by
  rw [truncateBody_fst, truncateBody_fst]
  exact fit_isPrefix_fit h body

end Cut

/-! ## The stored parts -/

variable (env : HtmlEnv) (html2text : Text → Text) (now : Instant) (maxBodyBytes : ℕ)
  (msg : MailMessage)

/-- The text of a message before it is cut: the text part, or else the converted HTML part,
without the padding. -/
def fullText : Text :=
  stripInvisiblePadding (if msg.text = [] ∧ msg.html ≠ [] then html2text msg.html else msg.text)

/-- The stored text is shorter than the text it was made from. -/
def TextCut : Prop :=
  (fromImapMsg env html2text now maxBodyBytes msg).bodyText.length <
    (fullText html2text msg).length

/-- There is a stored HTML body, and it is shorter than the sanitised HTML it was made from. -/
def HtmlCut : Prop :=
  ∃ html, (fromImapMsg env html2text now maxBodyBytes msg).bodyHtml = some html ∧
    html.length < (sanitizeEmailHtml env msg.html).length

/-- The flag says whether one of the stored parts is cut. -/
def TruncatedExactly : Prop :=
  (fromImapMsg env html2text now maxBodyBytes msg).bodyTruncated = true ↔
    TextCut env html2text now maxBodyBytes msg ∨ HtmlCut env html2text now maxBodyBytes msg

theorem bodyText_fromImapMsg :
    (fromImapMsg env html2text now maxBodyBytes msg).bodyText =
      fit maxBodyBytes (fullText html2text msg) :=
  truncateBody_fst

/-- The stored HTML body is the longest start of the sanitised HTML that fits into the budget;
there is none if there is no sanitised HTML. -/
theorem bodyHtml_fromImapMsg :
    (fromImapMsg env html2text now maxBodyBytes msg).bodyHtml =
      if sanitizeEmailHtml env msg.html = [] then none
      else some (fit maxBodyBytes (sanitizeEmailHtml env msg.html)) := by
  rw [← truncateBody_fst]
  unfold fromImapMsg
  simp only
  split_ifs with hhtml hempty hempty
  · rfl
  · exact absurd (by rw [hhtml]; rfl) hempty
  · rfl
  · rfl

theorem length_encode_bodyText_le :
    (encode (fromImapMsg env html2text now maxBodyBytes msg).bodyText).length ≤ maxBodyBytes := by
  rw [bodyText_fromImapMsg]
  exact length_encode_fit_le _ _

theorem length_encode_bodyHtml_le {html : Text}
    (h : (fromImapMsg env html2text now maxBodyBytes msg).bodyHtml = some html) :
    (encode html).length ≤ maxBodyBytes := by
  rw [bodyHtml_fromImapMsg] at h
  split_ifs at h
  obtain rfl := Option.some.inj h
  exact length_encode_fit_le _ _

theorem textCut_iff :
    TextCut env html2text now maxBodyBytes msg ↔
      maxBodyBytes < (encode (fullText html2text msg)).length := by
  rw [TextCut, bodyText_fromImapMsg, length_fit_lt_iff]

theorem htmlCut_iff :
    HtmlCut env html2text now maxBodyBytes msg ↔
      maxBodyBytes < (encode (sanitizeEmailHtml env msg.html)).length := by
  rw [HtmlCut, bodyHtml_fromImapMsg]
  split_ifs with hempty
  · rw [hempty]
    constructor
    · rintro ⟨html, hnone, -⟩
      cases hnone
    · exact fun hlt => absurd hlt (Nat.not_lt_zero _)
  · constructor
    · rintro ⟨html, hsome, hlt⟩
      obtain rfl := Option.some.inj hsome
      exact length_fit_lt_iff.mp hlt
    · exact fun hlt => ⟨_, rfl, length_fit_lt hlt⟩

/-- The flag is the cut of the text. -/
theorem bodyTruncated_iff_textCut :
    (fromImapMsg env html2text now maxBodyBytes msg).bodyTruncated = true ↔
      TextCut env html2text now maxBodyBytes msg := by
  rw [textCut_iff]
  exact truncateBody_snd

/-- **When the flag is exact.** It says whether a stored part is cut exactly if the sanitised HTML
fits into the budget, or the text does not. -/
theorem truncatedExactly_iff :
    TruncatedExactly env html2text now maxBodyBytes msg ↔
      (encode (sanitizeEmailHtml env msg.html)).length ≤ maxBodyBytes ∨
        maxBodyBytes < (encode (fullText html2text msg)).length := by
  rw [TruncatedExactly, bodyTruncated_iff_textCut, htmlCut_iff, textCut_iff]
  constructor
  · intro hexact
    by_contra hnot
    rw [not_or, Nat.not_le] at hnot
    exact hnot.2 (hexact.mpr (Or.inr hnot.1))
  · rintro (hfits | hcut)
    · exact ⟨Or.inl, fun hor => hor.resolve_right (Nat.not_lt.mpr hfits)⟩
    · exact iff_of_true hcut (Or.inl hcut)

/-! ## A newsletter with a short text part -/

/-- A table with the references that rendered text needs. -/
def escapeRefs (name : Text) : Option Text :=
  (attrEscapes ++ dataEscapes).findSome? fun e => if e.2 = name then some [e.1] else none

theorem knows_escapeRefs : Knows escapeRefs attrEscapes where
  proper := attrEscapes_proper
  amp := by decide
  refs_eq := by decide

/-- An environment that tokenizes a body without markup. -/
def plainEnv : HtmlEnv where
  isWord c := c.isAlphanum || c = '_'
  parse html := [.data (html.map .lit)]
  refs := escapeRefs
  knows_attr := knows_escapeRefs

/-- A message with a text part of two characters and an HTML part of 1025. -/
def longHtmlMessage : MailMessage where
  uid := some 1
  text := "hi".toList
  html := List.replicate 1025 'x'

/-- Of a long HTML part a start is stored, and the flag says that nothing is cut. -/
theorem html_cut_not_flagged :
    ¬ ∀ (env : HtmlEnv) (html2text : Text → Text) (now : Instant) (maxBodyBytes : ℕ)
      (msg : MailMessage), 1024 ≤ maxBodyBytes → maxBodyBytes ≤ 10485760 →
        TruncatedExactly env html2text now maxBodyBytes msg := by
  intro h
  have hexact := h plainEnv id 0 1024 longHtmlMessage (Nat.le_refl _) (by decide)
  rw [TruncatedExactly, bodyTruncated_iff_textCut, htmlCut_iff, textCut_iff] at hexact
  have hhtml : 1024 < (encode (sanitizeEmailHtml plainEnv longHtmlMessage.html)).length := by
    decide +kernel
  have htext : ¬ 1024 < (encode (fullText id longHtmlMessage)).length := by decide
  exact htext (hexact.mpr (Or.inr hhtml))

end ImapFetcher

end MailAggregator
