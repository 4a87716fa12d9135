import MailAggregator.Lib.HtmlCut
import MailAggregator.Shared.UrlSafety
import MailAggregator.Worker.BodyTruncation

set_option relaxedAutoImplicit false
set_option autoImplicit false

/-!
# The end of a stored HTML body

The sanitised HTML is cut at a number of bytes, and only a character that is cut there is repaired.
The cut may fall inside a tag or a character reference, which then stays open at the end of the
stored body.

## Main results

* `MailAggregator.ImapFetcher.storedHtml_spec` — where the stored body ends.
* `MailAggregator.ImapFetcher.stored_inside_tag` — a body that ends inside a tag.
-/

namespace MailAggregator

open PyText Utf8 HtmlText HtmlSanitize

namespace ImapFetcher

/-- Text that fits is not split. -/
theorem not_splits_of_fits {n : ℕ} {ps : List Text} (h : (encode ps.flatten).length ≤ n) :
    ¬ Splits n ps := by
  rintro ⟨before, part, after, rfl, -, -, hhi⟩
  rw [List.flatten_append, List.flatten_cons, ← List.append_assoc, encode_append,
    List.length_append] at h
  omega

/-- **The end of a stored HTML body.** It is a start of the sanitised HTML. It ends inside a tag, an
attribute value or a character reference exactly if the budget ends inside a tag or a reference of
the sanitised HTML, and so never if the sanitised HTML fits.

**Proof sketch.** What is stored is the longest start of the sanitised HTML that fits into the
budget, and the sanitised HTML is a rendered document with valid names; where such a text ends is
known part by part. -/
theorem storedHtml_spec (env : HtmlEnv) (html2text : Text → Text) (now : Instant)
    (maxBodyBytes : ℕ) (msg : MailMessage) (html : Text)
    (h : (fromImapMsg env html2text now maxBodyBytes msg).bodyHtml = some html) :
    html <+: sanitizeEmailHtml env msg.html ∧
      (EndsOutside html ↔ ¬ Splits maxBodyBytes (parts (outputTokens env msg.html))) ∧
      ((encode (sanitizeEmailHtml env msg.html)).length ≤ maxBodyBytes →
        html = sanitizeEmailHtml env msg.html ∧ EndsOutside html) := by
  rw [bodyHtml_fromImapMsg] at h
  split_ifs at h with hempty
  obtain rfl := Option.some.inj h
  have hne : msg.html ≠ [] := fun hnil => hempty (by rw [hnil]; rfl)
  have hrender := sanitizeEmailHtml_eq_render env hne
  have hends : EndsOutside (fit maxBodyBytes (sanitizeEmailHtml env msg.html)) ↔
      ¬ Splits maxBodyBytes (parts (outputTokens env msg.html)) := by
    rw [hrender]
    exact endsOutside_fit_render (outputTokens_valid env msg.html) maxBodyBytes
  refine ⟨isPrefix_fit _ _, hends, fun hfits => ⟨fit_eq_self hfits, hends.mpr ?_⟩⟩
  refine not_splits_of_fits ?_
  rwa [flatten_parts, ← hrender]

/-! ## A word in bold type at the end of the budget -/

/-- A message with an HTML part whose second tag stands at the end of the budget. -/
def boldMessage : MailMessage where
  uid := some 1
  text := "hi".toList
  html := List.replicate 1022 'x' ++ "<b>y</b>".toList

/-- An environment that tokenizes the HTML of that message. -/
def boldEnv : HtmlEnv where
  isWord c := c.isAlphanum || c = '_'
  parse _ := [.data (List.replicate 1022 (.lit 'x')), .startTag "b".toList [], .data [.lit 'y'],
    .endTag "b".toList]
  refs := escapeRefs
  knows_attr := knows_escapeRefs

/-- What is stored of it at the smallest budget. -/
def boldStored : Text := List.replicate 1022 'x' ++ "<b".toList

theorem bodyHtml_boldMessage :
    (fromImapMsg boldEnv id 0 1024 boldMessage).bodyHtml = some boldStored := by
  decide +kernel

theorem boldStored_ends :
    boldStored <+: sanitizeEmailHtml boldEnv boldMessage.html ∧
      (EndsOutside boldStored ↔ ¬ Splits 1024 (parts (outputTokens boldEnv boldMessage.html))) ∧
      ((encode (sanitizeEmailHtml boldEnv boldMessage.html)).length ≤ 1024 →
        boldStored = sanitizeEmailHtml boldEnv boldMessage.html ∧ EndsOutside boldStored) :=
  storedHtml_spec boldEnv id 0 1024 boldMessage boldStored bodyHtml_boldMessage

/-- At the smallest budget that the settings allow, the stored body ends inside a tag. -/
theorem stored_inside_tag :
    ¬ ∀ (env : HtmlEnv) (html2text : Text → Text) (now : Instant) (maxBodyBytes : ℕ)
      (msg : MailMessage), 1024 ≤ maxBodyBytes → maxBodyBytes ≤ 10485760 → ∀ html,
        (fromImapMsg env html2text now maxBodyBytes msg).bodyHtml = some html →
          html <+: sanitizeEmailHtml env msg.html ∧ EndsOutside html := by
  intro h
  have hstored := h boldEnv id 0 1024 boldMessage (Nat.le_refl _) (by decide) boldStored
    bodyHtml_boldMessage
  have hinside : ¬ EndsOutside boldStored := by decide +kernel
  exact hinside hstored.2

end ImapFetcher

end MailAggregator
