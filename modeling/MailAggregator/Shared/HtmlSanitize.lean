import MailAggregator.Lib.HtmlText

set_option relaxedAutoImplicit false
set_option autoImplicit false

/-!
# HTML sanitisation of incoming bodies

Three rewrites in a row: a regular-expression pre-strip of blocks whose content must go, the
whitelist cleaner with its check of URL schemes, and the deletion of invisible padding.

## Main definitions

* `MailAggregator.HtmlSanitize.prestripUnsafeBlocks` — the pre-strip.
* `MailAggregator.HtmlSanitize.bleachClean` — the whitelist cleaner.
* `MailAggregator.HtmlSanitize.stripInvisiblePadding` — the deletion of padding.
* `MailAggregator.HtmlSanitize.sanitizeEmailHtml` — the three in their order.

## Design

The regular expressions are matched by functions that return what is left after the leftmost
match at the start of a text. The cleaner's tokenizer and the tables of the runtime and of HTML
are fields of `HtmlEnv`; its whitelist, its URL check and its serialiser are written out. The
serialiser here always writes double quotes around a value and `&quot;` for a double quote in it.
Where a value has a double quote and no single one, that of the library takes single quotes and
leaves the double quote as it is; both texts are read back to the same value.
-/

namespace MailAggregator

open PyText HtmlText

namespace HtmlSanitize

/-- The parts outside this repository: what `\w` matches, the tokenizer and tree builder of the
cleaner, and the table of character references. -/
structure HtmlEnv where
  /-- A character that `\w` matches. -/
  isWord : Char → Bool
  /-- The tokens of a body, before any of them is cleaned. -/
  parse : Text → List Token
  /-- The characters of a reference, by the name between `&` and `;`. -/
  refs : Text → Option Text
  /-- The references that the serialiser writes. -/
  knows_attr : Knows refs attrEscapes

/-! ## The pre-strip -/

/-- The elements that `_DROP_TAG_CONTENT_RE` removes with their content. -/
def dropTags : List Text :=
  ["style", "script", "head", "title", "meta", "link", "noscript", "svg", "canvas", "iframe",
    "object", "embed", "form", "input", "button", "select", "textarea"].map String.toList

/-- The void elements that `_DROP_SELF_CLOSING_RE` removes. -/
def dropVoidTags : List Text := ["meta", "link", "base"].map String.toList

/-- The single lower-case character that a case-insensitive comparison of two characters of the
text goes through. -/
def lowerOne (c : Char) : Char :=
  if c = '\u212A' then 'k' else if c = '\u0130' then 'i'
  else if 'A' ≤ c ∧ c ≤ 'Z' then Char.ofNat (c.toNat + 32) else c

/-- A letter of a pattern matches a character, ignoring case. Beside the two cases of the letter,
`i` matches the dotless i and `s` the long s. -/
def matchesLetter (p c : Char) : Bool :=
  lowerOne c = p || (p = 'i' && c = '\u0131') || (p = 's' && c = '\u017F')

/-- What is left after a literal word, ignoring case, and the characters it matched. -/
def matchWord : Text → Text → Option (Text × Text)
  | [], text => some ([], text)
  | _ :: _, [] => none
  | p :: ps, c :: cs =>
    if matchesLetter p c then (matchWord ps cs).map fun r => (c :: r.1, r.2) else none

/-- What is left after a backreference, ignoring case. -/
def matchBackref : Text → Text → Option Text
  | [], text => some text
  | _ :: _, [] => none
  | p :: ps, c :: cs => if lowerOne p = lowerOne c then matchBackref ps cs else none

/-- What is left after a literal character. -/
def matchChar (p : Char) : Text → Option Text
  | c :: cs => if c = p then some cs else none
  | [] => none

/-- `\s*`. -/
def skipSpace (text : Text) : Text := text.dropWhile isSpace

/-- `\b` after a letter. -/
def atBoundary (isWord : Char → Bool) : Text → Bool
  | c :: _ => !isWord c
  | [] => true

/-- `<\s*(a|b|…)\b`: the first of the words that matches, and what is left. No word is the start
of another, so no later one can match where the first does. -/
def matchOpen (isWord : Char → Bool) (words : List Text) (text : Text) : Option (Text × Text) :=
  match matchChar '<' text with
  | none => none
  | some cs => words.findSome? fun w =>
      match matchWord w (skipSpace cs) with
      | some (matched, rest) => if atBoundary isWord rest then some (matched, rest) else none
      | none => none

/-- `[^>]*>`: what is left after the next `>`. -/
def afterGt : Text → Option Text
  | [] => none
  | c :: cs => if c = '>' then some cs else afterGt cs

/-- `<\s*/\s*\1\s*>`. -/
def matchClose (name text : Text) : Option Text := do
  let cs ← matchChar '<' text
  let cs ← matchChar '/' (skipSpace cs)
  let cs ← matchBackref name (skipSpace cs)
  matchChar '>' (skipSpace cs)

/-- `.*?` before a pattern: what is left after the first place where it matches. -/
def findFirst (m : Text → Option Text) : Text → Option Text
  | [] => m []
  | c :: cs =>
    match m (c :: cs) with
    | some rest => some rest
    | none => findFirst m cs

/-- `_DROP_TAG_CONTENT_RE` at the start of a text. -/
def matchBlock (isWord : Char → Bool) (text : Text) : Option Text := do
  let (name, rest) ← matchOpen isWord dropTags text
  let content ← afterGt rest
  findFirst (matchClose name) content

/-- `_DROP_HTML_COMMENT_RE` at the start of a text. -/
def matchComment (text : Text) : Option Text := do
  let cs ← matchChar '<' text
  let cs ← matchChar '!' cs
  let cs ← matchChar '-' cs
  let cs ← matchChar '-' cs
  findFirst (fun t => do
    let t ← matchChar '-' t
    let t ← matchChar '-' t
    matchChar '>' t) cs

/-- `_DROP_SELF_CLOSING_RE` at the start of a text. -/
def matchVoid (isWord : Char → Bool) (text : Text) : Option Text := do
  let (_, rest) ← matchOpen isWord dropVoidTags text
  afterGt rest

/-- `re.sub("", text)`: the text without the leftmost matches. The skipped characters of a match
are counted in `skip`. -/
def subEmpty (m : Text → Option Text) : ℕ → Text → Text
  | _, [] => []
  | skip + 1, _ :: cs => subEmpty m skip cs
  | 0, c :: cs =>
    match m (c :: cs) with
    | some rest => subEmpty m (cs.length - rest.length) cs
    | none => c :: subEmpty m 0 cs

/-- `_prestrip_unsafe_blocks`. -/
def prestripUnsafeBlocks (isWord : Char → Bool) (html : Text) : Text :=
  if html = [] then html
  else subEmpty (matchVoid isWord) 0 (subEmpty matchComment 0 (subEmpty (matchBlock isWord) 0 html))

/-! ## The whitelist cleaner -/

/-- `_EMAIL_ALLOWED_TAGS`. -/
def emailAllowedTags : List Text :=
  ["a", "br", "p", "div", "span", "b", "strong", "i", "em", "u", "ul", "ol", "li", "blockquote",
    "h1", "h2", "h3", "h4", "h5", "h6", "table", "thead", "tbody", "tr", "td", "th", "img", "hr",
    "code", "pre", "sub", "sup", "small"].map String.toList

/-- `_EMAIL_ALLOWED_ATTRS`, as tag and attributes. -/
def emailAllowedAttrs : List (Text × List Text) :=
  [("a", ["href", "title", "target", "rel"]), ("img", ["src", "alt", "title", "width", "height"]),
    ("td", ["colspan", "rowspan", "align"]), ("th", ["colspan", "rowspan", "align"]),
    ("span", ["class"]), ("div", ["class"]), ("p", ["class"])].map
      fun e => (e.1.toList, e.2.map String.toList)

/-- `_EMAIL_ALLOWED_PROTOCOLS`. -/
def emailAllowedProtocols : List Text := ["http", "https", "mailto"].map String.toList

/-- The attributes of the whitelist whose values are URLs. -/
def urlAttrs : List Text := ["href", "src"].map String.toList

/-- The attributes that a tag may keep. -/
def allowedAttrsOf (tag : Text) : List Text := (emailAllowedAttrs.lookup tag).getD []

/-- A character that may stand in the name of a URL scheme. -/
def isSchemeChar (c : Char) : Bool := c.isAlphanum || c ∈ ['+', '-', '.']

/-- A well-formed name of a URL scheme: a letter, then letters, digits, `+`, `-` and `.`. -/
def IsSchemeName : Text → Prop
  | [] => False
  | c :: cs => c.isAlpha = true ∧ ∀ d ∈ cs, isSchemeChar d = true

instance : DecidablePred IsSchemeName
  | [] => inferInstanceAs (Decidable False)
  | c :: cs => inferInstanceAs (Decidable (c.isAlpha = true ∧ ∀ d ∈ cs, isSchemeChar d = true))

/-- The characters that the cleaner's URL check deletes. -/
def isJunk (c : Char) : Bool :=
  c = '`' || c.toNat ≤ 32 || (127 ≤ c.toNat && c.toNat ≤ 160) || isSpace c || c = '\uFFFD'

/-- What the cleaner's URL check looks at. -/
def normaliseUri (value : Text) : Text := lower (value.filter fun c => !isJunk c)

/-- The text before the first colon, if there is a colon. -/
def beforeColon (text : Text) : Option Text :=
  if ':' ∈ text then some (text.takeWhile fun c => c ≠ ':') else none

/-- The cleaner keeps a URL value, given with its references decoded: the text before the first
colon is not a scheme name, or is the name of an allowed scheme. -/
def KeepsUri (value : Text) : Prop :=
  ∀ scheme ∈ beforeColon (normaliseUri value),
    IsSchemeName scheme → scheme ∈ emailAllowedProtocols

instance (value : Text) : Decidable (KeepsUri value) :=
  inferInstanceAs (Decidable (∀ scheme ∈ beforeColon (normaliseUri value),
    IsSchemeName scheme → scheme ∈ emailAllowedProtocols))

/-- The cleaner keeps an attribute of a tag. -/
def KeepsAttr (env : HtmlEnv) (tag : Text) (attr : Text × List Piece) : Prop :=
  attr.1 ∈ allowedAttrsOf tag ∧ (attr.1 ∈ urlAttrs → KeepsUri (decodePieces env.refs attr.2))

instance (env : HtmlEnv) (tag : Text) (attr : Text × List Piece) :
    Decidable (KeepsAttr env tag attr) :=
  inferInstanceAs (Decidable (_ ∧ _))

/-- One token after cleaning: a tag that is not allowed is dropped, its content stays. -/
def cleanToken (env : HtmlEnv) : Token → Option Token
  | .startTag name attrs =>
    if name ∈ emailAllowedTags then
      some (.startTag name (attrs.filter fun a => KeepsAttr env name a))
    else none
  | .endTag name => if name ∈ emailAllowedTags then some (.endTag name) else none
  | .data pieces => some (.data pieces)

/-- `bleach.clean(html, tags=…, attributes=…, protocols=…, strip=True)`: each token that the parser
yields is kept, dropped or stripped of attributes by the whitelist, and what is left is rendered
with double-quoted values (the library quotes a value that has a double quote and no single one
with single quotes). -/
def bleachClean (env : HtmlEnv) (html : Text) : Text :=
  render ((env.parse html).filterMap (cleanToken env))

/-! ## The padding -/

/-- `_INVISIBLE_PADDING_CODEPOINTS`. -/
def invisiblePaddingCodepoints : List Char :=
  ['\u200B', '\u200C', '\u200D', '\u200E', '\u200F', '\u2060', '\uFEFF']

/-- A character that is kept. -/
def notPadding (c : Char) : Bool := c ∉ invisiblePaddingCodepoints

/-- `strip_invisible_padding`. -/
def stripInvisiblePadding (text : Text) : Text :=
  if text = [] then text else text.filter notPadding

/-- `sanitize_email_html`. -/
def sanitizeEmailHtml (env : HtmlEnv) (html : Text) : Text :=
  if html = [] then []
  else stripInvisiblePadding (bleachClean env (prestripUnsafeBlocks env.isWord html))

theorem stripInvisiblePadding_eq (text : Text) :
    stripInvisiblePadding text = text.filter notPadding := by
  unfold stripInvisiblePadding
  split_ifs with h
  · rw [h]
    rfl
  · rfl

end HtmlSanitize

end MailAggregator
