import MailAggregator.Lib.Utf8
import MailAggregator.Repositories.Messages
import MailAggregator.Shared.HtmlSanitize

set_option relaxedAutoImplicit false
set_option autoImplicit false

/-!
# The IMAP fetcher

The decisions of `fetch_blocking`: which UIDs a session fetches, what is taken from a fetched
message, and which watermark the session ends with.

## Main definitions

* `MailAggregator.ImapFetcher.FetchedMessage`, `ImapFetcher.FetchedBox`.
* `MailAggregator.ImapFetcher.fromImapMsg` — what is taken from one message.
* `MailAggregator.ImapFetcher.doInitial`, `ImapFetcher.incrementalUids`,
  `ImapFetcher.finalUidnext` — the decisions of one session.

## Main results

* `MailAggregator.ImapFetcher.finalUidnext_derived` — a watermark that is derived from a batch is
  one above a UID of the batch.
-/

namespace MailAggregator

open PyText HtmlSanitize

namespace ImapFetcher

/-! ## Messages -/

/-- A parsed date: the wall-clock time, and the offset from UTC if there is one. -/
structure MailDate where
  wallClock : Instant
  utcOffset : Option ℤ
  deriving DecidableEq, Repr

/-- The instant of a date; a date without an offset is taken as UTC. -/
def MailDate.toInstant (d : MailDate) : Instant := d.wallClock - d.utcOffset.getD 0

/-- A parsed address. -/
structure EmailAddress where
  name : Text
  email : Text
  deriving DecidableEq, Repr

/-- What `imap-tools` parsed from one message. Header names are in lower case. -/
structure MailMessage where
  uid : Option ℕ
  headers : List (Text × Text) := []
  from_ : Text := []
  fromValues : Option EmailAddress := none
  to_ : List Text := []
  cc : List Text := []
  subject : Text := []
  date : Option MailDate := none
  text : Text := []
  html : Text := []
  deriving DecidableEq, Repr

/-- `FetchedMessage`. -/
structure FetchedMessage where
  uid : ℕ
  messageIdHeader : Option Text := none
  fromAddr : Text := []
  fromName : Option Text := none
  toAddrs : Text := []
  ccAddrs : Option Text := none
  subject : Option Text := none
  internalDate : Instant := 0
  bodyText : Text := []
  bodyHtml : Option Text := none
  bodyTruncated : Bool := false
  bodyPresent : Bool := true
  inReplyTo : Option Text := none
  refsHeader : Option Text := none
  deriving DecidableEq, Repr

/-- `FetchedBox`. -/
structure FetchedBox where
  uidvalidity : ℕ
  uidnext : Option ℕ
  newMessages : List FetchedMessage
  deriving DecidableEq, Repr

/-- `_truncate_body`. -/
def truncateBody (body : Text) (maxBytes : ℕ) : Text × Bool :=
  let encoded := Utf8.encode body
  if encoded.length ≤ maxBytes then (body, false)
  else (Utf8.decodeIgnore (encoded.take maxBytes), true)

/-- `value or None`. -/
def orNone (value : Text) : Option Text := if value = [] then none else some value

/-- `", ".join(values)`. -/
def joinComma (values : List Text) : Text := ", ".toList.intercalate values

/-- `_from_imap_msg`. The HTML-to-text converter is a parameter. -/
def fromImapMsg (env : HtmlEnv) (html2text : Text → Text) (now : Instant) (maxBodyBytes : ℕ)
    (msg : MailMessage) : FetchedMessage :=
  let text := if msg.text = [] ∧ msg.html ≠ [] then html2text msg.html else msg.text
  let bodyPresent : Bool := ¬ (text = [] ∧ msg.html = [])
  let clamped := truncateBody (stripInvisiblePadding text) maxBodyBytes
  let bodyHtml :=
    if msg.html = [] then none
    else
      let sanitised := sanitizeEmailHtml env msg.html
      if sanitised = [] then none else some (truncateBody sanitised maxBodyBytes).1
  let fromAddr :=
    match msg.fromValues with
    | some values => if values.email = [] then msg.from_ else values.email
    | none => msg.from_
  { uid := msg.uid.getD 0
    messageIdHeader := msg.headers.lookup "message-id".toList
    fromAddr
    fromName := msg.fromValues.bind fun values => orNone values.name
    toAddrs := joinComma msg.to_
    ccAddrs := if msg.cc = [] then none else some (joinComma msg.cc)
    subject := orNone msg.subject
    internalDate := (msg.date.map MailDate.toInstant).getD now
    bodyText := clamped.1
    bodyHtml
    bodyTruncated := clamped.2
    bodyPresent
    inReplyTo := msg.headers.lookup "in-reply-to".toList
    refsHeader := msg.headers.lookup "references".toList }

/-- The arguments of the insert of a fetched message. -/
def FetchedMessage.values (mailAccountId uidvalidity : ℕ) (m : FetchedMessage) : MessageValues :=
  { mailAccountId
    uid := m.uid
    uidvalidity
    messageIdHeader := m.messageIdHeader
    fromAddr := m.fromAddr
    fromName := m.fromName
    toAddrs := m.toAddrs
    ccAddrs := m.ccAddrs
    subject := m.subject
    internalDate := m.internalDate
    bodyText := m.bodyText
    bodyHtml := m.bodyHtml
    bodyTruncated := m.bodyTruncated
    bodyPresent := m.bodyPresent
    inReplyTo := m.inReplyTo
    refsHeader := m.refsHeader }

/-- The arguments of the inserts of a batch. -/
def FetchedBox.values (mailAccountId : ℕ) (box : FetchedBox) : List MessageValues :=
  box.newMessages.map (FetchedMessage.values mailAccountId box.uidvalidity)

/-! ## The decisions of a session -/

/-- `do_initial`: there is no watermark, or it belongs to another UIDVALIDITY. -/
def doInitial (lastSyncedUidnext lastUidvalidity : Option ℕ) (uidvalidity : ℕ) : Prop :=
  lastSyncedUidnext = none ∨ lastUidvalidity ≠ some uidvalidity

instance (lastSyncedUidnext lastUidvalidity : Option ℕ) (uidvalidity : ℕ) :
    Decidable (doInitial lastSyncedUidnext lastUidvalidity uidvalidity) :=
  inferInstanceAs (Decidable (_ ∨ _))

/-- The UIDs of an incremental search that are fetched: a server may answer `UID n:*` with the
last message although its UID is below `n`. -/
def incrementalUids (lastSyncedUidnext : ℕ) (rawUids : List ℕ) : List ℕ :=
  rawUids.filter fun u => lastSyncedUidnext ≤ u

/-- The number of UIDs that are fetched at a time. -/
def batchSize : ℕ := 50

/-- The final `uidnext`: the one of STATUS, else one above the largest UID of the batch, else the
old watermark. -/
def finalUidnext (statusUidnext : Option ℕ) (newMessages : List FetchedMessage)
    (lastSyncedUidnext : Option ℕ) : Option ℕ :=
  match statusUidnext with
  | some n => some n
  | none =>
    match (newMessages.map FetchedMessage.uid).max? with
    | some u => some (u + 1)
    | none => lastSyncedUidnext

/-- Without a UIDNEXT from STATUS, and with a batch, the final `uidnext` is one above a UID of the
batch. -/
theorem finalUidnext_derived {newMessages : List FetchedMessage} {lastSyncedUidnext : Option ℕ}
    {n : ℕ} (hne : newMessages ≠ [])
    (h : finalUidnext none newMessages lastSyncedUidnext = some n) :
    ∃ m ∈ newMessages, m.uid + 1 = n := by
  unfold finalUidnext at h
  cases hmax : (newMessages.map FetchedMessage.uid).max? with
  | none =>
    rw [List.max?_eq_none_iff, List.map_eq_nil_iff] at hmax
    exact absurd hmax hne
  | some u =>
    rw [hmax] at h
    obtain ⟨m, hm, hu⟩ := List.mem_map.mp (List.max?_mem hmax)
    exact ⟨m, hm, hu ▸ Option.some.inj h⟩

end ImapFetcher

end MailAggregator
