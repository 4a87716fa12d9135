import MailAggregator.CrmPush.DeliveryMark
import MailAggregator.CrmPush.StatusChannel
import MailAggregator.Lib.Calendar
import MailAggregator.Lib.JsonText
import MailAggregator.Lib.Utf8

set_option relaxedAutoImplicit false
set_option autoImplicit false

/-!
# The signed requests to the CRM

Three channels post JSON to the CRM: new messages, the status of a mailbox, and the binding of a
mailbox that was linked with OAuth. They share one secret. The signature covers the timestamp and
the bytes of the body, and neither the path nor the channel.

## Main definitions

* `MailAggregator.CrmPush.PostBody` — what the three channels post.
* `MailAggregator.CrmPush.serialize` — the bytes of a body.
* `MailAggregator.CrmPush.macInput`, `MailAggregator.CrmPush.buildSignature` — what is signed, and
  the signature.

## Main results

* `MailAggregator.CrmPush.value_injective` — the JSON determines the channel and the content.
* `MailAggregator.CrmPush.macInput_eq_iff` — so does what is signed, and the timestamp with them.
-/

namespace MailAggregator

open PyText JsonText Utf8

namespace CrmPush

/-! ## The bodies -/

/-- `_iso`, of a point in time. -/
def iso (value : Instant) : Text := Calendar.isoUtc value

/-- A text, or null. -/
def strOrNull : Option Text → Value
  | none => .null
  | some text => .str text

/-- `_iso_or_none`. -/
def isoOrNone (value : Option Instant) : Option Text := value.map iso

/-- The dictionary of `_message_to_ingest`. -/
def IngestMessage.value (m : IngestMessage) : Value :=
  .obj [("mail_account_id".toList, .int m.mailAccountId),
    ("uidvalidity".toList, .int m.uidvalidity),
    ("uid".toList, .int m.uid),
    ("message_id_header".toList, strOrNull m.messageIdHeader),
    ("subject".toList, strOrNull m.subject),
    ("from_addr".toList, .str m.fromAddr),
    ("from_name".toList, strOrNull m.fromName),
    ("to_addrs".toList, .str m.toAddrs),
    ("cc_addrs".toList, strOrNull m.ccAddrs),
    ("internal_date".toList, .str (iso m.internalDate)),
    ("body_text".toList, .str m.bodyText),
    ("body_html".toList, strOrNull m.bodyHtml),
    ("in_reply_to".toList, strOrNull m.inReplyTo),
    ("refs_header".toList, strOrNull m.refsHeader)]

/-- The dictionary of `_account_to_status`. -/
def statusValue (s : CrmStatus.MailboxStatus) : Value :=
  .obj [("mail_account_id".toList, .int s.mailAccountId),
    ("is_active".toList, .bool s.isActive),
    ("last_synced_at".toList, strOrNull (isoOrNone s.lastSyncedAt)),
    ("last_sync_error".toList, strOrNull s.lastSyncError),
    ("consecutive_failures".toList, .int s.consecutiveFailures)]

/-- The arguments of `notify_crm_oauth_ingest`. -/
structure OauthBinding where
  crmState : Text
  mailAccountId : ℕ
  email : Text
  displayName : Option Text
  isActive : Bool
  deriving DecidableEq, Repr

/-- The dictionary of `notify_crm_oauth_ingest`. -/
def OauthBinding.value (b : OauthBinding) : Value :=
  .obj [("crm_state".toList, .str b.crmState),
    ("mail_account_id".toList, .int b.mailAccountId),
    ("email".toList, .str b.email),
    ("display_name".toList, strOrNull b.displayName),
    ("is_active".toList, .bool b.isActive)]

/-- What the three channels post. -/
inductive PostBody where
  | ingest (messages : List IngestMessage)
  | mailboxStatus (status : CrmStatus.MailboxStatus)
  | oauthIngest (binding : OauthBinding)
  deriving DecidableEq, Repr

/-- The JSON of a body. -/
def PostBody.value : PostBody → Value
  | .ingest messages => .obj [("messages".toList, .arr (messages.map IngestMessage.value))]
  | .mailboxStatus status => statusValue status
  | .oauthIngest binding => binding.value

/-- `_serialize`. -/
def serialize (body : Value) : List Byte := encode (dumps false body)

/-- The `mac_input` of `build_signature`. -/
def macInput (timestamp : ℤ) (rawBody : List Byte) : List Byte :=
  encode (intRepr timestamp) ++ (encode ['.'] ++ rawBody)

/-- `build_signature`, over the HMAC-SHA256 of the library. -/
def buildSignature (hmac : List Byte → List Byte → Text) (secret : Text) (timestamp : ℤ)
    (rawBody : List Byte) : Text :=
  hmac (encode secret) (macInput timestamp rawBody)

/-- The points in time of a body are those of a `datetime`. -/
def PostBody.InRange : PostBody → Prop
  | .ingest messages => ∀ m ∈ messages, Calendar.InRange m.internalDate
  | .mailboxStatus status => ∀ t ∈ status.lastSyncedAt, Calendar.InRange t
  | .oauthIngest _ => True

/-! ## The JSON determines the content -/

@[simp] theorem exact_strOrNull (text : Option Text) : (strOrNull text).Exact := by
  cases text <;> trivial

theorem strOrNull_injective : Function.Injective strOrNull := by
  rintro (_ | text) (_ | text') h
  · rfl
  · cases h
  · cases h
  · exact congrArg some (Value.str.inj h)

@[simp] theorem strOrNull_inj {text text' : Option Text} :
    strOrNull text = strOrNull text' ↔ text = text' :=
  strOrNull_injective.eq_iff

theorem itemsExact_map {α : Type*} {f : α → Value} (h : ∀ a, (f a).Exact) (as : List α) :
    ItemsExact (as.map f) := by
  induction as with
  | nil => trivial
  | cons a as ih => exact ⟨h a, ih⟩

/-- A body has no floats. -/
theorem PostBody.exact_value (body : PostBody) : body.value.Exact := by
  cases body with
  | ingest messages =>
    refine ⟨itemsExact_map (fun m => ?_) messages, trivial⟩
    simp [IngestMessage.value, Value.Exact, FieldsExact]
  | mailboxStatus status => simp [PostBody.value, statusValue, Value.Exact, FieldsExact]
  | oauthIngest binding => simp [PostBody.value, OauthBinding.value, Value.Exact, FieldsExact]

theorem ingestMessage_value_injective {m m' : IngestMessage}
    (hm : Calendar.InRange m.internalDate) (hm' : Calendar.InRange m'.internalDate)
    (h : m.value = m'.value) : m = m' := by
  cases m
  cases m'
  simp only [IngestMessage.value, Value.obj.injEq, List.cons.injEq, Prod.mk.injEq, true_and,
    Value.int.injEq, Value.str.injEq, strOrNull_inj, Nat.cast_inj, and_true] at h
  obtain ⟨rfl, rfl, rfl, rfl, rfl, rfl, rfl, rfl, rfl, hdate, rfl, rfl, rfl, rfl⟩ := h
  obtain rfl := Calendar.isoUtc_injective hm hm' hdate
  rfl

theorem isoOrNone_injective {t t' : Option Instant} (ht : ∀ i ∈ t, Calendar.InRange i)
    (ht' : ∀ i ∈ t', Calendar.InRange i) (h : isoOrNone t = isoOrNone t') : t = t' := by
  cases t with
  | none =>
    cases t' with
    | none => rfl
    | some i => cases h
  | some i =>
    cases t' with
    | none => cases h
    | some i' =>
      rw [Calendar.isoUtc_injective (ht i rfl) (ht' i' rfl) (Option.some.inj h)]

theorem statusValue_injective {s s' : CrmStatus.MailboxStatus}
    (hs : ∀ t ∈ s.lastSyncedAt, Calendar.InRange t)
    (hs' : ∀ t ∈ s'.lastSyncedAt, Calendar.InRange t) (h : statusValue s = statusValue s') :
    s = s' := by
  cases s
  cases s'
  simp only [statusValue, Value.obj.injEq, List.cons.injEq, Prod.mk.injEq, true_and,
    Value.int.injEq, Value.bool.injEq, strOrNull_inj, Nat.cast_inj, and_true] at h
  obtain ⟨rfl, rfl, hsynced, rfl, rfl⟩ := h
  obtain rfl := isoOrNone_injective hs hs' hsynced
  rfl

theorem oauthBinding_value_injective : Function.Injective OauthBinding.value := by
  intro b b' h
  cases b
  cases b'
  simp only [OauthBinding.value, Value.obj.injEq, List.cons.injEq, Prod.mk.injEq, true_and,
    Value.int.injEq, Value.str.injEq, Value.bool.injEq, strOrNull_inj, Nat.cast_inj, and_true] at h
  obtain ⟨rfl, rfl, rfl, rfl, rfl⟩ := h
  rfl

/-- The JSON of a batch determines its messages. -/
theorem map_value_injective {messages messages' : List IngestMessage}
    (hm : ∀ m ∈ messages, Calendar.InRange m.internalDate)
    (hm' : ∀ m ∈ messages', Calendar.InRange m.internalDate)
    (h : messages.map IngestMessage.value = messages'.map IngestMessage.value) :
    messages = messages' := by
  induction messages generalizing messages' with
  | nil => exact (List.map_eq_nil_iff.mp h.symm).symm
  | cons m messages ih =>
    cases messages' with
    | nil => cases h
    | cons m' messages' =>
      rw [List.map_cons, List.map_cons, List.cons.injEq] at h
      rw [ingestMessage_value_injective (hm m List.mem_cons_self) (hm' m' List.mem_cons_self) h.1,
        ih (fun m hmem => hm m (List.mem_cons_of_mem _ hmem))
          (fun m hmem => hm' m (List.mem_cons_of_mem _ hmem)) h.2]

/-- **The JSON of a body determines the channel and the content.** -/
theorem value_injective {body body' : PostBody} (hb : body.InRange) (hb' : body'.InRange)
    (h : body.value = body'.value) : body = body' := by
  cases body with
  | ingest messages =>
    cases body' with
    | ingest messages' =>
      simp only [PostBody.value, Value.obj.injEq, List.cons.injEq, Prod.mk.injEq, true_and,
        Value.arr.injEq, and_true] at h
      rw [map_value_injective hb hb' h]
    | mailboxStatus => simp [PostBody.value, statusValue] at h
    | oauthIngest => simp [PostBody.value, OauthBinding.value] at h
  | mailboxStatus status =>
    cases body' with
    | ingest => simp [PostBody.value, statusValue] at h
    | mailboxStatus status' => rw [statusValue_injective hb hb' h]
    | oauthIngest => simp [PostBody.value, statusValue, OauthBinding.value] at h
  | oauthIngest binding =>
    cases body' with
    | ingest => simp [PostBody.value, OauthBinding.value] at h
    | mailboxStatus => simp [PostBody.value, statusValue, OauthBinding.value] at h
    | oauthIngest binding' => rw [oauthBinding_value_injective h]

/-! ## What is signed determines the request -/

/-- A number is written without a dot. -/
theorem dot_not_mem_intRepr (n : ℤ) : '.' ∉ intRepr n := by
  have hdigits : ∀ n : ℕ, '.' ∉ ofNat n := fun n hmem =>
    absurd (isDigit_of_mem hmem) (by decide)
  cases n with
  | ofNat n => exact hdigits n
  | negSucc n =>
    rw [intRepr, List.mem_cons, not_or]
    exact ⟨by decide, hdigits (n + 1)⟩

theorem intRepr_injective : Function.Injective intRepr := fun m n h =>
  Value.int.inj (dumps_injective false (v := .int m) (w := .int n) trivial trivial h)

/-- A separator that is in neither of two texts splits them off. -/
theorem append_cons_inj {α : Type*} {c : α} {xs xs' ys ys' : List α} (h : c ∉ xs) (h' : c ∉ xs')
    (heq : xs ++ c :: ys = xs' ++ c :: ys') : xs = xs' ∧ ys = ys' := by
  induction xs generalizing xs' with
  | nil =>
    cases xs' with
    | nil => exact ⟨rfl, (List.cons.inj heq).2⟩
    | cons x' xs' => exact absurd ((List.cons.inj heq).1 ▸ List.mem_cons_self) h'
  | cons x xs ih =>
    cases xs' with
    | nil => exact absurd ((List.cons.inj heq).1 ▸ List.mem_cons_self) h
    | cons x' xs' =>
      have hcons := List.cons.inj heq
      have hrest := ih (List.not_mem_of_not_mem_cons h) (List.not_mem_of_not_mem_cons h') hcons.2
      exact ⟨by rw [hcons.1, hrest.1], hrest.2⟩

/-- What is signed is the encoding of a text. -/
theorem macInput_serialize (timestamp : ℤ) (body : Value) :
    macInput timestamp (serialize body) =
      encode (intRepr timestamp ++ '.' :: dumps false body) := by
  simp [macInput, serialize, encode]

/-- A receiver reads the body that was posted in the signed bytes. -/
theorem loads_serialize (body : PostBody) :
    (decode (serialize body.value)).bind loads = some body.value := by
  rw [serialize, decode_encode, Option.bind_some, loads_dumps false body.exact_value]

/-- **What is signed determines the request.** Two requests over which the same bytes are signed
have the same timestamp, go to the same channel, and say the same.

**Proof sketch.** The bytes are those of a text, which ends the timestamp at its first dot. What
follows is JSON without floats, which is read back; and the keys of the three channels differ. -/
theorem macInput_eq_iff {timestamp timestamp' : ℤ} {body body' : PostBody} (hb : body.InRange)
    (hb' : body'.InRange) :
    macInput timestamp (serialize body.value) = macInput timestamp' (serialize body'.value) ↔
      timestamp = timestamp' ∧ body = body' := by
  constructor
  · intro h
    rw [macInput_serialize, macInput_serialize] at h
    have htext := congrArg decode h
    rw [decode_encode, decode_encode, Option.some.injEq] at htext
    obtain ⟨htime, hjson⟩ :=
      append_cons_inj (dot_not_mem_intRepr timestamp) (dot_not_mem_intRepr timestamp') htext
    have hvalue := dumps_injective false body.exact_value body'.exact_value hjson
    exact ⟨intRepr_injective htime, value_injective hb hb' hvalue⟩
  · rintro ⟨rfl, rfl⟩
    rfl

/-- The status of a mailbox. -/
def someStatus : PostBody :=
  .mailboxStatus
    { mailAccountId := 7, isActive := true, lastSyncedAt := some 1784118896123456,
      lastSyncError := none, consecutiveFailures := 0 }

/-- The binding of the same mailbox. -/
def someBinding : PostBody :=
  .oauthIngest
    { crmState := "s".toList, mailAccountId := 7, email := "a@b.c".toList, displayName := none,
      isActive := true }

/-- A status and a binding of one mailbox, posted in the same second, are signed differently. -/
theorem macInput_eq_iff_channels :
    macInput 1784118896 (serialize someStatus.value) ≠
      macInput 1784118896 (serialize someBinding.value) := by
  have hstatus : someStatus.InRange := by
    rintro t ⟨⟩
    decide
  have hbinding : someBinding.InRange := trivial
  exact fun h => absurd ((macInput_eq_iff hstatus hbinding).mp h).2 (by decide)

end CrmPush

end MailAggregator
