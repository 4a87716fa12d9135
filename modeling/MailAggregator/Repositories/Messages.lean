import MailAggregator.Lib.Keyset
import MailAggregator.Shared.Models

set_option relaxedAutoImplicit false
set_option autoImplicit false

/-!
# The repository of `messages`

The queries of `MessagesRepo` over a table of rows. A table is a list of rows; the order of the
list is not the order of any query.

## Main definitions

* `MailAggregator.joinAccounts` — `messages JOIN mail_accounts`.
* `MailAggregator.MessagesRepo.listSinceId`, `MessagesRepo.listBeforeId` — the pages of the
  external pull.
* `MailAggregator.MessagesRepo.insertMessageIdempotent` — `INSERT … ON CONFLICT DO NOTHING`.
* `MailAggregator.MessagesRepo.refusal` — the values PostgreSQL and its driver reject.

## Main results

* `MailAggregator.MessagesRepo.map_fst_listSinceId` — over tables with primary keys, a forward
  page is a keyset page of the messages of its mailboxes.
-/

namespace MailAggregator

open PyText

/-- `SELECT … FROM messages JOIN mail_accounts ON mail_accounts.id = messages.mail_account_id`. -/
def joinAccounts (messages : List Message) (accounts : List MailAccount) :
    List (Message × MailAccount) :=
  messages.flatMap fun m => (accounts.filter fun a => a.id = m.mailAccountId).map fun a => (m, a)

theorem mem_joinAccounts {messages : List Message} {accounts : List MailAccount}
    {row : Message × MailAccount} :
    row ∈ joinAccounts messages accounts ↔
      row.1 ∈ messages ∧ row.2 ∈ accounts ∧ row.2.id = row.1.mailAccountId := by
  obtain ⟨m, a⟩ := row
  simp only [joinAccounts, List.mem_flatMap, List.mem_map, List.mem_filter, Prod.mk.injEq,
    decide_eq_true_eq]
  constructor
  · rintro ⟨m, hm, a, ⟨ha, hid⟩, rfl, rfl⟩
    exact ⟨hm, ha, hid⟩
  · rintro ⟨hm, ha, hid⟩
    exact ⟨m, hm, a, ⟨ha, hid⟩, rfl, rfl⟩

/-- Selecting one value of a key of which the list has no duplicates selects one element. -/
theorem filter_eq_singleton {α β : Type*} [DecidableEq β] {f : α → β} {l : List α}
    (hn : (l.map f).Nodup) {a : α} (ha : a ∈ l) : (l.filter fun b => f b = f a) = [a] := by
  induction l with
  | nil => cases ha
  | cons b l ih =>
    rw [List.map_cons, List.nodup_cons] at hn
    rcases List.mem_cons.mp ha with rfl | ha
    · have hnil : (l.filter fun b => f b = f a) = [] := by
        rw [List.filter_eq_nil_iff]
        intro c hc
        rw [decide_eq_true_eq]
        exact fun h => hn.1 (h ▸ List.mem_map_of_mem hc)
      simp [hnil]
    · have hne : f b ≠ f a := fun h => hn.1 (h ▸ List.mem_map_of_mem ha)
      simp [hne, ih hn.2 ha]

/-- Joined with a table of accounts with distinct ids, the messages of existing accounts are
listed once each. -/
theorem map_fst_filter_joinAccounts {messages : List Message} {accounts : List MailAccount}
    {ids : List ℕ} (ha : (accounts.map MailAccount.id).Nodup)
    (hids : ∀ i ∈ ids, i ∈ accounts.map MailAccount.id) :
    ((joinAccounts messages accounts).filter fun row => row.1.mailAccountId ∈ ids).map Prod.fst =
      messages.filter fun m => m.mailAccountId ∈ ids := by
  induction messages with
  | nil => rfl
  | cons m messages ih =>
    rw [joinAccounts, List.flatMap_cons, List.filter_append, List.map_append, ← joinAccounts, ih]
    by_cases hm : m.mailAccountId ∈ ids
    · obtain ⟨a, hmem, hid⟩ := List.mem_map.mp (hids _ hm)
      have hone := filter_eq_singleton ha hmem
      rw [hid] at hone
      simp [hone, hm]
    · simp [List.filter_map, hm]

namespace MessagesRepo

/-- `list_since_id`: the messages of the given mailboxes after an id, oldest first. -/
def listSinceId (messages : List Message) (accounts : List MailAccount)
    (mailAccountIds : List ℕ) (sinceId : ℕ) (limit : ℕ) : List (Message × MailAccount) :=
  if mailAccountIds = [] then []
  else
    Keyset.page (fun row : Message × MailAccount => row.1.id) (some sinceId) limit
      ((joinAccounts messages accounts).filter fun row => row.1.mailAccountId ∈ mailAccountIds)

/-- `list_before_id`: the messages of the given mailboxes before an id, or all of them without
one, newest first. -/
def listBeforeId (messages : List Message) (accounts : List MailAccount)
    (mailAccountIds : List ℕ) (beforeId : Option ℕ) (limit : ℕ) : List (Message × MailAccount) :=
  if mailAccountIds = [] then []
  else
    Keyset.page (fun row : Message × MailAccount => OrderDual.toDual row.1.id)
      (beforeId.map OrderDual.toDual) limit
      ((joinAccounts messages accounts).filter fun row => row.1.mailAccountId ∈ mailAccountIds)

/-! ## Inserting -/

/-- Why the database refuses the values of a row. -/
inductive DataError where
  /-- A `text` value with a U+0000. -/
  | characterNotInRepertoire
  /-- A timestamp whose UTC instant is outside the years 1 to 9999. -/
  | datetimeOverflow
  /-- An integer that does not fit `BIGINT`. -/
  | integerOutOfRange
  deriving DecidableEq, Repr

/-- `0001-01-01T00:00:00Z`. -/
def minDatetime : Instant := -62135596800000000

/-- `9999-12-31T23:59:59.999999Z`. -/
def maxDatetime : Instant := 253402300799999999

/-- The `text` values of a message. -/
def textValues (v : MessageValues) : List Text :=
  v.messageIdHeader.toList ++ [v.fromAddr] ++ v.fromName.toList ++ [v.toAddrs] ++
    v.ccAddrs.toList ++ v.subject.toList ++ [v.bodyText] ++ v.bodyHtml.toList ++
    v.inReplyTo.toList ++ v.refsHeader.toList

/-- The error the database refuses the values with, if it does. -/
def refusal (v : MessageValues) : Option DataError :=
  if 2 ^ 63 ≤ v.mailAccountId ∨ 2 ^ 63 ≤ v.uid ∨ 2 ^ 63 ≤ v.uidvalidity then
    some .integerOutOfRange
  else if v.internalDate < minDatetime ∨ maxDatetime < v.internalDate then
    some .datetimeOverflow
  else if ∃ t ∈ textValues v, '\x00' ∈ t then some .characterNotInRepertoire
  else none

/-- What one insert does: the row it added, if there was no conflict. -/
abbrev Inserted := Option Message

/-- `insert_message_idempotent`: `INSERT … ON CONFLICT (mail_account_id, uidvalidity, uid) DO
NOTHING RETURNING id`, in a transaction that sees `rows`. The id is drawn from the sequence
whether or not there is a conflict. -/
def insertMessageIdempotent (rows : List Message) (nextId : ℕ) (now : Instant)
    (v : MessageValues) : Except DataError Inserted :=
  match refusal v with
  | some e => .error e
  | none =>
    if v.key ∈ rows.map fun m => m.key then .ok none
    else .ok (some { v with id := nextId, fetchedAt := now })

/-- An insert that succeeds adds no row for a key that is taken, and otherwise a row with the
given values, the drawn id and no delivery mark. -/
theorem insertMessageIdempotent_eq_ok {rows : List Message} {nextId : ℕ} {now : Instant}
    {v : MessageValues} {r : Inserted}
    (h : insertMessageIdempotent rows nextId now v = .ok r) :
    refusal v = none ∧
      ((v.key ∈ rows.map (fun m => m.key) ∧ r = none) ∨
        (v.key ∉ rows.map (fun m => m.key) ∧
          r = some { v with id := nextId, fetchedAt := now })) := by
  rw [insertMessageIdempotent] at h
  split at h
  · cases h
  · next hr =>
    refine ⟨hr, ?_⟩
    split_ifs at h with hk
    · exact Or.inl ⟨hk, (Except.ok.inj h).symm⟩
    · exact Or.inr ⟨hk, (Except.ok.inj h).symm⟩

/-! ## The push outbox -/

/-- `list_for_crm_push`: the rows with the given ids that still exist, ordered by id. -/
def listForCrmPush (messages : List Message) (messageIds : List ℕ) : List Message :=
  (messages.filter fun m => m.id ∈ messageIds).insertionSort fun a b => a.id ≤ b.id

/-- The rows of a POST are the ones with its ids that still exist. -/
theorem mem_listForCrmPush {messages : List Message} {ids : List ℕ} {m : Message} :
    m ∈ listForCrmPush messages ids ↔ m ∈ messages ∧ m.id ∈ ids := by
  simp [listForCrmPush]

/-- `mark_pushed`: stamp the rows with the given ids that have no delivery mark yet. -/
def markPushed (messages : List Message) (messageIds : List ℕ) (now : Instant) : List Message :=
  messages.map fun m =>
    if m.id ∈ messageIds ∧ m.pushedAt = none then { m with pushedAt := some now } else m

/-- A mark adds and removes no row. -/
theorem map_id_markPushed (messages : List Message) (ids : List ℕ) (now : Instant) :
    (markPushed messages ids now).map Message.id = messages.map Message.id := by
  rw [markPushed, List.map_map]
  refine List.map_congr_left fun m _ => ?_
  simp only [Function.comp_apply]
  split_ifs <;> rfl

/-- `list_pending_push`: the ids of the undelivered rows fetched after `windowStart`, the
smallest ids first. -/
def listPendingPush (messages : List Message) (windowStart : Instant) (limit : ℕ) : List ℕ :=
  (Keyset.page Message.id none limit
    (messages.filter fun m => m.pushedAt = none ∧ windowStart < m.fetchedAt)).map Message.id

/-! ## Retention -/

/-- `select_expired`: message id, account id and user id of the rows dated before a threshold,
the smallest ids first. -/
def selectExpired (messages : List Message) (accounts : List MailAccount) (threshold : Instant)
    (limit : ℕ) : List (ℕ × ℕ × ℕ) :=
  (Keyset.page (fun row : Message × MailAccount => row.1.id) none limit
    ((joinAccounts messages accounts).filter fun row => row.1.internalDate < threshold)).map
      fun row => (row.1.id, row.1.mailAccountId, row.2.userId)

/-- `delete_messages`: the table without the rows of the given ids. -/
def deleteMessages (messages : List Message) (messageIds : List ℕ) : List Message :=
  messages.filter fun m => m.id ∉ messageIds

theorem mem_deleteMessages {messages : List Message} {ids : List ℕ} {m : Message} :
    m ∈ deleteMessages messages ids ↔ m ∈ messages ∧ m.id ∉ ids := by
  simp [deleteMessages]

/-! ## The pages of one mailbox set -/

section Pages

variable {messages : List Message} {accounts : List MailAccount} {mailAccountIds : List ℕ}

/-- The messages of a set of mailboxes. -/
def ofMailboxes (mailAccountIds : List ℕ) (messages : List Message) : List Message :=
  messages.filter fun m => m.mailAccountId ∈ mailAccountIds

@[simp] theorem mem_ofMailboxes {m : Message} :
    m ∈ ofMailboxes mailAccountIds messages ↔
      m ∈ messages ∧ m.mailAccountId ∈ mailAccountIds := by
  simp [ofMailboxes]

/-- **A forward page** is a keyset page of the messages of its mailboxes. -/
theorem map_fst_listSinceId (ha : (accounts.map MailAccount.id).Nodup)
    (hids : ∀ i ∈ mailAccountIds, i ∈ accounts.map MailAccount.id) (sinceId limit : ℕ) :
    (listSinceId messages accounts mailAccountIds sinceId limit).map Prod.fst =
      Keyset.page Message.id (some sinceId) limit (ofMailboxes mailAccountIds messages) := by
  rw [listSinceId]
  split_ifs with hnil
  · subst hnil
    simp [ofMailboxes, Keyset.page, Keyset.sorted]
  · rw [ofMailboxes, ← map_fst_filter_joinAccounts ha hids]
    exact Keyset.map_page Prod.fst _

/-- **A backward page** is a keyset page of the same messages, in the dual order. -/
theorem map_fst_listBeforeId (ha : (accounts.map MailAccount.id).Nodup)
    (hids : ∀ i ∈ mailAccountIds, i ∈ accounts.map MailAccount.id) (beforeId : Option ℕ)
    (limit : ℕ) :
    (listBeforeId messages accounts mailAccountIds beforeId limit).map Prod.fst =
      Keyset.page (fun m : Message => OrderDual.toDual m.id) (beforeId.map OrderDual.toDual) limit
        (ofMailboxes mailAccountIds messages) := by
  rw [listBeforeId]
  split_ifs with hnil
  · subst hnil
    simp [ofMailboxes, Keyset.page, Keyset.sorted]
  · rw [ofMailboxes, ← map_fst_filter_joinAccounts ha hids]
    have hmap (rows : List (Message × MailAccount)) :
        (Keyset.page ((fun m : Message => OrderDual.toDual m.id) ∘ Prod.fst)
          (beforeId.map OrderDual.toDual) limit rows).map Prod.fst =
        Keyset.page (fun m : Message => OrderDual.toDual m.id)
          (beforeId.map OrderDual.toDual) limit (rows.map Prod.fst) :=
      Keyset.map_page Prod.fst rows
    exact hmap _

end Pages

end MessagesRepo

end MailAggregator
