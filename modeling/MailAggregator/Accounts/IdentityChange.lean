import MailAggregator.Accounts.UpdateFrame
import MailAggregator.Worker.IncrementalFetch

set_option relaxedAutoImplicit false
set_option autoImplicit false

/-!
# A mailbox update and the next sync

An update may change the address and the IMAP host of a mailbox, so that another INBOX is read. It
keeps the id of the account, by which the rows of the old INBOX are keyed, and the watermark, which
was observed in the old INBOX.

## Main definitions

* `MailAggregator.ExternalMailboxService.Due` — the messages of the new INBOX that are to be stored.
* `MailAggregator.ExternalMailboxService.ReadsAnew` — a sync reads an INBOX anew.
* `MailAggregator.ExternalMailboxService.WatermarkForeign`,
  `MailAggregator.ExternalMailboxService.KeysFree` — the conditions on the row before the update and
  the stored messages.

## Main results

* `MailAggregator.ExternalMailboxService.readsAnew_iff` — exactly when the next sync reads the
  INBOX anew.
* `MailAggregator.ExternalMailboxService.foreign_watermark_skips` — a message of the new INBOX that
  is never read.
-/

namespace MailAggregator

open PyText MailAccountsRepo MailAccountService MessagesRepo ImapFetcher

namespace ExternalMailboxService

/-! ## Reading anew -/

section ReadsAnew

variable (w : FetchWorld) (initialSyncDays maxBodyBytes : ℕ) (present later : List ServerMessage)
  (rows : List Message) (a : MailAccount) (uidvalidity : ℕ)

/-- The arguments of the insert of a message, converted at `now`. -/
def rowOf (now : Instant) (m : ServerMessage) : MessageValues :=
  (fromImapMsg w.env w.html2text now maxBodyBytes m.toMail).values a.id uidvalidity

/-- The messages of the INBOX that are to be stored: those of the initial window that are there
during the sync, and the ones that it gets later. -/
def Due (m : ServerMessage) : Prop :=
  (m ∈ present ∧ w.today - initialSyncDays ≤ m.internalDay) ∨ m ∈ later

/-- **A sync reads the INBOX anew**: it asks for the initial window, it fetches what is in the
window, and no message is dropped for a stored row. -/
structure ReadsAnew (box : FetchedBox) : Prop where
  criteria : searchCriteria w initialSyncDays uidvalidity a.lastSyncedUidnext a.lastUidvalidity =
    .since (w.today - initialSyncDays)
  fetched : ∀ m ∈ present, w.today - initialSyncDays ≤ m.internalDay →
    Fetched w maxBodyBytes box.newMessages m
  stored : ∀ m, Due w initialSyncDays present later m → ∀ now nextId fetchedAt,
    insertMessageIdempotent rows nextId fetchedAt (rowOf w maxBodyBytes a uidvalidity now m) ≠
      .ok none

/-- **The condition on the watermark.** There is none, or it was observed under another
UIDVALIDITY. -/
def WatermarkForeign : Prop := doInitial a.lastSyncedUidnext a.lastUidvalidity uidvalidity

instance : Decidable (WatermarkForeign a uidvalidity) :=
  inferInstanceAs (Decidable (doInitial _ _ _))

/-- **The condition on the rows.** No message that is to be stored, and that the database accepts,
has the key of a stored row. -/
def KeysFree : Prop :=
  ∀ m, Due w initialSyncDays present later m →
    (∃ now, refusal (rowOf w maxBodyBytes a uidvalidity now m) = none) →
    (a.id, uidvalidity, m.uid) ∉ rows.map fun row => row.key

end ReadsAnew

section Iff

variable {w : FetchWorld} {initialSyncDays maxBodyBytes : ℕ} {present later : List ServerMessage}
  {rows : List Message} {a : MailAccount} {statusUidv : Option ℕ} {box : FetchedBox}

/-- An insert is dropped exactly when the database accepts the values and the key is taken. -/
theorem insert_eq_none_iff {nextId : ℕ} {now : Instant} {v : MessageValues} :
    insertMessageIdempotent rows nextId now v = .ok none ↔
      refusal v = none ∧ v.key ∈ rows.map fun row => row.key := by
  constructor
  · intro h
    obtain ⟨hrefusal, ⟨hkey, -⟩ | ⟨-, hrow⟩⟩ := insertMessageIdempotent_eq_ok h
    · exact ⟨hrefusal, hkey⟩
    · cases hrow
  · rintro ⟨hrefusal, hkey⟩
    rw [insertMessageIdempotent, hrefusal]
    exact if_pos hkey

/-- The search is the initial one exactly when the watermark is foreign. -/
theorem searchCriteria_eq_since_iff {uidvalidity : ℕ} :
    searchCriteria w initialSyncDays uidvalidity a.lastSyncedUidnext a.lastUidvalidity =
        .since (w.today - initialSyncDays) ↔ WatermarkForeign a uidvalidity := by
  rw [searchCriteria, WatermarkForeign]
  split_ifs with hinitial
  · simp [hinitial]
  · simp [hinitial]

/-- **When a sync reads an INBOX anew**: its watermark is foreign to the INBOX, and so are the keys
of the stored rows. -/
theorem readsAnew_fetch_iff (hserves : Serves w present)
    (hvalidity : w.statusUidvalidity = .ok statusUidv)
    (h : fetchBlocking w initialSyncDays maxBodyBytes a.lastSyncedUidnext a.lastUidvalidity =
      .ok box) :
    ReadsAnew w initialSyncDays maxBodyBytes present later rows a (statusUidv.getD 0) box ↔
      WatermarkForeign a (statusUidv.getD 0) ∧
        KeysFree w initialSyncDays maxBodyBytes present later rows a (statusUidv.getD 0) := by
  obtain ⟨-, uids, -, huids, hbatches, -, -⟩ := fetchBlocking_eq_ok hvalidity h
  constructor
  · intro hanew
    refine ⟨searchCriteria_eq_since_iff.mp hanew.criteria, ?_⟩
    rintro m hdue ⟨now, haccepted⟩ htaken
    exact hanew.stored m hdue now 0 0 (insert_eq_none_iff.mpr ⟨haccepted, htaken⟩)
  · rintro ⟨hforeign, hfree⟩
    have hsearch := selectUids_initial hforeign huids
    constructor
    case criteria => exact searchCriteria_eq_since_iff.mpr hforeign
    case fetched =>
      intro m hm hday
      exact fetched_of_mem_uids hserves hbatches hm (hserves.since _ uids hsearch m hm hday)
    case stored =>
      intro m hdue now nextId fetchedAt hdropped
      obtain ⟨haccepted, htaken⟩ := insert_eq_none_iff.mp hdropped
      exact hfree m hdue ⟨now, haccepted⟩ htaken

/-- **Exactly when the next sync reads the INBOX anew**: after every successful update, whatever it
changes, if and only if the row before it has no watermark, or one that was observed under another
UIDVALIDITY, and no message that is to be stored has the key of a stored row.

**Proof sketch.** An update keeps the id and the watermark, so both conditions are the same for the
row after it. -/
theorem readsAnew_iff {env : Env} {accounts accounts' : List MailAccount} {accountId : ℕ}
    {payload : ExternalMailboxUpdateRequest} {before after : MailAccount}
    (hbefore : getById accounts accountId = some before)
    (hupdate : update env accounts accountId payload = .ok (accounts', after))
    (hserves : Serves w present) (hvalidity : w.statusUidvalidity = .ok statusUidv)
    (hfetch : fetchBlocking w initialSyncDays maxBodyBytes after.lastSyncedUidnext
      after.lastUidvalidity = .ok box) :
    ReadsAnew w initialSyncDays maxBodyBytes present later rows after (statusUidv.getD 0) box ↔
      WatermarkForeign before (statusUidv.getD 0) ∧
        KeysFree w initialSyncDays maxBodyBytes present later rows before
          (statusUidv.getD 0) := by
  obtain ⟨before', hbefore', -, -, rfl⟩ := update_eq_ok hupdate
  obtain rfl := Option.some.inj (hbefore.symm.trans hbefore')
  have hkept : unwritten (rowWrites env payload before before) = unwritten before :=
    unwritten_rowWrites
  simp only [unwritten, Prod.mk.injEq] at hkept
  obtain ⟨hid, -, -, -, -, -, -, -, -, huidnext, huidvalidity, -, -⟩ := hkept
  rw [readsAnew_fetch_iff hserves hvalidity hfetch]
  simp only [WatermarkForeign, KeysFree, rowOf, hid, huidnext, huidvalidity]

end Iff

/-! ### One INBOX -/

/-- A mailbox that has been synced. -/
def syncedMailbox (uidvalidity uidnext : ℕ) : MailAccount :=
  { activeMailbox with
    lastUidvalidity := some uidvalidity
    lastSyncedUidnext := some uidnext }

/-- A row of a synced mailbox. -/
def storedRow (uidvalidity uid : ℕ) : Message where
  id := 1
  fetchedAt := 0
  mailAccountId := 1
  uidvalidity
  uid

/-- The request for another host. -/
def moveRequest : ExternalMailboxUpdateBody := { imapHost := some "imap.example.org".toList }

/-- If the UIDVALIDITY of the new INBOX is another one, it is read anew. -/
theorem readsAnew_syncedMailbox :
    ∃ payload accounts after box,
      ExternalMailboxUpdateRequest.modelValidate moveRequest = some payload ∧
        update openEnv [syncedMailbox 2 100] 1 payload = .ok (accounts, after) ∧
        after.imapHost ≠ (syncedMailbox 2 100).imapHost ∧
        ReadsAnew (fetchFrom newMailInbox false) 30 1024 newMailInbox.inbox [] [storedRow 2 7] after
          1 box := by
  obtain ⟨payload, accounts, after, hbody, hupdate, hhost, huidnext, huidvalidity⟩ :
      ∃ payload accounts after,
        ExternalMailboxUpdateRequest.modelValidate moveRequest = some payload ∧
          update openEnv [syncedMailbox 2 100] 1 payload = .ok (accounts, after) ∧
          after.imapHost ≠ (syncedMailbox 2 100).imapHost ∧ after.lastSyncedUidnext = some 100 ∧
          after.lastUidvalidity = some 2 :=
    ⟨_, _, _, rfl, rfl, by decide, rfl, rfl⟩
  obtain ⟨box, hbox⟩ : ∃ box,
      fetchBlocking (fetchFrom newMailInbox false) 30 1024 (some 100) (some 2) = .ok box :=
    ⟨_, rfl⟩
  rw [← huidnext, ← huidvalidity] at hbox
  refine ⟨payload, accounts, after, box, hbody, hupdate, hhost, ?_⟩
  refine (readsAnew_iff rfl hupdate (serves_fetchFrom newMailInbox false)
    (show _ = Except.ok (some 1) from rfl) hbox).mpr ⟨by decide, fun m _ _ htaken => ?_⟩
  simp [storedRow, MessageValues.key] at htaken

/-- **A message that is never read**: the new INBOX has the UIDVALIDITY of the old one, and the UID
of its message is below the watermark. The sync fetches nothing, and its new watermark is above
the message. -/
theorem foreign_watermark_skips :
    ∃ payload accounts after box,
      ExternalMailboxUpdateRequest.modelValidate moveRequest = some payload ∧
        update openEnv [syncedMailbox 1 100] 1 payload = .ok (accounts, after) ∧
        fetchBlocking (fetchFrom newMailInbox false) 30 1024 after.lastSyncedUidnext
          after.lastUidvalidity = .ok box ∧
        box.newMessages = [] ∧ box.uidnext = some 8 ∧
        ¬ ∀ (env : Env) (accounts accounts' : List MailAccount) (accountId : ℕ)
          (payload : ExternalMailboxUpdateRequest) (before after : MailAccount) (w : FetchWorld)
          (initialSyncDays maxBodyBytes : ℕ) (present later : List ServerMessage)
          (rows : List Message) (statusUidv : Option ℕ) (box : FetchedBox),
          getById accounts accountId = some before →
          update env accounts accountId payload = .ok (accounts', after) →
          after.email ≠ before.email ∨ after.imapHost ≠ before.imapHost →
          Serves w present → w.statusUidvalidity = .ok statusUidv →
          fetchBlocking w initialSyncDays maxBodyBytes after.lastSyncedUidnext
            after.lastUidvalidity = .ok box →
          ReadsAnew w initialSyncDays maxBodyBytes present later rows after (statusUidv.getD 0)
            box := by
  obtain ⟨payload, accounts, after, hbody, hupdate, hhost, huidnext, huidvalidity⟩ :
      ∃ payload accounts after,
        ExternalMailboxUpdateRequest.modelValidate moveRequest = some payload ∧
          update openEnv [syncedMailbox 1 100] 1 payload = .ok (accounts, after) ∧
          after.imapHost ≠ (syncedMailbox 1 100).imapHost ∧ after.lastSyncedUidnext = some 100 ∧
          after.lastUidvalidity = some 1 :=
    ⟨_, _, _, rfl, rfl, by decide, rfl, rfl⟩
  obtain ⟨box, hbox, hempty, hnext⟩ : ∃ box,
      fetchBlocking (fetchFrom newMailInbox false) 30 1024 (some 100) (some 1) = .ok box ∧
        box.newMessages = [] ∧ box.uidnext = some 8 := ⟨_, rfl, rfl, rfl⟩
  rw [← huidnext, ← huidvalidity] at hbox
  refine ⟨payload, accounts, after, box, hbody, hupdate, hbox, hempty, hnext, fun h => ?_⟩
  have hanew := h openEnv [syncedMailbox 1 100] accounts 1 payload (syncedMailbox 1 100) after
    (fetchFrom newMailInbox false) 30 1024 newMailInbox.inbox [] [] (some 1) box rfl hupdate
    (Or.inr hhost) (serves_fetchFrom newMailInbox false) rfl hbox
  obtain ⟨now, hmem⟩ := hanew.fetched _ List.mem_cons_self (by decide)
  rw [hempty] at hmem
  cases hmem

end ExternalMailboxService

end MailAggregator
