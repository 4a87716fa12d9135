import MailAggregator.Repositories.MailAccounts
import MailAggregator.Shared.UrlSafety
import MailAggregator.Worker.ImapFetcher
import MailAggregator.Worker.SyncCycle

set_option relaxedAutoImplicit false
set_option autoImplicit false

/-!
# Storing a fetched batch

The second half of `sync_one_account`: a transaction that inserts the whole batch, and then a
transaction that writes the watermark. Nothing catches an error of either one.

## Main definitions

* `MailAggregator.SyncStore.saveMessages` — the transaction of the inserts.
* `MailAggregator.SyncStore.finishSync` — the two transactions in their order.
* `MailAggregator.SyncStore.Unstalled` — whatever one message of the batch contains, the others
  are stored and the watermark moves past them.

## Main results

* `MailAggregator.SyncStore.unstalled_iff` — exactly the batches without a refused value are not
  stalled.
* `MailAggregator.SyncStore.iterate_finishSync_of_refused` — a refused message repeats its
  failure in every later run.
-/

namespace MailAggregator

open PyText ImapFetcher SyncCycle MessagesRepo

namespace SyncStore

/-- The tables that a sync writes, and the sequence of `messages.id`. -/
structure Db where
  accounts : List MailAccount
  messages : List Message
  nextMessageId : ℕ
  deriving DecidableEq, Repr

/-- What the loop over a batch has done so far. -/
structure Inserts where
  rows : List Message
  nextId : ℕ
  crmPushIds : List ℕ := []
  conflictCount : ℕ := 0
  deriving DecidableEq, Repr

/-- One turn of the loop, after its insert. -/
def Inserts.add (t : Inserts) : Inserted → Inserts
  | none => { t with nextId := t.nextId + 1, conflictCount := t.conflictCount + 1 }
  | some row =>
    { t with
      rows := t.rows ++ [row]
      nextId := t.nextId + 1
      crmPushIds := t.crmPushIds ++ [row.id] }

/-- The loop over a batch; the first error ends it. -/
def insertMessages (now : Instant) : Inserts → List MessageValues → Inserts × Option DataError
  | t, [] => (t, none)
  | t, v :: vs =>
    match insertMessageIdempotent t.rows t.nextId now v with
    | .error e => (t, some e)
    | .ok r => insertMessages now (t.add r) vs

/-- The transaction around the loop: an error rolls all of its rows back, but not the sequence. -/
def saveMessages (now : Instant) (db : Db) (accountId : ℕ) (box : FetchedBox) :
    Db × Except DataError Inserts :=
  match insertMessages now { rows := db.messages, nextId := db.nextMessageId }
      (box.values accountId) with
  | (t, none) => ({ db with messages := t.rows, nextMessageId := t.nextId }, .ok t)
  | (t, some e) => ({ db with nextMessageId := t.nextId }, .error e)

/-- The watermark of a box fits the columns it is written to. -/
def WatermarkFits (box : FetchedBox) : Prop :=
  (∀ n ∈ box.uidnext, n < 2 ^ 63) ∧ box.uidvalidity < 2 ^ 63

instance (box : FetchedBox) : Decidable (WatermarkFits box) :=
  inferInstanceAs (Decidable (_ ∧ _))

/-- The transaction that writes the watermark. -/
def markSuccess (now : Instant) (db : Db) (accountId : ℕ) (box : FetchedBox) :
    Db × Except DataError Unit :=
  if WatermarkFits box then
    let set := MailAccountsRepo.markSyncSuccess box.uidnext (some box.uidvalidity) now
    ({ db with accounts := MailAccountsRepo.updateWhereId db.accounts accountId set }, .ok ())
  else (db, .error .integerOutOfRange)

/-- How a run ends. -/
structure SyncEnd where
  db : Db
  /-- The pair that the run committed as the watermark of the account. -/
  watermark : Option (Option ℕ × ℕ) := none
  /-- The ids handed to the push queue. -/
  enqueued : List ℕ := []
  /-- The result, or the error that escapes the run. -/
  result : Except DataError AccountResult

/-- `sync_one_account` after the fetch. -/
def finishSync (S : Settings) (now : Instant) (db : Db) (account : MailAccount)
    (box : FetchedBox) : SyncEnd :=
  match saveMessages now db account.id box with
  | (db', .error e) => { db := db', result := .error e }
  | (db', .ok t) =>
    match markSuccess now db' account.id box with
    | (db'', .error e) => { db := db'', result := .error e }
    | (db'', .ok ()) =>
      { db := db''
        watermark := some (box.uidnext, box.uidvalidity)
        enqueued := if S.crmPushEnabled then t.crmPushIds else []
        result := .ok
          { accountId := account.id
            userId := account.userId
            newCount := t.crmPushIds.length
            conflictCount := t.conflictCount
            outcome := .ok } }

/-- **Not stalled**: for every message of the batch, the run has stored every other message, and
has committed a watermark past the batch. -/
def Unstalled (accountId : ℕ) (box : FetchedBox) (run : SyncEnd) : Prop :=
  ∀ m ∈ box.newMessages,
    (∀ m' ∈ box.newMessages, m' ≠ m →
      (m'.values accountId box.uidvalidity).key ∈ run.db.messages.map fun r => r.key) ∧
    ∃ n, run.watermark = some (some n, box.uidvalidity) ∧ ∀ m' ∈ box.newMessages, m'.uid < n

/-! ## The transaction of the inserts -/

/-- The rows after one more insert are the rows before it, and possibly one for the inserted
key. -/
theorem subset_rows_add (t : Inserts) (r : Inserted) : t.rows ⊆ (t.add r).rows := by
  cases r with
  | none => exact fun _ h => h
  | some row => exact List.subset_append_left _ _

/-- **The loop**: it goes through exactly when the database refuses no value of the batch, and
then there is a row for every key of the batch.

**Proof sketch.** Induction on the batch. An accepted insert leaves a row for its key, the one
it adds or the one it conflicts with, and later inserts remove none. -/
theorem insertMessages_spec (now : Instant) (vs : List MessageValues) :
    ∀ t : Inserts,
      ((insertMessages now t vs).2 = none ↔ ∀ v ∈ vs, refusal v = none) ∧
      t.rows ⊆ (insertMessages now t vs).1.rows ∧
      ((insertMessages now t vs).2 = none →
        ∀ v ∈ vs, v.key ∈ (insertMessages now t vs).1.rows.map fun r => r.key) := by
  induction vs with
  | nil =>
    intro t
    refine ⟨⟨fun _ v hv => (by cases hv), fun _ => rfl⟩, fun _ h => h, fun _ v hv => ?_⟩
    cases hv
  | cons v vs ih =>
    intro t
    unfold insertMessages
    cases hins : insertMessageIdempotent t.rows t.nextId now v with
    | error e =>
      have hrefused : refusal v ≠ none := by
        intro hnone
        simp only [insertMessageIdempotent, hnone] at hins
        split_ifs at hins
      refine ⟨⟨fun h => (by cases h), fun h => ?_⟩, fun _ h => h, fun h => (by cases h)⟩
      exact absurd (h v List.mem_cons_self) hrefused
    | ok r =>
      obtain ⟨haccepted, hr⟩ := insertMessageIdempotent_eq_ok hins
      obtain ⟨hiff, hsub, hall⟩ := ih (t.add r)
      refine ⟨?_, fun m hm => hsub (subset_rows_add t r hm), fun h w hw => ?_⟩
      · simp only [hiff, List.forall_mem_cons, haccepted, true_and]
      · rcases List.mem_cons.mp hw with rfl | hw
        · refine List.map_subset _ hsub ?_
          rcases hr with ⟨hkey, rfl⟩ | ⟨-, rfl⟩
          · exact hkey
          · simp [Inserts.add, MessageValues.key]
        · exact hall h w hw

/-- Every row that the loop adds is handed to the push queue. -/
theorem insertMessages_pushIds (now : Instant) (vs : List MessageValues) :
    ∀ t : Inserts,
      t.crmPushIds ⊆ (insertMessages now t vs).1.crmPushIds ∧
      ∀ m ∈ (insertMessages now t vs).1.rows,
        m ∈ t.rows ∨ m.id ∈ (insertMessages now t vs).1.crmPushIds := by
  induction vs with
  | nil => exact fun t => ⟨List.Subset.refl _, fun m hm => Or.inl hm⟩
  | cons v vs ih =>
    intro t
    unfold insertMessages
    cases insertMessageIdempotent t.rows t.nextId now v with
    | error e => exact ⟨List.Subset.refl _, fun m hm => Or.inl hm⟩
    | ok r =>
      obtain ⟨hsub, hrows⟩ := ih (t.add r)
      cases r with
      | none => exact ⟨hsub, hrows⟩
      | some row =>
        refine ⟨fun i hi => hsub (List.mem_append_left _ hi), fun m hm => ?_⟩
        rcases hrows m hm with hm | hm
        · rcases List.mem_append.mp hm with hm | hm
          · exact Or.inl hm
          · obtain rfl := List.mem_singleton.mp hm
            exact Or.inr (hsub (List.mem_append_right _ (List.mem_singleton_self _)))
        · exact Or.inr hm

variable {S : Settings} {now : Instant} {db : Db} {account : MailAccount} {box : FetchedBox}

/-- The transaction of an accepted batch commits a row for each of its keys. -/
theorem saveMessages_of_accepted (now : Instant) (db : Db)
    (h : ∀ v ∈ box.values account.id, refusal v = none) :
    ∃ db' t, saveMessages now db account.id box = (db', .ok t) ∧
      db'.accounts = db.accounts ∧
      ∀ m ∈ box.newMessages,
        (m.values account.id box.uidvalidity).key ∈ db'.messages.map fun r => r.key := by
  obtain ⟨hiff, -, hall⟩ := insertMessages_spec now (box.values account.id)
    { rows := db.messages, nextId := db.nextMessageId }
  unfold saveMessages
  rcases hrun : insertMessages now _ (box.values account.id) with ⟨t, e⟩
  rw [hrun] at hiff hall
  obtain rfl : e = none := hiff.mpr h
  exact ⟨_, t, rfl, rfl, fun m hm => hall rfl _ (List.mem_map_of_mem hm)⟩

/-- The transaction of a batch with a refused value fails, and leaves the rows as they were. -/
theorem saveMessages_of_refused (now : Instant) (db : Db)
    (h : ¬ ∀ v ∈ box.values account.id, refusal v = none) :
    ∃ db' e, saveMessages now db account.id box = (db', .error e) ∧
      db'.accounts = db.accounts ∧ db'.messages = db.messages := by
  obtain ⟨hiff, -, -⟩ := insertMessages_spec now (box.values account.id)
    { rows := db.messages, nextId := db.nextMessageId }
  unfold saveMessages
  rcases hrun : insertMessages now _ (box.values account.id) with ⟨t, e⟩
  rw [hrun] at hiff
  cases e with
  | none => exact absurd (hiff.mp rfl) h
  | some e => exact ⟨_, e, rfl, rfl, rfl⟩

/-! ## The run -/

/-- A run on an accepted batch whose watermark fits stores the batch and commits the
watermark. -/
theorem finishSync_of_accepted (S : Settings) (now : Instant) (db : Db)
    (h : ∀ v ∈ box.values account.id, refusal v = none)
    (hfits : WatermarkFits box) :
    (finishSync S now db account box).watermark = some (box.uidnext, box.uidvalidity) ∧
      ∀ m ∈ box.newMessages,
        (m.values account.id box.uidvalidity).key ∈
          (finishSync S now db account box).db.messages.map fun r => r.key := by
  obtain ⟨db', t, hsave, -, hall⟩ := saveMessages_of_accepted now db h
  unfold finishSync
  simp only [hsave, markSuccess, if_pos hfits]
  exact ⟨trivial, hall⟩

/-- A run on a refused batch, or with a watermark that does not fit, commits no watermark. -/
theorem watermark_finishSync_eq_none
    (h : ¬ ((∀ v ∈ box.values account.id, refusal v = none) ∧ WatermarkFits box)) :
    (finishSync S now db account box).watermark = none := by
  unfold finishSync
  by_cases hvalues : ∀ v ∈ box.values account.id, refusal v = none
  · have hfits : ¬ WatermarkFits box := fun hfits => h ⟨hvalues, hfits⟩
    obtain ⟨db', t, hsave, -, -⟩ := saveMessages_of_accepted now db hvalues
    simp only [hsave, markSuccess, if_neg hfits]
  · obtain ⟨db', e, hsave, -, -⟩ := saveMessages_of_refused now db hvalues
    simp only [hsave]

/-- **One refused message decides the fate of its batch**: a run is not stalled exactly when its
batch is empty, or the database refuses no message of it, the watermark fits and lies past the
batch.

**Proof sketch.** The inserts share a transaction, and the watermark is written only after it
commits. So a refused message, wherever it stands in the batch, leaves the run without a
watermark, which a batch that is not empty needs. -/
theorem unstalled_iff :
    Unstalled account.id box (finishSync S now db account box) ↔
      box.newMessages = [] ∨
        ((∀ v ∈ box.values account.id, refusal v = none) ∧ WatermarkFits box ∧
          ∃ n, box.uidnext = some n ∧ ∀ m ∈ box.newMessages, m.uid < n) := by
  constructor
  · intro h
    rcases List.eq_nil_or_concat box.newMessages with hnil | ⟨ms, m, hm⟩
    · exact Or.inl hnil
    · obtain ⟨-, n, hwm, hn⟩ := h m (by simp [hm])
      have hok : (∀ v ∈ box.values account.id, refusal v = none) ∧ WatermarkFits box := by
        by_contra hno
        rw [watermark_finishSync_eq_none hno] at hwm
        cases hwm
      rw [(finishSync_of_accepted S now db hok.1 hok.2).1] at hwm
      have hnext : box.uidnext = some n := (Prod.mk.inj (Option.some.inj hwm)).1
      exact Or.inr ⟨hok.1, hok.2, n, hnext, hn⟩
  · rintro (hnil | ⟨hvalues, hfits, n, hnext, hn⟩)
    · intro m hm
      rw [hnil] at hm
      cases hm
    · obtain ⟨hwm, hall⟩ := finishSync_of_accepted S now db hvalues hfits
      rw [hnext] at hwm
      exact fun m _ => ⟨fun m' hm' _ => hall m' hm', n, hwm, hn⟩

/-! ## The runs after it -/

/-- A run on a batch with a refused value changes no row. -/
theorem finishSync_of_refused (S : Settings) (now : Instant) (db : Db)
    (h : ¬ ∀ v ∈ box.values account.id, refusal v = none) :
    (finishSync S now db account box).db.accounts = db.accounts ∧
      (finishSync S now db account box).db.messages = db.messages := by
  obtain ⟨db', e, hsave, haccounts, hmessages⟩ := saveMessages_of_refused now db h
  unfold finishSync
  simp only [hsave]
  exact ⟨haccounts, hmessages⟩

/-- **A refused message repeats its failure**: as long as the server hands out the same batch, no
number of runs stores a row or moves the watermark. -/
theorem iterate_finishSync_of_refused (h : ¬ ∀ v ∈ box.values account.id, refusal v = none)
    (times : List Instant) :
    (times.foldl (fun db now => (finishSync S now db account box).db) db).accounts =
        db.accounts ∧
      (times.foldl (fun db now => (finishSync S now db account box).db) db).messages =
        db.messages := by
  induction times generalizing db with
  | nil => exact ⟨rfl, rfl⟩
  | cons now times ih =>
    rw [List.foldl_cons]
    obtain ⟨haccounts, hmessages⟩ := finishSync_of_refused S now db h
    exact ⟨ih.1.trans haccounts, ih.2.trans hmessages⟩

/-- The mailbox of `poison_stalls_mailbox`. -/
def poisonedAccount : MailAccount := { id := 1, userId := 1, email := "a@example.com".toList }

/-- A batch of two messages; the decoded subject of the first has a U+0000. -/
def poisonedMessages : List MailMessage :=
  [{ uid := some 1, subject := ['H', 'i', '\x00'], text := "one".toList },
    { uid := some 2, subject := "Hello".toList, text := "two".toList }]

/-- The second message of the batch is not stored. -/
theorem poison_stalls_mailbox :
    ¬ ∀ (S : Settings) (env : HtmlSanitize.HtmlEnv) (html2text : Text → Text) (now : Instant)
        (db : Db) (account : MailAccount) (uidvalidity : ℕ) (uidnext : Option ℕ)
        (msgs : List MailMessage),
      let newMessages := msgs.map (fromImapMsg env html2text now S.maxBodyBytes)
      let box : FetchedBox := { uidvalidity, uidnext, newMessages }
      Unstalled account.id box (finishSync S now db account box) := by
  intro h
  have hbox := h .defaults HtmlSanitize.linkEnv id 0 ⟨[poisonedAccount], [], 1⟩ poisonedAccount 7
    (some 3) poisonedMessages
  obtain ⟨-, n, hwatermark, -⟩ := hbox _ (List.mem_map_of_mem List.mem_cons_self)
  cases hwatermark

end SyncStore

end MailAggregator
