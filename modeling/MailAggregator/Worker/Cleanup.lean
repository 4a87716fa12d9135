import MailAggregator.CrmPush.Outbox
import MailAggregator.Worker.ImapFetcher

set_option relaxedAutoImplicit false
set_option autoImplicit false

/-!
# The retention cleanup

`retention_cleanup` deletes the expired rows batch by batch, until a batch is empty. What expires is
decided by `messages.internal_date`, and the fetcher stores there what `imap-tools` parses from the
`Date` header of the sender.

## Main definitions

* `MailAggregator.Cleanup.retentionCleanup` — the loop over the batches.
* `MailAggregator.Cleanup.StoredMail` — a stored row, with the mail it was fetched from.

## Main results

* `MailAggregator.Cleanup.retentionCleanup_eq` — the cleanup terminates, and deletes exactly the
  rows whose `internal_date` is before the threshold.
* `MailAggregator.Cleanup.run_retentionCleanup` — it is a run of the outbox.
* `MailAggregator.Cleanup.receiptDate_iff` — when it deletes by the date of receipt.
* `MailAggregator.Cleanup.deleted_on_arrival` — a message that is deleted on the day it arrives.
-/

namespace MailAggregator

open PyText HtmlText HtmlSanitize ImapFetcher MessagesRepo CrmPush Transition

namespace Cleanup

/-! ## The loop -/

section Loop

variable (accounts : List MailAccount) (threshold : Instant) (batch : ℕ)

/-- The loop of `retention_cleanup`: the table after it, if it ends within a number of rounds. -/
def cleanupLoop : ℕ → List Message → Option (List Message)
  | 0, _ => none
  | rounds + 1, messages =>
    match (selectExpired messages accounts threshold batch).map Prod.fst with
    | [] => some messages
    | messageIds => cleanupLoop rounds (deleteMessages messages messageIds)

/-- `retention_cleanup`: the table after it. -/
def retentionCleanup (S : Settings) (now : Instant) (messages : List Message) :
    Option (List Message) :=
  cleanupLoop accounts (now - days S.retentionDays) cleanupBatch (messages.length + 1) messages

/-- The rows that a cleanup keeps. -/
def unexpired (messages : List Message) : List Message :=
  messages.filter fun m => ¬ m.internalDate < threshold

variable {accounts threshold batch} {messages : List Message}

/-- A batch consists of expired rows. -/
theorem of_mem_selectExpired {i : ℕ}
    (hi : i ∈ (selectExpired messages accounts threshold batch).map Prod.fst) :
    ∃ m ∈ messages, m.id = i ∧ m.internalDate < threshold := by
  simp only [selectExpired, List.map_map, List.mem_map] at hi
  obtain ⟨row, hrow, rfl⟩ := hi
  have hjoin := (Keyset.mem_of_mem_page hrow).1
  rw [List.mem_filter, mem_joinAccounts, decide_eq_true_eq] at hjoin
  exact ⟨row.1, hjoin.1.1, rfl, hjoin.2⟩

/-- As long as rows of existing accounts are expired, a batch is not empty. -/
theorem unexpired_of_selectExpired_eq_nil (hb : 0 < batch)
    (hfk : ∀ m ∈ messages, m.mailAccountId ∈ accounts.map MailAccount.id)
    (hnil : (selectExpired messages accounts threshold batch).map Prod.fst = []) :
    ∀ m ∈ messages, ¬ m.internalDate < threshold := by
  intro m hm hexp
  obtain ⟨a, ha, hid⟩ := List.mem_map.mp (hfk m hm)
  have hrow : (m, a) ∈ (joinAccounts messages accounts).filter
      fun row => row.1.internalDate < threshold :=
    List.mem_filter.mpr ⟨mem_joinAccounts.mpr ⟨hm, ha, hid⟩, decide_eq_true hexp⟩
  simp only [selectExpired, List.map_eq_nil_iff, Keyset.page, List.take_eq_nil_iff] at hnil
  rcases hnil with hzero | hnone
  · omega
  · have hsorted : (m, a) ∈ Keyset.sorted (fun row : Message × MailAccount => row.1.id) none _ :=
      Keyset.mem_sorted.mpr ⟨hrow, Keyset.beyond_none _⟩
    rw [hnone] at hsorted
    cases hsorted

/-- **What the loop does**: it ends, and leaves the unexpired rows.

**Proof sketch.** Induction on the rounds. An empty batch means that no row is expired. Another
batch removes at least one row, and only expired ones, because an id belongs to one row. -/
theorem cleanupLoop_eq (hb : 0 < batch) {rounds : ℕ} (hrounds : messages.length < rounds)
    (hn : (messages.map Message.id).Nodup)
    (hfk : ∀ m ∈ messages, m.mailAccountId ∈ accounts.map MailAccount.id) :
    cleanupLoop accounts threshold batch rounds messages =
      some (unexpired threshold messages) := by
  induction rounds generalizing messages with
  | zero => omega
  | succ rounds ih =>
    rw [cleanupLoop]
    split
    · next hnil =>
      have hkeep := unexpired_of_selectExpired_eq_nil hb hfk hnil
      rw [unexpired, List.filter_eq_self.mpr fun m hm => decide_eq_true (hkeep m hm)]
    · next hne =>
      set ids := (selectExpired messages accounts threshold batch).map Prod.fst with hids
      have hsub : (deleteMessages messages ids).Sublist messages := List.filter_sublist
      have hshort : (deleteMessages messages ids).length < messages.length := by
        obtain ⟨i, hi⟩ := List.exists_mem_of_ne_nil ids fun h => hne h
        obtain ⟨m, hm, rfl, _⟩ := of_mem_selectExpired hi
        exact List.length_filter_lt_length_iff_exists.mpr ⟨m, hm, by simpa using hi⟩
      rw [ih (by omega) (hn.sublist (hsub.map _)) fun m hm => hfk m (hsub.subset hm)]
      rw [unexpired, unexpired, deleteMessages, List.filter_filter]
      refine congrArg some (List.filter_congr fun m hm => ?_)
      by_cases hexp : m.internalDate < threshold
      · simp [hexp]
      · have hnot : m.id ∉ ids := fun hi => by
          obtain ⟨m', hm', hid, hexp'⟩ := of_mem_selectExpired hi
          obtain rfl := List.inj_on_of_nodup_map hn hm' hm hid
          exact hexp hexp'
        simp [hexp, hnot]

/-- **The cleanup ends, and deletes exactly the rows dated before its threshold.** -/
theorem retentionCleanup_eq (S : Settings) (now : Instant)
    (hn : (messages.map Message.id).Nodup)
    (hfk : ∀ m ∈ messages, m.mailAccountId ∈ accounts.map MailAccount.id) :
    retentionCleanup accounts S now messages =
      some (unexpired (now - days S.retentionDays) messages) :=
  cleanupLoop_eq (by decide) (Nat.lt_succ_self _) hn hfk

/-- A loop that began at some time is a run of the outbox, of selections and deletions in turn.

**Proof sketch.** Induction over the rounds. A round with nothing to select ends the loop. Any other
one is a selection and a deletion of what was selected, after which the induction hypothesis gives
the rest of the run. -/
theorem run_cleanupLoop (S : Settings) {startedAt : Instant} {rounds : ℕ} {s : OutboxState}
    {rows : List Message} (hle : startedAt ≤ s.now)
    (h : cleanupLoop s.accounts (startedAt - days S.retentionDays) cleanupBatch rounds s.messages =
      some rows) : ∃ ls, (outboxSystem S).run s ls = some { s with messages := rows } := by
  induction rounds generalizing s with
  | zero => cases h
  | succ rounds ih =>
    rw [cleanupLoop] at h
    cases hids : (selectExpired s.messages s.accounts (startedAt - days S.retentionDays)
        cleanupBatch).map Prod.fst with
    | nil =>
      rw [hids] at h
      obtain rfl := Option.some.inj h
      exact ⟨[], rfl⟩
    | cons i is =>
      rw [hids] at h
      obtain ⟨ls, hls⟩ :=
        ih (s := { s with messages := deleteMessages s.messages (i :: is) }) hle h
      refine ⟨.cleanupSelect startedAt :: .cleanupDelete (i :: is) :: ls, ?_⟩
      have hselect : (outboxSystem S).next s (.cleanupSelect startedAt) =
          some { s with cleanups := (i :: is) :: s.cleanups } := by
        simp [outboxSystem, outboxNext, hle, hids]
      have hdelete : (outboxSystem S).next { s with cleanups := (i :: is) :: s.cleanups }
          (.cleanupDelete (i :: is)) =
            some { s with messages := deleteMessages s.messages (i :: is) } := by
        simp [outboxSystem, outboxNext]
      rw [System.run_cons hselect, System.run_cons hdelete, hls]

/-- **The cleanup is a run of the outbox.** -/
theorem run_retentionCleanup (S : Settings) {s : OutboxState} {rows : List Message}
    (h : retentionCleanup s.accounts S s.now s.messages = some rows) :
    ∃ ls, (outboxSystem S).run s ls = some { s with messages := rows } :=
  run_cleanupLoop S le_rfl h

end Loop

/-! ## The date of receipt -/

/-- What a message is fetched with: the environment of the body conversion, and the date parser of
`imap-tools`. -/
structure FetchEnv where
  html : HtmlEnv
  html2text : Text → Text
  maxBodyBytes : ℕ
  /-- `parse_email_date`, where it finds a date. -/
  parseDate : Text → Option MailDate

/-- `1900-01-01T00:00:00`, without an offset. -/
def unparsedDate : MailDate := { wallClock := -2208988800000000, utcOffset := none }

/-- A message as the provider received it. -/
structure ReceivedMail where
  /-- The IMAP INTERNALDATE. -/
  internaldate : Instant
  /-- The `Date` header of the sender. -/
  dateHeader : Option Text := none
  /-- What `imap-tools` parses from the rest of it. -/
  content : MailMessage

/-- `MailMessage.date`: the parsed `Date` header, or 1900. -/
def ReceivedMail.date (env : FetchEnv) (mail : ReceivedMail) : MailDate :=
  (mail.dateHeader.bind env.parseDate).getD unparsedDate

/-- The message as `imap-tools` hands it to the fetcher. -/
def ReceivedMail.parsed (env : FetchEnv) (mail : ReceivedMail) : MailMessage :=
  { mail.content with date := some (mail.date env) }

/-- A row of `messages` with the mail that it was fetched from. -/
structure StoredMail (env : FetchEnv) where
  mail : ReceivedMail
  row : Message
  /-- The row holds what the fetcher took from the mail. -/
  fetched : ∃ now uidvalidity, row.toMessageValues =
    (fromImapMsg env.html env.html2text now env.maxBodyBytes (mail.parsed env)).values
      row.mailAccountId uidvalidity

section Receipt

variable {env : FetchEnv}

/-- **What is stored as the date**: that of the sender. -/
theorem StoredMail.internalDate_eq (m : StoredMail env) :
    m.row.internalDate = (m.mail.date env).toInstant := by
  obtain ⟨now, uidvalidity, hvalues⟩ := m.fetched
  rw [hvalues]
  rfl

/-- The rows of the mails that were received no longer before a time than a threshold. -/
def receivedSince (threshold : Instant) (mails : List (StoredMail env)) : List Message :=
  (mails.filter fun m => ¬ m.mail.internaldate < threshold).map StoredMail.row

/-- **When the cleanup deletes by the date of receipt.** It ends, and leaves exactly the messages
received since its threshold, if and only if the dates that the senders wrote lie on the same side
of the threshold as the dates of receipt.

**Proof sketch.** The cleanup keeps the rows by their stored dates, which are those of the senders.
Rows have distinct ids, so two filters of the mails keep the same rows only if they agree on every
mail. -/
theorem receiptDate_iff (S : Settings) (now : Instant) (accounts : List MailAccount)
    {mails : List (StoredMail env)} (hn : (mails.map fun m => m.row.id).Nodup)
    (hfk : ∀ m ∈ mails, m.row.mailAccountId ∈ accounts.map MailAccount.id) :
    retentionCleanup accounts S now (mails.map StoredMail.row) =
        some (receivedSince (now - days S.retentionDays) mails) ↔
      ∀ m ∈ mails, ((m.mail.date env).toInstant < now - days S.retentionDays ↔
        m.mail.internaldate < now - days S.retentionDays) := by
  set threshold := now - days S.retentionDays with hthreshold
  have hids : ((mails.map StoredMail.row).map Message.id).Nodup := by
    rw [List.map_map]
    exact hn
  have hrun : retentionCleanup accounts S now (mails.map StoredMail.row) = some _ :=
    retentionCleanup_eq S now hids fun row hrow => by
      obtain ⟨m, hm, rfl⟩ := List.mem_map.mp hrow
      exact hfk m hm
  rw [hrun, Option.some_inj, unexpired, List.filter_map, receivedSince, ← hthreshold]
  constructor
  · intro heq m hm
    have hinj : ∀ p : StoredMail env → Bool, m.row ∈ (mails.filter p).map StoredMail.row ↔ p m :=
      fun p => by
      rw [List.mem_map]
      constructor
      · rintro ⟨m', hm', hrow⟩
        rw [List.mem_filter] at hm'
        obtain rfl := List.inj_on_of_nodup_map hn hm'.1 hm (congrArg Message.id hrow)
        exact hm'.2
      · intro hp
        exact ⟨m, List.mem_filter.mpr ⟨hm, hp⟩, rfl⟩
    have hkept := hinj ((fun row => ¬ row.internalDate < threshold) ∘ StoredMail.row)
    rw [heq, hinj] at hkept
    have hnot : ¬ (m.mail.date env).toInstant < threshold ↔ ¬ m.mail.internaldate < threshold := by
      simpa [m.internalDate_eq] using hkept.symm
    exact not_iff_not.mp hnot
  · intro hsame
    refine congrArg _ (List.filter_congr fun m hm => ?_)
    simp only [Function.comp_apply, m.internalDate_eq, hsame m hm]

end Receipt

/-! ## A message without a date -/

/-- An environment in which no date is parsed. -/
def undatedEnv : FetchEnv where
  html :=
    { isWord := fun c => c.isAlphanum || c = '_'
      parse := fun text => [.data (text.map .lit)]
      refs := fun name => attrEscapes.findSome? fun e => if e.2 = name then some [e.1] else none
      knows_attr := ⟨attrEscapes_proper, by decide, by decide⟩ }
  html2text := id
  maxBodyBytes := 1048576
  parseDate := fun _ => none

/-- The mail `hello` without a `Date` header, received at some time. -/
def undatedMail (internaldate : Instant) : ReceivedMail where
  internaldate
  content := { uid := some 1, text := "hello".toList }

/-- The row of a mail in mailbox 1, fetched when the mail was received. -/
def fetchedRow (env : FetchEnv) (id : ℕ) (mail : ReceivedMail) : StoredMail env where
  mail
  row :=
    { (fromImapMsg env.html env.html2text mail.internaldate env.maxBodyBytes
        (mail.parsed env)).values 1 1 with
      id, fetchedAt := mail.internaldate }
  fetched := ⟨mail.internaldate, 1, rfl⟩

/-- The row of the mail without a date. -/
def undatedRow (internaldate : Instant) : StoredMail undatedEnv :=
  fetchedRow undatedEnv 1 (undatedMail internaldate)

/-- The mailbox of the row. -/
def oneMailbox : MailAccount := { id := 1, userId := 1, email := "a@example.com".toList }

/-- An environment in which one date is parsed, eight o'clock on 15 January 2027. -/
def datedEnv : FetchEnv :=
  { undatedEnv with
    parseDate := fun text =>
      if text = "Fri, 15 Jan 2027 08:00:00 +0000".toList then
        some { wallClock := 1800000000000000, utcOffset := some 0 }
      else none }

/-- A mail with that date, received in the hour after it. -/
def datedMail : ReceivedMail where
  internaldate := 1800003600000000
  dateHeader := some "Fri, 15 Jan 2027 08:00:00 +0000".toList
  content := { uid := some 2, text := "hello".toList }

/-- A mail without a date that was received in 1970, and the mail of 2027. -/
def oldAndNew : List (StoredMail datedEnv) :=
  [fetchedRow datedEnv 1 (undatedMail 0), fetchedRow datedEnv 2 datedMail]

/-- A cleanup on the day of the second mail: the first is out of its term by both of its dates and
is deleted, the second is in its term by both and is kept. -/
theorem receiptDate_oldAndNew :
    retentionCleanup [oneMailbox] Settings.defaults 1800050000000000
        (oldAndNew.map StoredMail.row) =
      some (receivedSince (1800050000000000 - days Settings.defaults.retentionDays) oldAndNew) ∧
    (receivedSince (1800050000000000 - days Settings.defaults.retentionDays) oldAndNew).map
        Message.id = [2] := by
  refine ⟨(receiptDate_iff Settings.defaults 1800050000000000 [oneMailbox] (by decide)
    (by decide)).mpr fun m hm => ?_, by decide⟩
  rcases List.mem_cons.mp hm with rfl | hm
  · exact iff_of_true (by decide) (by decide)
  · obtain rfl := List.mem_singleton.mp hm
    exact iff_of_false (by decide) (by decide)

/-- **A message that is deleted on arrival**: it has no `Date` header, and the cleanup that runs
when it is received takes it for one from 1900. -/
theorem deleted_on_arrival :
    ¬ ∀ (env : FetchEnv) (S : Settings) (now : Instant) (accounts : List MailAccount)
      (mails : List (StoredMail env)), (mails.map fun m => m.row.id).Nodup →
      (∀ m ∈ mails, m.row.mailAccountId ∈ accounts.map MailAccount.id) →
      retentionCleanup accounts S now (mails.map StoredMail.row) =
        some (receivedSince (now - days S.retentionDays) mails) := by
  intro h
  have hkept := h undatedEnv Settings.defaults 1800000000000000 [oneMailbox]
    [undatedRow 1800000000000000] (by decide) (by decide)
  rw [retentionCleanup_eq _ _ (by decide) (by decide)] at hkept
  exact absurd (congrArg List.length (Option.some.inj hkept)) (by decide)

end Cleanup

end MailAggregator
