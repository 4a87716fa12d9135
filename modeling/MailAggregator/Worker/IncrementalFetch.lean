import MailAggregator.Shared.UrlSafety
import MailAggregator.Worker.ConnectRetry
import MailAggregator.Worker.ImapServer

set_option relaxedAutoImplicit false
set_option autoImplicit false

/-!
# What a fetch covers

`fetch_blocking` as a whole: the login, the two STATUS commands, one search, and the batches. The
new watermark is that of STATUS, whatever the search has found; one exception of an incremental
search is taken for an empty answer.

## Main definitions

* `MailAggregator.ImapFetcher.FetchWorld` — what a fetch meets.
* `MailAggregator.ImapFetcher.fetchBlocking` — the fetch.
* `MailAggregator.ImapFetcher.Covers` — no message below the new watermark is left out.

## Main results

* `MailAggregator.ImapFetcher.covers_iff` — exactly when an incremental fetch covers what it claims.

## Design

The INBOX may change during a fetch. The messages that are there all the time are named, and what is
asked of the server is about them: an answer to a search and to a FETCH includes them.
-/

namespace MailAggregator

open PyText ConnectRetry

namespace ImapFetcher

/-! ## The fetch -/

/-- The criteria of a search. -/
inductive SearchCriteria where
  /-- `AND(date_gte=since)`. -/
  | since (day : ℤ)
  /-- `UID n:*`. -/
  | uidFrom (n : ℕ)
  deriving DecidableEq, Repr

/-- How `mailbox.uids` ends. -/
inductive SearchEnd where
  | uids (uids : List ℕ)
  | mailboxFetchError (exc : PyException)
  /-- Any other exception. -/
  | raised (exc : PyException)

/-- What a fetch meets. -/
structure FetchWorld where
  connect : ConnectWorld
  /-- `SYNC_CONNECT_RETRIES`. -/
  retries : ℕ := 3
  statusUidvalidity : Except PyException (Option ℕ)
  statusUidnext : Except PyException (Option ℕ)
  /-- The UTC date when the criteria are made. -/
  today : ℤ
  search : SearchCriteria → SearchEnd
  /-- What `mailbox.fetch` yields for the `i`-th batch, and the time when it does. -/
  fetch : ℕ → List ℕ → Except PyException (Instant × List MailMessage)
  env : HtmlSanitize.HtmlEnv
  html2text : Text → Text

/-- `_chunks`. -/
def chunks (seq : List ℕ) (size : ℕ) : List (List ℕ) :=
  (List.range ((seq.length + (size - 1)) / size)).map fun i => (seq.drop (i * size)).take size

/-- `_fetch_iter`, and the conversion of what it yields. -/
def fetchIter (w : FetchWorld) (maxBodyBytes i : ℕ) (uids : List ℕ) :
    Except PyException (List FetchedMessage) :=
  if uids = [] then .ok []
  else
    match w.fetch i uids with
    | .error exc => .error exc
    | .ok (now, msgs) => .ok (msgs.map (fromImapMsg w.env w.html2text now maxBodyBytes))

/-- The loop over the batches, from the `i`-th one on. -/
def fetchBatches (w : FetchWorld) (maxBodyBytes : ℕ) :
    ℕ → List (List ℕ) → Except PyException (List FetchedMessage)
  | _, [] => .ok []
  | i, batch :: batches =>
    match fetchIter w maxBodyBytes i batch with
    | .error exc => .error exc
    | .ok fetched =>
      match fetchBatches w maxBodyBytes (i + 1) batches with
      | .error exc => .error exc
      | .ok later => .ok (fetched ++ later)

/-- The criteria of the search: the `SINCE` window, or the UIDs from the watermark on. -/
def searchCriteria (w : FetchWorld) (initialSyncDays uidvalidity : ℕ)
    (lastSyncedUidnext lastUidvalidity : Option ℕ) : SearchCriteria :=
  if doInitial lastSyncedUidnext lastUidvalidity uidvalidity then
    .since (w.today - initialSyncDays)
  else .uidFrom (lastSyncedUidnext.getD 0)

/-- The UIDs to fetch. -/
def selectUids (w : FetchWorld) (initialSyncDays uidvalidity : ℕ)
    (lastSyncedUidnext lastUidvalidity : Option ℕ) : Except PyException (List ℕ) :=
  match searchCriteria w initialSyncDays uidvalidity lastSyncedUidnext lastUidvalidity with
  | .since day =>
    match w.search (.since day) with
    | .uids uids => .ok uids
    | .mailboxFetchError exc | .raised exc => .error exc
  | .uidFrom n =>
    match w.search (.uidFrom n) with
    | .uids rawUids => .ok (incrementalUids n rawUids)
    -- `except imap_tools.errors.MailboxFetchError: raw_uids = []`
    | .mailboxFetchError _ => .ok (incrementalUids n [])
    | .raised exc => .error exc

/-- The batches, and the box. -/
def readBox (w : FetchWorld) (maxBodyBytes uidvalidity : ℕ)
    (statusUidnext lastSyncedUidnext : Option ℕ) (uids : List ℕ) :
    Except PyException FetchedBox :=
  match fetchBatches w maxBodyBytes 0 (chunks uids batchSize) with
  | .error exc => .error exc
  | .ok newMessages =>
    .ok
      { uidvalidity, newMessages
        uidnext := finalUidnext statusUidnext newMessages lastSyncedUidnext }

/-- `fetch_blocking`, after the login. -/
def fetchSession (w : FetchWorld) (initialSyncDays maxBodyBytes : ℕ)
    (lastSyncedUidnext lastUidvalidity : Option ℕ) : Except PyException FetchedBox :=
  match w.statusUidvalidity with
  | .error exc => .error exc
  | .ok statusUidv =>
    match w.statusUidnext with
    | .error exc => .error exc
    | .ok statusUidnext =>
      match selectUids w initialSyncDays (statusUidv.getD 0) lastSyncedUidnext lastUidvalidity with
      | .error exc => .error exc
      | .ok uids =>
        readBox w maxBodyBytes (statusUidv.getD 0) statusUidnext lastSyncedUidnext uids

/-- `fetch_blocking`. -/
def fetchBlocking (w : FetchWorld) (initialSyncDays maxBodyBytes : ℕ)
    (lastSyncedUidnext lastUidvalidity : Option ℕ) : Except PyException FetchedBox :=
  match (connectAndLogin w.connect w.retries).result with
  | .raised _ exc => .error exc
  | .returned _ => fetchSession w initialSyncDays maxBodyBytes lastSyncedUidnext lastUidvalidity

/-! ## The batches -/

/-- No UID is in no batch. -/
theorem exists_mem_chunks {seq : List ℕ} {size u : ℕ} (hsize : 0 < size) (hu : u ∈ seq) :
    ∃ batch ∈ chunks seq size, u ∈ batch := by
  obtain ⟨j, hj, rfl⟩ := List.mem_iff_getElem.mp hu
  have hbatch : j / size < (seq.length + (size - 1)) / size := by
    rw [Nat.lt_iff_add_one_le, Nat.le_div_iff_mul_le hsize, Nat.add_mul, Nat.one_mul]
    have := Nat.div_mul_le_self j size
    omega
  refine ⟨_, List.mem_map.mpr ⟨j / size, List.mem_range.mpr hbatch, rfl⟩, ?_⟩
  have hsplit : j = j / size * size + j % size := by
    rw [Nat.mul_comm]
    exact (Nat.div_add_mod j size).symm
  refine List.mem_iff_getElem.mpr ⟨j % size, ?_, ?_⟩
  · have := Nat.mod_lt j hsize
    rw [List.length_take, List.length_drop]
    omega
  · rw [List.getElem_take, List.getElem_drop]
    congr 1
    exact hsplit.symm

/-- What the server yields for messages that it has all the time. -/
structure Serves (w : FetchWorld) (present : List ServerMessage) : Prop where
  since : ∀ day uids, w.search (.since day) = .uids uids →
    ∀ m ∈ present, day ≤ m.internalDay → m.uid ∈ uids
  uidFrom : ∀ n uids, w.search (.uidFrom n) = .uids uids →
    ∀ m ∈ present, n ≤ m.uid → m.uid ∈ uids
  fetch : ∀ i batch now msgs, w.fetch i batch = .ok (now, msgs) →
    ∀ m ∈ present, m.uid ∈ batch → m.toMail ∈ msgs

/-- A message is among those that were fetched, as it was converted at some time. -/
def Fetched (w : FetchWorld) (maxBodyBytes : ℕ) (messages : List FetchedMessage)
    (m : ServerMessage) : Prop :=
  ∃ now, fromImapMsg w.env w.html2text now maxBodyBytes m.toMail ∈ messages

section Batches

variable {w : FetchWorld} {present : List ServerMessage} {maxBodyBytes i : ℕ}

theorem fetched_of_fetchIter (hserves : Serves w present) {batch : List ℕ}
    {fetched : List FetchedMessage} (h : fetchIter w maxBodyBytes i batch = .ok fetched)
    {m : ServerMessage} (hm : m ∈ present) (hu : m.uid ∈ batch) :
    Fetched w maxBodyBytes fetched m := by
  rw [fetchIter, if_neg (List.ne_nil_of_mem hu)] at h
  cases hfetch : w.fetch i batch with
  | error exc => rw [hfetch] at h; cases h
  | ok reply =>
    obtain ⟨now, msgs⟩ := reply
    rw [hfetch] at h
    cases h
    exact ⟨now, List.mem_map_of_mem (hserves.fetch i batch now msgs hfetch m hm hu)⟩

/-- **The batches fetch each message that is asked for.** -/
theorem fetched_of_fetchBatches (hserves : Serves w present) {batches : List (List ℕ)}
    {fetched : List FetchedMessage} (h : fetchBatches w maxBodyBytes i batches = .ok fetched)
    {m : ServerMessage} (hm : m ∈ present) {batch : List ℕ} (hbatch : batch ∈ batches)
    (hu : m.uid ∈ batch) : Fetched w maxBodyBytes fetched m := by
  induction batches generalizing i fetched with
  | nil => cases hbatch
  | cons first batches ih =>
    rw [fetchBatches] at h
    cases hfirst : fetchIter w maxBodyBytes i first with
    | error exc => rw [hfirst] at h; cases h
    | ok messages =>
      cases hlater : fetchBatches w maxBodyBytes (i + 1) batches with
      | error exc => simp only [hfirst, hlater] at h; cases h
      | ok later =>
        simp only [hfirst, hlater, Except.ok.injEq] at h
        subst h
        rcases List.mem_cons.mp hbatch with rfl | hbatch
        · obtain ⟨now, hmem⟩ := fetched_of_fetchIter hserves hfirst hm hu
          exact ⟨now, List.mem_append_left _ hmem⟩
        · obtain ⟨now, hmem⟩ := ih hlater hbatch
          exact ⟨now, List.mem_append_right _ hmem⟩

/-- The batches of a search fetch each message that it has found. -/
theorem fetched_of_mem_uids (hserves : Serves w present) {uids : List ℕ}
    {fetched : List FetchedMessage}
    (h : fetchBatches w maxBodyBytes i (chunks uids batchSize) = .ok fetched)
    {m : ServerMessage} (hm : m ∈ present) (hu : m.uid ∈ uids) :
    Fetched w maxBodyBytes fetched m := by
  obtain ⟨batch, hbatch, hmem⟩ := exists_mem_chunks (show 0 < batchSize by decide) hu
  exact fetched_of_fetchBatches hserves h hm hbatch hmem

end Batches

/-! ## A fetch that returns -/

section Returned

variable {w : FetchWorld} {initialSyncDays maxBodyBytes uidvalidity : ℕ}
  {statusUidv lastSyncedUidnext lastUidvalidity : Option ℕ} {box : FetchedBox}

/-- A box that is read. -/
theorem readBox_eq_ok {statusUidnext : Option ℕ} {uids : List ℕ}
    (h : readBox w maxBodyBytes uidvalidity statusUidnext lastSyncedUidnext uids = .ok box) :
    fetchBatches w maxBodyBytes 0 (chunks uids batchSize) = .ok box.newMessages ∧
      box.uidvalidity = uidvalidity ∧
      box.uidnext = finalUidnext statusUidnext box.newMessages lastSyncedUidnext := by
  rw [readBox] at h
  cases hbatches : fetchBatches w maxBodyBytes 0 (chunks uids batchSize) with
  | error exc => rw [hbatches] at h; cases h
  | ok newMessages =>
    rw [hbatches] at h
    cases h
    exact ⟨rfl, rfl, rfl⟩

/-- **The stages of a fetch that returns.** -/
theorem fetchBlocking_eq_ok (hvalidity : w.statusUidvalidity = .ok statusUidv)
    (h : fetchBlocking w initialSyncDays maxBodyBytes lastSyncedUidnext lastUidvalidity =
      .ok box) :
    ∃ statusUidnext uids, w.statusUidnext = .ok statusUidnext ∧
      selectUids w initialSyncDays (statusUidv.getD 0) lastSyncedUidnext lastUidvalidity =
        .ok uids ∧
      fetchBatches w maxBodyBytes 0 (chunks uids batchSize) = .ok box.newMessages ∧
      box.uidvalidity = statusUidv.getD 0 ∧
      box.uidnext = finalUidnext statusUidnext box.newMessages lastSyncedUidnext := by
  rw [fetchBlocking] at h
  cases hconnect : (connectAndLogin w.connect w.retries).result with
  | raised attempt exc => rw [hconnect] at h; cases h
  | returned attempt =>
    simp only [hconnect, fetchSession, hvalidity] at h
    cases hstatus : w.statusUidnext with
    | error exc => simp only [hstatus] at h; cases h
    | ok statusUidnext =>
      simp only [hstatus] at h
      cases huids : selectUids w initialSyncDays (statusUidv.getD 0) lastSyncedUidnext
          lastUidvalidity with
      | error exc => simp only [huids] at h; cases h
      | ok uids =>
        simp only [huids] at h
        exact ⟨statusUidnext, uids, rfl, rfl, readBox_eq_ok h⟩

/-- An initial search that succeeds has asked for the window. -/
theorem selectUids_initial {uids : List ℕ}
    (hinitial : doInitial lastSyncedUidnext lastUidvalidity uidvalidity)
    (h : selectUids w initialSyncDays uidvalidity lastSyncedUidnext lastUidvalidity = .ok uids) :
    w.search (.since (w.today - initialSyncDays)) = .uids uids := by
  rw [selectUids, searchCriteria, if_pos hinitial] at h
  cases hsearch : w.search (.since (w.today - initialSyncDays)) with
  | uids found => simp only [hsearch] at h; rw [Except.ok.inj h]
  | mailboxFetchError exc => simp only [hsearch] at h; cases h
  | raised exc => simp only [hsearch] at h; cases h

/-- An incremental search keeps the UIDs from the watermark on, or nothing after an error. -/
theorem selectUids_incremental {n : ℕ} {uids : List ℕ}
    (h : selectUids w initialSyncDays uidvalidity (some n) (some uidvalidity) = .ok uids) :
    ∃ rawUids, uids = incrementalUids n rawUids ∧
      (w.search (.uidFrom n) = .uids rawUids ∨
        rawUids = [] ∧ ∃ exc, w.search (.uidFrom n) = .mailboxFetchError exc) := by
  have hincremental : ¬ doInitial (some n) (some uidvalidity) uidvalidity := by simp [doInitial]
  rw [selectUids, searchCriteria, if_neg hincremental, Option.getD_some] at h
  cases hsearch : w.search (.uidFrom n) with
  | uids rawUids =>
    simp only [hsearch] at h
    exact ⟨rawUids, (Except.ok.inj h).symm, Or.inl rfl⟩
  | mailboxFetchError exc =>
    simp only [hsearch] at h
    exact ⟨[], (Except.ok.inj h).symm, Or.inr ⟨rfl, exc, rfl⟩⟩
  | raised exc => simp only [hsearch] at h; cases h

end Returned

/-! ## What an incremental fetch covers -/

/-- **A fetch from a watermark covers what it claims**: each message that is there all the time and
lies between the old watermark and the new one is fetched. -/
def Covers (w : FetchWorld) (maxBodyBytes : ℕ) (present : List ServerMessage) (n : ℕ)
    (box : FetchedBox) : Prop :=
  ∀ m ∈ present, n ≤ m.uid → (∀ u ∈ box.uidnext, m.uid < u) →
    Fetched w maxBodyBytes box.newMessages m

/-- **A failed search hides a message**: the exception is the one that is caught, and STATUS has
reported a UIDNEXT above a message from the old watermark on. -/
def Hides (w : FetchWorld) (present : List ServerMessage) (n : ℕ) : Prop :=
  (∃ exc, w.search (.uidFrom n) = .mailboxFetchError exc) ∧
    ∃ m ∈ present, n ≤ m.uid ∧ ∃ u, w.statusUidnext = .ok (some u) ∧ m.uid < u

section Fetch

variable {w : FetchWorld} {present : List ServerMessage} {initialSyncDays maxBodyBytes n : ℕ}
  {statusUidv : Option ℕ} {box : FetchedBox}

/-- **Exactly when an incremental fetch covers what it claims**: if and only if no failed search
hides a message that is there all the time.

**Proof sketch.** A search that succeeds finds each such message from the old watermark on, so a
batch fetches it. One that fails is taken for an empty answer: nothing is fetched, and the new
watermark is the UIDNEXT of STATUS, or the old one if STATUS has none. -/
theorem covers_iff (hserves : Serves w present) (hvalidity : w.statusUidvalidity = .ok statusUidv)
    (h : fetchBlocking w initialSyncDays maxBodyBytes (some n) (some (statusUidv.getD 0)) =
      .ok box) : Covers w maxBodyBytes present n box ↔ ¬ Hides w present n := by
  obtain ⟨statusUidnext, uids, hstatus, huids, hbatches, -, huidnext⟩ :=
    fetchBlocking_eq_ok hvalidity h
  obtain ⟨rawUids, rfl, hsearch | ⟨rfl, exc, hsearch⟩⟩ := selectUids_incremental huids
  · refine iff_of_true (fun m hm hn _ => fetched_of_mem_uids hserves hbatches hm ?_) ?_
    · exact List.mem_filter.mpr ⟨hserves.uidFrom n rawUids hsearch m hm hn, decide_eq_true hn⟩
    · rintro ⟨⟨exc, hfailed⟩, -⟩
      rw [hsearch] at hfailed
      cases hfailed
  · have hempty : box.newMessages = [] := by
      rw [incrementalUids, List.filter_nil] at hbatches
      exact (Except.ok.inj hbatches).symm
    have hnothing (m : ServerMessage) : ¬ Fetched w maxBodyBytes box.newMessages m := by
      rintro ⟨now, hmem⟩
      rw [hempty] at hmem
      cases hmem
    rw [hempty] at huidnext
    constructor
    · rintro hcovers ⟨-, m, hm, hn, u, hu, hlt⟩
      rw [hstatus, Except.ok.injEq] at hu
      subst hu
      refine hnothing m (hcovers m hm hn fun u' hu' => ?_)
      rw [huidnext] at hu'
      obtain rfl : u = u' := Option.some.inj hu'
      exact hlt
    · intro hnot m hm hn hbelow
      exfalso
      cases statusUidnext with
      | none => exact absurd (hbelow n huidnext) (not_lt.mpr hn)
      | some u => exact hnot ⟨⟨exc, hsearch⟩, m, hm, hn, u, hstatus, hbelow u huidnext⟩

end Fetch

/-! ### One INBOX -/

/-- The empty list of classes is closed under bases. -/
theorem classes_base_nil : ∀ c ∈ ([] : List ExcClass), ∀ b ∈ c.base, b ∈ ([] : List ExcClass) :=
  fun _ h => absurd h List.not_mem_nil

/-- What `mailbox.uids` raises when the server answers NO. -/
def searchRefused : PyException where
  typeName := "MailboxFetchError".toList
  text := "NO".toList
  classes_base := classes_base_nil

/-- A fetch from an INBOX that does not change, over a connection that holds. -/
def fetchFrom (S : ImapServer) (refused : Bool) : FetchWorld where
  connect :=
    { password := some "p".toList, accessToken := none, opening := fun _ => .ok ()
      login := fun _ => .ok () }
  statusUidvalidity := .ok (some S.uidvalidity)
  statusUidnext := .ok (some S.uidnext)
  today := 0
  search
    | .since day => .uids (S.sinceUids day)
    | .uidFrom n => if refused then .mailboxFetchError searchRefused else .uids (S.uidRange n true)
  fetch _ uids := .ok (0, (S.fetch uids).map ServerMessage.toMail)
  env := HtmlSanitize.linkEnv
  html2text := id

/-- An INBOX that does not change serves its messages. -/
theorem serves_fetchFrom (S : ImapServer) (refused : Bool) :
    Serves (fetchFrom S refused) S.inbox where
  since day uids h m hm hday := by
    obtain rfl : S.sinceUids day = uids := SearchEnd.uids.inj h
    exact ImapServer.uid_mem_sinceUids hm hday
  uidFrom n uids h m hm hn := by
    cases refused with
    | true => cases h
    | false =>
      obtain rfl : S.uidRange n true = uids := SearchEnd.uids.inj h
      exact List.mem_of_mem_filter (ImapServer.uid_mem_incrementalUids hm hn)
  fetch i batch now msgs h m hm hu := by
    obtain ⟨-, rfl⟩ := Prod.mk.inj (Except.ok.inj h)
    exact List.mem_map_of_mem (List.mem_filter.mpr ⟨hm, decide_eq_true hu⟩)

/-- An INBOX with a message above the watermark 5. -/
def newMailInbox : ImapServer where
  uidvalidity := 1
  uidnext := 8
  inbox := [{ uid := 7, internalDay := 0, content := { uid := none, text := "Hi".toList } }]
  uid_lt_uidnext := by decide

/-- If the search succeeds, the message is fetched. -/
theorem covers_newMailInbox : ∃ box,
    fetchBlocking (fetchFrom newMailInbox false) 30 1024 (some 5) (some 1) = .ok box ∧
      box.uidnext = some 8 ∧
      Covers (fetchFrom newMailInbox false) 1024 newMailInbox.inbox 5 box := by
  obtain ⟨box, hbox, huidnext⟩ : ∃ box,
      fetchBlocking (fetchFrom newMailInbox false) 30 1024 (some 5) (some 1) = .ok box ∧
        box.uidnext = some 8 := ⟨_, rfl, rfl⟩
  refine ⟨box, hbox, huidnext, (covers_iff (serves_fetchFrom newMailInbox false) rfl hbox).mpr ?_⟩
  rintro ⟨⟨exc, hfailed⟩, -⟩
  cases hfailed

/-- If the search is refused, the fetch returns without the message and goes past it. -/
theorem refused_search_skips : ∃ box,
    fetchBlocking (fetchFrom newMailInbox true) 30 1024 (some 5) (some 1) = .ok box ∧
      box.uidnext = some 8 ∧ box.newMessages = [] ∧
      ¬ ∀ (w : FetchWorld) (present : List ServerMessage) (initialSyncDays maxBodyBytes n : ℕ)
        (statusUidv : Option ℕ) (box : FetchedBox), Serves w present →
        w.statusUidvalidity = .ok statusUidv →
        fetchBlocking w initialSyncDays maxBodyBytes (some n) (some (statusUidv.getD 0)) = .ok box →
        Covers w maxBodyBytes present n box := by
  have hserves := serves_fetchFrom newMailInbox true
  obtain ⟨box, hbox, hvalues⟩ : ∃ box,
      fetchBlocking (fetchFrom newMailInbox true) 30 1024 (some 5) (some 1) = .ok box ∧
        box.uidnext = some 8 ∧ box.newMessages = [] := ⟨_, rfl, rfl, rfl⟩
  refine ⟨box, hbox, hvalues.1, hvalues.2, fun h => ?_⟩
  have hcovers := h _ _ 30 1024 5 (some 1) box hserves rfl hbox
  exact (covers_iff hserves rfl hbox).mp hcovers
    ⟨⟨searchRefused, rfl⟩, _, List.mem_cons_self, by decide, 8, rfl, by decide⟩

end ImapFetcher

end MailAggregator
