import MailAggregator.Lib.Transition
import MailAggregator.Worker.ImapServer
import MailAggregator.Worker.SyncStore

set_option relaxedAutoImplicit false
set_option autoImplicit false

/-!
# Concurrent syncs of one mailbox

Any number of runs of `sync_one_account` on one account (the periodic cycle and forced syncs),
against a server whose INBOX changes at any moment. A run can end at any point without having
reached its end: a crash, a timeout and a cancellation are one label.

## Main definitions

* `MailAggregator.SyncSystem.SyncRun` — one run of `sync_one_account` and where it stands.
* `MailAggregator.SyncSystem.SyncState` — the server, the tables and the runs.
* `MailAggregator.SyncSystem.syncSystem` — the transition system.
* `MailAggregator.SyncSystem.SyncStep` — what a step does.

## Design

A session has one UIDVALIDITY: after STATUS has reported it, SEARCH and FETCH get no reply once
the INBOX has another one. The rows of an open transaction are kept apart from the committed
ones, under the run that inserted them; an insert waits while another open transaction holds its
key. The fields under "history" record what has happened; no step reads them.
-/

namespace MailAggregator

open PyText ImapFetcher MessagesRepo SyncStore Transition

namespace SyncSystem

/-- The settings, the account, and the libraries outside this repository. -/
structure SyncSetup where
  settings : Settings
  env : HtmlSanitize.HtmlEnv
  html2text : Text → Text

/-- An initial search: the day of its `SINCE`, what it returned, and the UIDNEXT of the INBOX when
it was made. -/
structure InitialSearch where
  uidvalidity : ℕ
  since : ℤ
  returned : List ℕ
  uidnext : ℕ
  deriving DecidableEq, Repr

/-- Where a run stands. -/
inductive SyncPhase where
  /-- It has read the account row. -/
  | loaded
  /-- STATUS has reported UIDVALIDITY. -/
  | validity (uidvalidity : ℕ)
  /-- STATUS has been asked for UIDNEXT. -/
  | status (uidvalidity : ℕ) (uidnext : Option ℕ)
  /-- It has searched, and is fetching. -/
  | fetching (uidvalidity : ℕ) (uidnext : Option ℕ) (uids : List ℕ)
      (newMessages : List FetchedMessage)
  /-- `fetch_blocking` has returned. -/
  | fetched (box : FetchedBox)
  /-- The transaction of the inserts is open. -/
  | inserting (box : FetchedBox) (rest : List FetchedMessage)
  /-- The transaction of the inserts is committed. -/
  | inserted (box : FetchedBox)
  deriving DecidableEq, Repr

/-- One run: the row it has read and its phase. `origin` is history: the initial search that the
watermark it works from descends from. -/
structure SyncRun where
  account : MailAccount
  origin : Option InitialSearch
  phase : SyncPhase
  deriving DecidableEq, Repr

/-- The server, the tables, the runs, and the history. -/
structure SyncState where
  server : ImapServer
  account : MailAccount
  messages : List Message
  nextMessageId : ℕ
  /-- The rows of open transactions, with the run that inserted each. -/
  pending : List (ℕ × Message)
  runs : ℕ → Option SyncRun
  /-- History: the initial search that the stored watermark descends from. -/
  origin : Option InitialSearch
  /-- History: the keys of the rows that retention has removed. -/
  removed : List MessageKey
  /-- History: the initial searches. -/
  searches : List InitialSearch
  /-- History: each UIDNEXT that STATUS reported or a run derived from UIDs, with the UIDVALIDITY
  it was observed under. -/
  observed : List (ℕ × ℕ)
  /-- History: the UIDVALIDITY values under which a search has failed. -/
  failedSearches : List ℕ

/-- The steps of the server, of the runs and of retention. -/
inductive SyncLabel where
  | arrive (gap : ℕ) (internalDay : ℤ) (content : MailMessage)
  | expunge (uid : ℕ)
  | changeUidvalidity (uidvalidity uidnext : ℕ) (inbox : List ServerMessage)
  /-- A run reads the account row. -/
  | load (r : ℕ)
  | statusUidvalidity (r : ℕ)
  /-- STATUS reports UIDNEXT, or omits it. -/
  | statusUidnext (r : ℕ) (reported : Bool)
  /-- The search, on a day. -/
  | search (r : ℕ) (today : ℤ) (withLast : Bool)
  /-- An incremental search fails, and the run goes on. -/
  | searchFailed (r : ℕ)
  /-- The next 50 UIDs are fetched. -/
  | fetchBatch (r : ℕ) (now : Instant)
  /-- `fetch_blocking` returns. -/
  | returnBox (r : ℕ)
  | begin (r : ℕ)
  | insert (r : ℕ) (now : Instant)
  | commit (r : ℕ)
  | markSuccess (r : ℕ) (now : Instant)
  /-- A run ends early, wherever it stands. -/
  | crash (r : ℕ)
  /-- Retention deletes some rows. -/
  | retention (messageIds : List ℕ)

namespace SyncState

/-- The state with another record of a run. -/
def setRun (s : SyncState) (r : ℕ) (run : SyncRun) : SyncState :=
  { s with runs := Function.update s.runs r (some run) }

/-- The state after a run has ended; its open transaction is rolled back. -/
def endRun (s : SyncState) (r : ℕ) : SyncState :=
  { s with
    runs := Function.update s.runs r none
    pending := s.pending.filter fun p => p.1 ≠ r }

/-- The rows of the open transaction of a run. -/
def pendingOf (s : SyncState) (r : ℕ) : List Message :=
  (s.pending.filter fun p => p.1 = r).map Prod.snd

/-- Another open transaction holds a key. -/
def Blocked (s : SyncState) (r : ℕ) (key : MessageKey) : Prop :=
  ∃ p ∈ s.pending, p.1 ≠ r ∧ p.2.key = key

instance (s : SyncState) (r : ℕ) (key : MessageKey) : Decidable (s.Blocked r key) :=
  inferInstanceAs (Decidable (∃ p ∈ s.pending, p.1 ≠ r ∧ p.2.key = key))

end SyncState

section System

variable (E : SyncSetup)

/-- The search of a run: the initial window, or everything from the watermark on. -/
def searchStep (s : SyncState) (r : ℕ) (run : SyncRun) (uidvalidity : ℕ) (uidnext : Option ℕ)
    (today : ℤ) (withLast : Bool) : SyncState :=
  let watermark := run.account.lastSyncedUidnext
  if doInitial watermark run.account.lastUidvalidity uidvalidity then
    let since := today - E.settings.initialSyncDays
    let uids := s.server.sinceUids since
    let k : InitialSearch :=
      { uidvalidity, since, returned := uids, uidnext := s.server.uidnext }
    { s.setRun r { run with origin := some k, phase := .fetching uidvalidity uidnext uids [] } with
      searches := k :: s.searches }
  else
    let n := watermark.getD 0
    let uids := incrementalUids n (s.server.uidRange n withLast)
    s.setRun r { run with phase := .fetching uidvalidity uidnext uids [] }

/-- The messages of one FETCH. -/
def fetchMessages (s : SyncState) (uids : List ℕ) (now : Instant) : List FetchedMessage :=
  (s.server.fetch uids).map fun m =>
    fromImapMsg E.env E.html2text now E.settings.maxBodyBytes m.toMail

/-- The return of `fetch_blocking`. -/
def returnStep (s : SyncState) (r : ℕ) (run : SyncRun) (uidvalidity : ℕ) (uidnext : Option ℕ)
    (newMessages : List FetchedMessage) : SyncState :=
  let final := finalUidnext uidnext newMessages run.account.lastSyncedUidnext
  let derived := if uidnext = none ∧ newMessages ≠ [] then final.toList else []
  let box : FetchedBox := { uidvalidity, uidnext := final, newMessages }
  { s.setRun r { run with phase := .fetched box } with
    observed := derived.map (fun n => (uidvalidity, n)) ++ s.observed }

/-- The insert of one message, in the open transaction of a run. -/
def insertStep (s : SyncState) (r : ℕ) (run : SyncRun) (box : FetchedBox) (m : FetchedMessage)
    (rest : List FetchedMessage) (now : Instant) : SyncState :=
  match insertMessageIdempotent (s.messages ++ s.pendingOf r) s.nextMessageId now
      (m.values run.account.id box.uidvalidity) with
  | .error _ => s.endRun r
  | .ok none =>
    { s.setRun r { run with phase := .inserting box rest } with
      nextMessageId := s.nextMessageId + 1 }
  | .ok (some row) =>
    { s.setRun r { run with phase := .inserting box rest } with
      nextMessageId := s.nextMessageId + 1
      pending := s.pending ++ [(r, row)] }

/-- The commit of the inserts of a run. -/
def commitStep (s : SyncState) (r : ℕ) (run : SyncRun) (box : FetchedBox) : SyncState :=
  { s.setRun r { run with phase := .inserted box } with
    messages := s.messages ++ s.pendingOf r
    pending := s.pending.filter fun p => p.1 ≠ r }

/-- The transaction of `mark_sync_success`, and the end of the run. -/
def markStep (s : SyncState) (r : ℕ) (run : SyncRun) (box : FetchedBox) (now : Instant) :
    SyncState :=
  if WatermarkFits box then
    let set := MailAccountsRepo.markSyncSuccess box.uidnext (some box.uidvalidity) now
    { s.endRun r with account := set s.account, origin := run.origin }
  else s.endRun r

/-- The state after a step, where it is enabled. -/
def syncNext (s : SyncState) : SyncLabel → Option SyncState
  | .arrive gap internalDay content =>
    some { s with server := s.server.arrive gap internalDay content }
  | .expunge uid => some { s with server := s.server.expunge uid }
  | .changeUidvalidity uidvalidity uidnext inbox =>
    match s.server.changeUidvalidity uidvalidity uidnext inbox with
    | some server => some { s with server }
    | none => none
  | .load r =>
    match s.runs r with
    | none => some (s.setRun r { account := s.account, origin := s.origin, phase := .loaded })
    | some _ => none
  | .statusUidvalidity r =>
    match s.runs r with
    | some ⟨account, origin, .loaded⟩ =>
      some (s.setRun r ⟨account, origin, .validity s.server.uidvalidity⟩)
    | _ => none
  | .statusUidnext r reported =>
    match s.runs r with
    | some ⟨account, origin, .validity v⟩ =>
      if s.server.uidvalidity = v then
        if reported then
          some { s.setRun r ⟨account, origin, .status v (some s.server.uidnext)⟩ with
            observed := (v, s.server.uidnext) :: s.observed }
        else some (s.setRun r ⟨account, origin, .status v none⟩)
      else none
    | _ => none
  | .search r today withLast =>
    match s.runs r with
    | some ⟨account, origin, .status v n⟩ =>
      if s.server.uidvalidity = v then
        some (searchStep E s r ⟨account, origin, .status v n⟩ v n today withLast)
      else none
    | _ => none
  | .searchFailed r =>
    match s.runs r with
    | some ⟨account, origin, .status v n⟩ =>
      if doInitial account.lastSyncedUidnext account.lastUidvalidity v then none
      else
        some { s.setRun r ⟨account, origin, .fetching v n [] []⟩ with
          failedSearches := v :: s.failedSearches }
    | _ => none
  | .fetchBatch r now =>
    match s.runs r with
    | some ⟨account, origin, .fetching v n uids ms⟩ =>
      if s.server.uidvalidity = v ∧ uids ≠ [] then
        some (s.setRun r ⟨account, origin, .fetching v n (uids.drop batchSize)
          (ms ++ fetchMessages E s (uids.take batchSize) now)⟩)
      else none
    | _ => none
  | .returnBox r =>
    match s.runs r with
    | some ⟨account, origin, .fetching v n [] ms⟩ =>
      some (returnStep s r ⟨account, origin, .fetching v n [] ms⟩ v n ms)
    | _ => none
  | .begin r =>
    match s.runs r with
    | some ⟨account, origin, .fetched box⟩ =>
      some (s.setRun r ⟨account, origin, .inserting box box.newMessages⟩)
    | _ => none
  | .insert r now =>
    match s.runs r with
    | some ⟨account, origin, .inserting box (m :: rest)⟩ =>
      if s.Blocked r (m.values account.id box.uidvalidity).key then none
      else some (insertStep s r ⟨account, origin, .inserting box (m :: rest)⟩ box m rest now)
    | _ => none
  | .commit r =>
    match s.runs r with
    | some ⟨account, origin, .inserting box []⟩ =>
      some (commitStep s r ⟨account, origin, .inserting box []⟩ box)
    | _ => none
  | .markSuccess r now =>
    match s.runs r with
    | some ⟨account, origin, .inserted box⟩ =>
      some (markStep s r ⟨account, origin, .inserted box⟩ box now)
    | _ => none
  | .crash r => some (s.endRun r)
  | .retention ids =>
    some { s with
      messages := deleteMessages s.messages ids
      removed := (s.messages.filter fun m => m.id ∈ ids).map (fun m => m.key) ++ s.removed }

/-- A new account, and no run yet. -/
structure SyncState.Fresh (s : SyncState) : Prop where
  lastSyncedUidnext : s.account.lastSyncedUidnext = none
  lastUidvalidity : s.account.lastUidvalidity = none
  keys : (s.messages.map fun m => m.key).Nodup
  pending : s.pending = []
  runs : ∀ r, s.runs r = none
  origin : s.origin = none
  removed : s.removed = []
  searches : s.searches = []
  observed : s.observed = []
  failedSearches : s.failedSearches = []

/-- The server, the runs and retention, from a new account. -/
def syncSystem : System SyncState SyncLabel where
  init := SyncState.Fresh
  next := syncNext E

end System

/-! ## What a step does -/

/-- **What a step does**, by the run whose step it is. -/
inductive SyncStep (E : SyncSetup) (s : SyncState) : SyncLabel → SyncState → Prop
  /-- The INBOX changes. -/
  | server (l : SyncLabel) (server : ImapServer) (hev : s.server.Evolves server) :
    SyncStep E s l { s with server := server }
  | load (r : ℕ) :
    SyncStep E s (.load r)
      (s.setRun r { account := s.account, origin := s.origin, phase := .loaded })
  | statusUidvalidity (r : ℕ) (run : SyncRun) (hr : s.runs r = some run)
    (hphase : run.phase = .loaded) :
    SyncStep E s (.statusUidvalidity r)
      (s.setRun r { run with phase := .validity s.server.uidvalidity })
  | uidnextReported (r : ℕ) (run : SyncRun) (v : ℕ) (hr : s.runs r = some run)
    (hphase : run.phase = .validity v) (hv : s.server.uidvalidity = v) :
    SyncStep E s (.statusUidnext r true)
      { s.setRun r { run with phase := .status v (some s.server.uidnext) } with
        observed := (v, s.server.uidnext) :: s.observed }
  | uidnextOmitted (r : ℕ) (run : SyncRun) (v : ℕ) (hr : s.runs r = some run)
    (hphase : run.phase = .validity v) :
    SyncStep E s (.statusUidnext r false) (s.setRun r { run with phase := .status v none })
  | search (r : ℕ) (run : SyncRun) (v : ℕ) (n : Option ℕ) (today : ℤ) (withLast : Bool)
    (hr : s.runs r = some run) (hphase : run.phase = .status v n)
    (hv : s.server.uidvalidity = v) :
    SyncStep E s (.search r today withLast) (searchStep E s r run v n today withLast)
  | searchFailed (r : ℕ) (run : SyncRun) (v : ℕ) (n : Option ℕ) (hr : s.runs r = some run)
    (hphase : run.phase = .status v n)
    (hinit : ¬ doInitial run.account.lastSyncedUidnext run.account.lastUidvalidity v) :
    SyncStep E s (.searchFailed r)
      { s.setRun r { run with phase := .fetching v n [] [] } with
        failedSearches := v :: s.failedSearches }
  | fetchBatch (r : ℕ) (run : SyncRun) (v : ℕ) (n : Option ℕ) (uids : List ℕ)
    (ms : List FetchedMessage) (now : Instant) (hr : s.runs r = some run)
    (hphase : run.phase = .fetching v n uids ms) :
    SyncStep E s (.fetchBatch r now)
      (s.setRun r
        { run with
          phase := .fetching v n (uids.drop batchSize)
            (ms ++ fetchMessages E s (uids.take batchSize) now) })
  | returnBox (r : ℕ) (run : SyncRun) (v : ℕ) (n : Option ℕ) (ms : List FetchedMessage)
    (hr : s.runs r = some run) (hphase : run.phase = .fetching v n [] ms) :
    SyncStep E s (.returnBox r) (returnStep s r run v n ms)
  | begin (r : ℕ) (run : SyncRun) (box : FetchedBox) (hr : s.runs r = some run)
    (hphase : run.phase = .fetched box) :
    SyncStep E s (.begin r) (s.setRun r { run with phase := .inserting box box.newMessages })
  | insert (r : ℕ) (run : SyncRun) (box : FetchedBox) (m : FetchedMessage)
    (rest : List FetchedMessage) (now : Instant) (hr : s.runs r = some run)
    (hphase : run.phase = .inserting box (m :: rest))
    (hfree : ¬ s.Blocked r (m.values run.account.id box.uidvalidity).key) :
    SyncStep E s (.insert r now) (insertStep s r run box m rest now)
  | commit (r : ℕ) (run : SyncRun) (box : FetchedBox) (hr : s.runs r = some run)
    (hphase : run.phase = .inserting box []) :
    SyncStep E s (.commit r) (commitStep s r run box)
  | markSuccess (r : ℕ) (run : SyncRun) (box : FetchedBox) (now : Instant)
    (hr : s.runs r = some run) (hphase : run.phase = .inserted box) :
    SyncStep E s (.markSuccess r now) (markStep s r run box now)
  | crash (r : ℕ) : SyncStep E s (.crash r) (s.endRun r)
  | retention (ids : List ℕ) :
    SyncStep E s (.retention ids)
      { s with
        messages := deleteMessages s.messages ids
        removed := (s.messages.filter fun m => m.id ∈ ids).map (fun m => m.key) ++ s.removed }

/-- **Every step is one of these.**

**Proof sketch.** By cases on the label. A label of the server gives an evolution of the mailbox,
and a label of a run is enabled in one phase of that run only, whose data determine the constructor.
The status and the search ask for the UIDVALIDITY of the session as well, which the guard
provides. -/
theorem syncStep_of_next {E : SyncSetup} {s t : SyncState} {l : SyncLabel}
    (ht : syncNext E s l = some t) : SyncStep E s l t := by
  cases l with
  | arrive gap internalDay content =>
    obtain rfl := Option.some.inj ht
    exact .server _ _ (ImapServer.evolves_arrive _ _ _ _)
  | expunge uid =>
    obtain rfl := Option.some.inj ht
    exact .server _ _ (ImapServer.evolves_expunge _ _)
  | changeUidvalidity v n inbox =>
    simp only [syncNext] at ht
    split at ht
    · next server hserver =>
      obtain rfl := Option.some.inj ht
      exact .server _ _ (ImapServer.evolves_changeUidvalidity hserver)
    · cases ht
  | load r =>
    simp only [syncNext] at ht
    split at ht
    · obtain rfl := Option.some.inj ht
      exact .load r
    · cases ht
  | statusUidvalidity r =>
    simp only [syncNext] at ht
    split at ht
    · next account origin hrun =>
      obtain rfl := Option.some.inj ht
      exact .statusUidvalidity r _ hrun rfl
    · cases ht
  | statusUidnext r reported =>
    simp only [syncNext] at ht
    split at ht
    · next account origin v hrun =>
      split_ifs at ht with hv hreported
      · obtain rfl := Option.some.inj ht
        subst hreported
        exact .uidnextReported r _ v hrun rfl hv
      · obtain rfl := Option.some.inj ht
        obtain rfl : reported = false := by simpa using hreported
        exact .uidnextOmitted r _ v hrun rfl
    · cases ht
  | search r today withLast =>
    simp only [syncNext] at ht
    split at ht
    · next account origin v n hrun =>
      split_ifs at ht with hv
      obtain rfl := Option.some.inj ht
      exact .search r _ v n today withLast hrun rfl hv
    · cases ht
  | searchFailed r =>
    simp only [syncNext] at ht
    split at ht
    · next account origin v n hrun =>
      split_ifs at ht with hinit
      obtain rfl := Option.some.inj ht
      exact .searchFailed r _ v n hrun rfl hinit
    · cases ht
  | fetchBatch r now =>
    simp only [syncNext] at ht
    split at ht
    · next account origin v n uids ms hrun =>
      split_ifs at ht
      obtain rfl := Option.some.inj ht
      exact .fetchBatch r _ v n uids ms now hrun rfl
    · cases ht
  | returnBox r =>
    simp only [syncNext] at ht
    split at ht
    · next account origin v n ms hrun =>
      obtain rfl := Option.some.inj ht
      exact .returnBox r _ v n ms hrun rfl
    · cases ht
  | begin r =>
    simp only [syncNext] at ht
    split at ht
    · next account origin box hrun =>
      obtain rfl := Option.some.inj ht
      exact .begin r _ box hrun rfl
    · cases ht
  | insert r now =>
    simp only [syncNext] at ht
    split at ht
    · next account origin box m rest hrun =>
      split_ifs at ht with hfree
      obtain rfl := Option.some.inj ht
      exact .insert r _ box m rest now hrun rfl hfree
    · cases ht
  | commit r =>
    simp only [syncNext] at ht
    split at ht
    · next account origin box hrun =>
      obtain rfl := Option.some.inj ht
      exact .commit r _ box hrun rfl
    · cases ht
  | markSuccess r now =>
    simp only [syncNext] at ht
    split at ht
    · next account origin box hrun =>
      obtain rfl := Option.some.inj ht
      exact .markSuccess r _ box now hrun rfl
    · cases ht
  | crash r =>
    obtain rfl := Option.some.inj ht
    exact .crash r
  | retention ids =>
    obtain rfl := Option.some.inj ht
    exact .retention ids

end SyncSystem

end MailAggregator
