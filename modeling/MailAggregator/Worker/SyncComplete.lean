import MailAggregator.Worker.Watermark

set_option relaxedAutoImplicit false
set_option autoImplicit false

/-!
# Syncs neither lose nor duplicate mail

Concurrent syncs of one mailbox against a server that keeps RFC 3501: STATUS reports UIDNEXT and
searches succeed.

## Main definitions

* `MailAggregator.SyncSystem.Rfc3501` — the steps of such a server.
* `MailAggregator.SyncSystem.Complete` — the mail below the watermark has been stored, and once.

## Main results

* `MailAggregator.SyncSystem.complete_of_rfc3501` — in every run against such a server.
* `MailAggregator.SyncSystem.window_moves_on` — with several initial searches, what the first one
  returned need not be stored.
-/

namespace MailAggregator

open PyText ImapFetcher MessagesRepo SyncStore Transition

namespace SyncSystem

variable {E : SyncSetup} {s t : SyncState}

/-! ## One row for each key -/

/-- No two rows, committed or in an open transaction, have one key. -/
def KeysInv (s : SyncState) : Prop :=
  ((s.messages ++ s.pending.map Prod.snd).map fun m => m.key).Nodup

theorem KeysInv.endRun (h : KeysInv s) (r : ℕ) : KeysInv (s.endRun r) :=
  h.sublist (((List.Sublist.refl _).append (List.filter_sublist.map _)).map _)

/-- An insert adds a row only for a key that no row has.

**Proof sketch.** The statement inserts only if its own transaction and the committed rows have no
row with the key, and by the hypothesis no other open transaction has one either. So the key of the
new row is new among all rows. -/
theorem KeysInv.insert {r : ℕ} {run : SyncRun} {box : FetchedBox} {m : FetchedMessage}
    {rest : List FetchedMessage} {now : Instant} (h : KeysInv s)
    (hfree : ¬ s.Blocked r (m.values run.account.id box.uidvalidity).key) :
    KeysInv (insertStep s r run box m rest now) := by
  unfold insertStep
  cases hins : insertMessageIdempotent (s.messages ++ s.pendingOf r) s.nextMessageId now
      (m.values run.account.id box.uidvalidity) with
  | error e => exact h.endRun r
  | ok inserted =>
    obtain ⟨-, ⟨-, rfl⟩ | ⟨hkey, rfl⟩⟩ := insertMessageIdempotent_eq_ok hins
    · exact h
    · set row : Message :=
        { m.values run.account.id box.uidvalidity with id := s.nextMessageId, fetchedAt := now }
        with hrow
      have hnew : row.key ∉ (s.messages ++ s.pending.map Prod.snd).map fun m => m.key := by
        intro hmem
        obtain ⟨m', hm', heq⟩ := List.mem_map.mp hmem
        rcases List.mem_append.mp hm' with hm' | hm'
        · exact hkey (List.mem_map.mpr ⟨m', List.mem_append_left _ hm', heq⟩)
        · obtain ⟨p, hp, rfl⟩ := List.mem_map.mp hm'
          by_cases hown : p.1 = r
          · have hmine : p.2 ∈ s.pendingOf r :=
              List.mem_map_of_mem (List.mem_filter.mpr ⟨hp, decide_eq_true hown⟩)
            exact hkey (List.mem_map.mpr ⟨p.2, List.mem_append_right _ hmine, heq⟩)
          · exact hfree ⟨p, hp, hown, heq⟩
      show ((s.messages ++ (s.pending ++ [(r, row)]).map Prod.snd).map _).Nodup
      rw [List.map_append (f := Prod.snd), ← List.append_assoc, List.map_append]
      refine List.nodup_append.mpr ⟨h, List.nodup_singleton _, fun a ha b hb hab => ?_⟩
      have hrowkey : a = row.key := hab.trans (List.mem_singleton.mp hb)
      exact hnew (hrowkey ▸ ha)

/-- A commit moves rows from the open transaction to the table. -/
theorem KeysInv.commit {r : ℕ} {run : SyncRun} {box : FetchedBox} (h : KeysInv s) :
    KeysInv (commitStep s r run box) := by
  have hperm := List.filter_append_perm (fun p : ℕ × Message => p.1 = r) s.pending
  have hmoved : (s.pendingOf r ++ (s.pending.filter fun p => p.1 ≠ r).map Prod.snd).Perm
      (s.pending.map Prod.snd) := by
    rw [SyncState.pendingOf, ← List.map_append]
    simpa only [decide_not] using hperm.map Prod.snd
  show ((s.messages ++ s.pendingOf r ++ _).map _).Nodup
  rw [List.append_assoc]
  exact ((hmoved.append_left s.messages).map _).nodup_iff.mpr h

/-- **Every step keeps the keys apart.** -/
theorem KeysInv.next {l : SyncLabel} (h : KeysInv s) (ht : syncNext E s l = some t) :
    KeysInv t := by
  cases syncStep_of_next ht with
  | insert r run box m rest now hr hphase hfree => exact h.insert hfree
  | commit r run box => exact h.commit
  | markSuccess r run box now =>
    unfold markStep
    split_ifs
    · exact h.endRun r
    · exact h.endRun r
  | crash r => exact h.endRun r
  | retention ids => exact h.sublist ((List.filter_sublist.append (List.Sublist.refl _)).map _)
  | search r run v n today withLast =>
    unfold searchStep
    dsimp only
    split_ifs
    · exact h
    · exact h
  | _ => exact h

/-! ## The server reports UIDNEXT -/

/-- The server's side of RFC 3501: STATUS reports UIDNEXT, and a search succeeds. -/
def Rfc3501 (_ : SyncState) : SyncLabel → Prop
  | .statusUidnext _ reported => reported = true
  | .searchFailed _ => False
  | _ => True

instance (s : SyncState) (l : SyncLabel) : Decidable (Rfc3501 s l) :=
  match l with
  | .statusUidnext _ reported => inferInstanceAs (Decidable (reported = true))
  | .searchFailed _ => inferInstanceAs (Decidable False)
  | .arrive _ _ _ | .expunge _ | .changeUidvalidity _ _ _ | .load _ | .statusUidvalidity _
  | .search _ _ _ | .fetchBatch _ _ | .returnBox _ | .begin _ | .insert _ _ | .commit _
  | .markSuccess _ _ | .crash _ | .retention _ => inferInstanceAs (Decidable True)

/-- STATUS has been asked for UIDNEXT, and has omitted it. -/
def SyncPhase.OmitsUidnext : SyncPhase → Prop
  | .status _ n | .fetching _ n _ _ => n = none
  | _ => False

theorem SyncPhase.omitsUidnext_of_keepsStored {phase : SyncPhase} {v : ℕ}
    (h : phase.keepsStored = some v) : phase.OmitsUidnext := by
  unfold SyncPhase.keepsStored at h
  split at h
  · rfl
  · cases h

/-- STATUS has omitted UIDNEXT in no session, and no search has failed. -/
structure Reported (s : SyncState) : Prop where
  runs : ∀ r run, s.runs r = some run → ¬ run.phase.OmitsUidnext
  failedSearches : s.failedSearches = []

/-- A run that moves on. -/
theorem Reported.moved {r : ℕ} {run : SyncRun} (h : Reported s)
    (hruns : t.runs = Function.update s.runs r (some run))
    (hfailed : t.failedSearches = s.failedSearches) (hrun : ¬ run.phase.OmitsUidnext) :
    Reported t where
  failedSearches := hfailed.trans h.failedSearches
  runs r' run' h' := by
    rw [hruns, Function.update_apply] at h'
    split_ifs at h'
    · exact Option.some.inj h' ▸ hrun
    · exact h.runs r' run' h'

/-- A run that ends. -/
theorem Reported.ended {r : ℕ} (h : Reported s) (hruns : t.runs = Function.update s.runs r none)
    (hfailed : t.failedSearches = s.failedSearches) : Reported t where
  failedSearches := hfailed.trans h.failedSearches
  runs r' run' h' := by
    rw [hruns, Function.update_apply] at h'
    split_ifs at h'
    exact h.runs r' run' h'

/-- A step that keeps RFC 3501 keeps every session with a UIDNEXT.

**Proof sketch.** A session gets its UIDNEXT with the status. By the condition the status reports
it, and no search fails; every later phase of the session hands it on. -/
theorem Reported.next {l : SyncLabel} (h : Reported s) (hg : Rfc3501 s l)
    (ht : syncNext E s l = some t) : Reported t := by
  -- a session that has asked for UIDNEXT has got it
  have hreported {r : ℕ} {run : SyncRun} {phase : SyncPhase} (hr : s.runs r = some run)
      (hp : run.phase = phase) : ¬ phase.OmitsUidnext := hp ▸ h.runs r run hr
  cases syncStep_of_next ht with
  | uidnextReported r run v hr hphase hv => exact h.moved rfl rfl fun h => by cases h
  | uidnextOmitted r run v hr hphase => exact absurd hg Bool.false_ne_true
  | search r run v n today withLast hr hphase =>
    have hn : n ≠ none := hreported hr hphase
    unfold searchStep
    dsimp only
    split_ifs
    · exact h.moved rfl rfl hn
    · exact h.moved rfl rfl hn
  | searchFailed r run v n => exact hg.elim
  | fetchBatch r run v n uids ms now hr hphase =>
    have hn : n ≠ none := hreported hr hphase
    exact h.moved rfl rfl hn
  | load r => exact h.moved rfl rfl id
  | statusUidvalidity r run => exact h.moved rfl rfl id
  | returnBox r run v n ms => exact h.moved rfl rfl id
  | begin r run box => exact h.moved rfl rfl id
  | commit r run box => exact h.moved rfl rfl id
  | insert r run box m rest now =>
    unfold insertStep
    split
    · exact h.ended rfl rfl
    · exact h.moved rfl rfl id
    · exact h.moved rfl rfl id
  | markSuccess r run box now =>
    unfold markStep
    split_ifs
    · exact h.ended rfl rfl
    · exact h.ended rfl rfl
  | crash r => exact h.ended rfl rfl
  | server _ server => exact ⟨h.runs, h.failedSearches⟩
  | retention ids => exact ⟨h.runs, h.failedSearches⟩

/-- A session that has a UIDNEXT does not keep the stored one. -/
theorem Reported.keepsUidnext (h : Reported s) (l : SyncLabel) : KeepsUidnext s l := by
  cases l with
  | returnBox r =>
    intro run hrun v hv
    exact absurd (SyncPhase.omitsUidnext_of_keepsStored hv) (h.runs r run hrun)
  | _ => trivial

/-! ## Completeness -/

/-- **Neither lost nor duplicated**: below the stored watermark, every message that is still in the
INBOX and was returned by the initial search that the watermark descends from, or arrived after
it, has a row, unless retention has removed it; and no two rows have one key. -/
def Complete (s : SyncState) : Prop :=
  (∀ n v, s.account.lastSyncedUidnext = some n → s.account.lastUidvalidity = some v →
    ∃ k ∈ s.searches, s.origin = some k ∧ k.uidvalidity = v ∧
      (s.server.uidvalidity = v → ∀ m ∈ s.server.inbox, m.uid < n → k.Covers m.uid →
        Recorded s v m.uid)) ∧
    (s.messages.map fun m => m.key).Nodup

/-- What the syncs of a mailbox keep against a server that keeps RFC 3501. -/
structure SyncInv (s : SyncState) : Prop where
  watermark : WatermarkInv s
  keys : KeysInv s
  reported : Reported s

theorem SyncInv.fresh (h : s.Fresh) : SyncInv s where
  watermark := WatermarkInv.fresh h
  keys := by
    rw [KeysInv, h.pending, List.map_nil, List.append_nil]
    exact h.keys
  reported := by
    refine ⟨fun r run hrun => ?_, h.failedSearches⟩
    rw [h.runs r] at hrun
    cases hrun

theorem SyncInv.complete (h : SyncInv s) : Complete s := by
  refine ⟨fun n v hn hv => ?_, h.keys.sublist ((List.sublist_append_left _ _).map _)⟩
  obtain ⟨-, k, hk, horigin, rfl, hcov⟩ := h.watermark.row n v hn hv
  refine ⟨k, hk, horigin, rfl, fun hserver m hm hlt hc => ?_⟩
  have hok : k.uidvalidity ∉ s.failedSearches := by
    rw [h.reported.failedSearches]
    exact List.not_mem_nil
  exact ((hcov hok hserver).2 m hm hlt hc).resolve_right id

/-- **Concurrent syncs neither lose nor duplicate mail.**

**Proof sketch.** A watermark is written only after the rows below it are committed, so it may
move backwards but never over a message without a row. UIDNEXT is read before the search, so all
that arrives later has a UID from UIDNEXT on, and the search of the same session finds all that
is below it. The unique key serialises the inserts of one message. -/
theorem complete_of_rfc3501 (h : (syncSystem E).ReachableWhen Rfc3501 s) : Complete s := by
  have hinv : SyncInv s :=
    h.invariant (fun _ => SyncInv.fresh) fun s l t hs hg ht =>
      ⟨hs.watermark.next (hs.reported.keepsUidnext l) ht, hs.keys.next ht, hs.reported.next hg ht⟩
  exact hinv.complete

/-- A run that searches on day 30, fetches the message, and ends well. -/
theorem complete_firstRun :
    ∃ s, (syncSystem exampleSetup).run (newMailbox oneMessage) (.load 0 :: firstRun) = some s ∧
      s.account.lastSyncedUidnext = some 2 ∧ s.messages.length = 1 ∧ Complete s := by
  obtain ⟨s, hrun, hnext, hlen⟩ :
      ∃ s, ((syncSystem exampleSetup).restrict Rfc3501).run (newMailbox oneMessage)
          (.load 0 :: firstRun) = some s ∧
        s.account.lastSyncedUidnext = some 2 ∧ s.messages.length = 1 := ⟨_, rfl, rfl, rfl⟩
  have hreach := System.ReachableWhen.run (.init (fresh_newMailbox oneMessage)) hrun
  exact ⟨s, hrun, hnext, hlen, complete_of_rfc3501 hreach⟩

/-- Below the stored watermark, every message that is still in the INBOX and was returned by the
first initial search of its UIDVALIDITY, or arrived after it, has a row. -/
def CompleteSinceFirstSearch (s : SyncState) : Prop :=
  ∀ n v k, s.account.lastSyncedUidnext = some n → s.account.lastUidvalidity = some v →
    s.searches.reverse.find? (fun k => k.uidvalidity = v) = some k →
      s.server.uidvalidity = v → ∀ m ∈ s.server.inbox, m.uid < n → k.Covers m.uid →
        Recorded s v m.uid

/-- **The window moves on.** A run searches on day 30 and crashes. The next one searches on day 31,
and no longer finds the message of day 0. -/
theorem window_moves_on :
    ¬ ∀ E s, (syncSystem E).ReachableWhen Rfc3501 s → CompleteSinceFirstSearch s := by
  intro h
  obtain ⟨s, hrun, hnext, hval, hsearch, hserver, hinbox, hrows, hremoved⟩ :
      ∃ s, ((syncSystem exampleSetup).restrict Rfc3501).run (newMailbox oneMessage)
          [.load 0, .statusUidvalidity 0, .statusUidnext 0 true, .search 0 30 false, .crash 0,
            .load 1, .statusUidvalidity 1, .statusUidnext 1 true, .search 1 31 false,
            .returnBox 1, .begin 1, .commit 1, .markSuccess 1 0] = some s ∧
        s.account.lastSyncedUidnext = some 2 ∧ s.account.lastUidvalidity = some 1 ∧
        s.searches.reverse.find? (fun k => k.uidvalidity = 1) = some ⟨1, 0, [1], 2⟩ ∧
        s.server.uidvalidity = 1 ∧ s.server.inbox = oneMessage.inbox ∧ s.messages = [] ∧
        s.removed = [] := ⟨_, rfl, rfl, rfl, rfl, rfl, rfl, rfl, rfl⟩
  have hreach := System.ReachableWhen.run (.init (fresh_newMailbox oneMessage)) hrun
  have hmem : ∀ m ∈ oneMessage.inbox, m ∈ s.server.inbox := fun m hm => hinbox ▸ hm
  rcases h _ s hreach 2 1 _ hnext hval hsearch hserver _ (hmem _ List.mem_cons_self) (by decide)
    (by decide) with hrec | hrec
  · rw [hrows] at hrec
    cases hrec
  · rw [hremoved] at hrec
    cases hrec

end SyncSystem

end MailAggregator
