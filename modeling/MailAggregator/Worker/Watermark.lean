import MailAggregator.Worker.SyncSystem

set_option relaxedAutoImplicit false
set_option autoImplicit false

/-!
# The watermark covers what it claims

The stored pair `(last_uidvalidity, last_synced_uidnext)` of a mailbox, in every state that
concurrent syncs of it reach, against a server that may omit UIDNEXT and fail searches.

## Main definitions

* `MailAggregator.SyncSystem.WatermarkInv` — the invariant.
* `MailAggregator.SyncSystem.KeepsUidnext` — the condition on the return of a fetch.
* `MailAggregator.SyncSystem.Coherent` — the watermark was observed under its UIDVALIDITY, and no
  unfetched mail lies below it.

## Main results

* `MailAggregator.SyncSystem.WatermarkInv.next` — a step that meets the condition keeps the
  invariant.
* `MailAggregator.SyncSystem.coherent_of_keepsUidnext` — in runs whose steps meet the condition,
  the watermark is coherent.
* `MailAggregator.SyncSystem.foreign_uidnext` — in other runs it is not.

## Design

The invariant attaches the same statement, `PairOK`, to every watermark in flight: to the stored
pair, to the pair that each run has read, and to the pair that each run is about to write. They
differ only in the messages that need not be stored yet, because the run still holds them.
-/

namespace MailAggregator

open PyText ImapFetcher MessagesRepo SyncStore Transition

namespace SyncSystem

/-! ## The invariant -/

/-- There is a row for a UID of the account, or retention has removed it. -/
def Recorded (s : SyncState) (uidvalidity uid : ℕ) : Prop :=
  (s.account.id, uidvalidity, uid) ∈ s.messages.map (fun m => m.key) ∨
    (s.account.id, uidvalidity, uid) ∈ s.removed

/-- A message was returned by an initial search, or arrived after it. -/
def InitialSearch.Covers (k : InitialSearch) (uid : ℕ) : Prop :=
  uid ∈ k.returned ∨ k.uidnext ≤ uid

instance (k : InitialSearch) (uid : ℕ) : Decidable (k.Covers uid) :=
  inferInstanceAs (Decidable (_ ∨ _))

/-- What an initial search covers of the INBOX below `n` is recorded or `extra`. -/
def CoveredBelow (s : SyncState) (k : InitialSearch) (n : ℕ) (extra : ℕ → Prop) : Prop :=
  s.server.uidvalidity = k.uidvalidity → n ≤ s.server.uidnext ∧
    ∀ m ∈ s.server.inbox, m.uid < n → k.Covers m.uid →
      Recorded s k.uidvalidity m.uid ∨ extra m.uid

/-- A watermark `n` for `uidvalidity` descends from the initial search `origin`. -/
def Descends (s : SyncState) (origin : Option InitialSearch) (uidvalidity n : ℕ)
    (extra : ℕ → Prop) : Prop :=
  ∃ k ∈ s.searches, origin = some k ∧ k.uidvalidity = uidvalidity ∧
    (uidvalidity ∉ s.failedSearches → CoveredBelow s k n extra)

/-- A pair of columns was observed together, and descends from an initial search. -/
def PairOK (s : SyncState) (origin : Option InitialSearch) (uidnext uidvalidity : Option ℕ)
    (extra : ℕ → Prop) : Prop :=
  ∀ n v, uidnext = some n → uidvalidity = some v →
    (v, n) ∈ s.observed ∧ Descends s origin v n extra

/-- The pair in an account row. -/
def RowOK (s : SyncState) (origin : Option InitialSearch) (a : MailAccount) : Prop :=
  PairOK s origin a.lastSyncedUidnext a.lastUidvalidity fun _ => False

/-- A UIDNEXT that STATUS has reported. -/
def StatusOK (s : SyncState) (uidvalidity : ℕ) (uidnext : Option ℕ) : Prop :=
  ∀ n, uidnext = some n → (uidvalidity, n) ∈ s.observed ∧
    (s.server.uidvalidity = uidvalidity → n ≤ s.server.uidnext)

/-- A search that is being fetched. Everything it found lies below the UIDNEXT `top` that the
INBOX had then, and below `top` only what is still to fetch or in the batch is not recorded. -/
def FetchOK (s : SyncState) (origin : Option InitialSearch) (uidvalidity : ℕ)
    (uidnext : Option ℕ) (uids : List ℕ) (newMessages : List FetchedMessage) : Prop :=
  ∃ top, (∀ n, uidnext = some n → (uidvalidity, n) ∈ s.observed ∧ n ≤ top) ∧
    (∀ u ∈ uids, u < top) ∧ (∀ m ∈ newMessages, m.uid < top) ∧
    Descends s origin uidvalidity top fun u =>
      u ∈ uids ∨ u ∈ newMessages.map FetchedMessage.uid

/-- The open transaction of a run holds a row for a UID. -/
def Holds (s : SyncState) (r uidvalidity uid : ℕ) : Prop :=
  (s.account.id, uidvalidity, uid) ∈ (s.pendingOf r).map fun m => m.key

/-- What holds of a run, by its phase. -/
def PhaseOK (s : SyncState) (r : ℕ) (run : SyncRun) : SyncPhase → Prop
  | .loaded => RowOK s run.origin run.account
  | .validity v => RowOK s run.origin run.account ∧ v ∈ s.server.usedUidvalidities
  | .status v n =>
    RowOK s run.origin run.account ∧ v ∈ s.server.usedUidvalidities ∧ StatusOK s v n
  | .fetching v n uids ms =>
    (run.account.lastUidvalidity = some v → RowOK s run.origin run.account) ∧
      FetchOK s run.origin v n uids ms
  | .fetched box =>
    PairOK s run.origin box.uidnext (some box.uidvalidity) fun u =>
      u ∈ box.newMessages.map FetchedMessage.uid
  | .inserting box rest =>
    PairOK s run.origin box.uidnext (some box.uidvalidity) fun u =>
      u ∈ rest.map FetchedMessage.uid ∨ Holds s r box.uidvalidity u
  | .inserted box => PairOK s run.origin box.uidnext (some box.uidvalidity) fun _ => False

/-- What an initial search left out was older than its window. -/
def SearchOK (s : SyncState) (k : InitialSearch) : Prop :=
  k.uidvalidity ∈ s.server.usedUidvalidities ∧
    (s.server.uidvalidity = k.uidvalidity → k.uidnext ≤ s.server.uidnext ∧
      ∀ m ∈ s.server.inbox, m.uid < k.uidnext →
        m.uid ∈ k.returned ∨ m.internalDay < k.since)

/-- **The invariant of the watermark.** -/
structure WatermarkInv (s : SyncState) : Prop where
  row : RowOK s s.origin s.account
  accountId : ∀ r run, s.runs r = some run → run.account.id = s.account.id
  runs : ∀ r run, s.runs r = some run → PhaseOK s r run run.phase
  searches : ∀ k ∈ s.searches, SearchOK s k

/-! ## What every step keeps -/

/-- What a step does to the server, the records and the history. -/
structure Evolves (s t : SyncState) : Prop where
  server : s.server.Evolves t.server
  accountId : t.account.id = s.account.id
  recorded : ∀ v u, Recorded s v u → Recorded t v u
  observed : s.observed ⊆ t.observed
  searches : s.searches ⊆ t.searches
  failedSearches : s.failedSearches ⊆ t.failedSearches

section Evolves

variable {s t : SyncState} {origin : Option InitialSearch} {extra extra' : ℕ → Prop}

theorem Evolves.refl (s : SyncState) : Evolves s s :=
  ⟨.refl _, rfl, fun _ _ => id, List.Subset.refl _, List.Subset.refl _, List.Subset.refl _⟩

theorem SearchOK.evolve {k : InitialSearch} (hev : Evolves s t) (h : SearchOK s k) :
    SearchOK t k := by
  refine ⟨hev.server.used h.1, fun hv => ?_⟩
  have hs := hev.server.uidvalidity _ h.1 hv
  obtain ⟨hnext, hwindow⟩ := h.2 hs
  have hle := hev.server.uidnext (hv.trans hs.symm)
  refine ⟨hnext.trans hle, fun m hm hlt => ?_⟩
  rcases hev.server.inbox (hv.trans hs.symm) m hm with hm | hnew
  · exact hwindow m hm hlt
  · omega

/-- The messages that a step takes out of the exception are recorded. -/
theorem CoveredBelow.evolve {k : InitialSearch} {n n' : ℕ} (hev : Evolves s t)
    (hk : k.uidvalidity ∈ s.server.usedUidvalidities) (hle : n' ≤ n)
    (hextra : ∀ m ∈ t.server.inbox, extra m.uid → Recorded t k.uidvalidity m.uid ∨ extra' m.uid)
    (h : CoveredBelow s k n extra) : CoveredBelow t k n' extra' := by
  intro hv
  have hs := hev.server.uidvalidity _ hk hv
  obtain ⟨hnext, hcov⟩ := h hs
  have hnext' := hev.server.uidnext (hv.trans hs.symm)
  refine ⟨by omega, fun m hm hlt hc => ?_⟩
  rcases hev.server.inbox (hv.trans hs.symm) m hm with hold | hnew
  · rcases hcov m hold (by omega) hc with hrec | hex
    · exact Or.inl (hev.recorded _ _ hrec)
    · exact hextra m hm hex
  · omega

theorem Descends.evolve {v n n' : ℕ} (hs : ∀ k ∈ s.searches, SearchOK s k) (hev : Evolves s t)
    (hle : n' ≤ n)
    (hextra : ∀ m ∈ t.server.inbox, extra m.uid → Recorded t v m.uid ∨ extra' m.uid)
    (h : Descends s origin v n extra) : Descends t origin v n' extra' := by
  obtain ⟨k, hk, ho, rfl, hcov⟩ := h
  refine ⟨k, hev.searches hk, ho, rfl, fun hf => ?_⟩
  exact (hcov fun h => hf (hev.failedSearches h)).evolve hev (hs k hk).1 hle hextra

theorem PairOK.evolve {uidnext : Option ℕ} {v : ℕ} (hs : ∀ k ∈ s.searches, SearchOK s k)
    (hev : Evolves s t)
    (hextra : ∀ m ∈ t.server.inbox, extra m.uid → Recorded t v m.uid ∨ extra' m.uid)
    (h : PairOK s origin uidnext (some v) extra) : PairOK t origin uidnext (some v) extra' := by
  intro n w hn hw
  obtain rfl := Option.some.inj hw
  obtain ⟨hobs, hdesc⟩ := h n v hn rfl
  exact ⟨hev.observed hobs, hdesc.evolve hs hev le_rfl hextra⟩

theorem RowOK.evolve {a : MailAccount} (hs : ∀ k ∈ s.searches, SearchOK s k)
    (hev : Evolves s t) (h : RowOK s origin a) : RowOK t origin a := by
  intro n v hn hv
  obtain ⟨hobs, hdesc⟩ := h n v hn hv
  exact ⟨hev.observed hobs, hdesc.evolve hs hev le_rfl fun _ _ => Or.inr⟩

theorem StatusOK.evolve {v : ℕ} {n : Option ℕ} (hv : v ∈ s.server.usedUidvalidities)
    (hev : Evolves s t) (h : StatusOK s v n) : StatusOK t v n := by
  intro m hm
  obtain ⟨hobs, hle⟩ := h m hm
  refine ⟨hev.observed hobs, fun ht => ?_⟩
  have hs := hev.server.uidvalidity _ hv ht
  exact (hle hs).trans (hev.server.uidnext (ht.trans hs.symm))

theorem FetchOK.evolve {v : ℕ} {n : Option ℕ} {uids : List ℕ} {ms : List FetchedMessage}
    (hs : ∀ k ∈ s.searches, SearchOK s k) (hev : Evolves s t)
    (h : FetchOK s origin v n uids ms) : FetchOK t origin v n uids ms := by
  obtain ⟨top, hn, huids, hms, hdesc⟩ := h
  exact ⟨top, fun m hm => ⟨hev.observed (hn m hm).1, (hn m hm).2⟩, huids, hms,
    hdesc.evolve hs hev le_rfl fun _ _ => Or.inr⟩

/-- A run that does not take part in a step keeps what holds of it. -/
theorem PhaseOK.evolve {r : ℕ} {run : SyncRun} (hs : ∀ k ∈ s.searches, SearchOK s k)
    (hev : Evolves s t) (hpending : s.pendingOf r ⊆ t.pendingOf r) {phase : SyncPhase}
    (h : PhaseOK s r run phase) : PhaseOK t r run phase := by
  cases phase with
  | loaded => exact RowOK.evolve hs hev h
  | validity v => exact ⟨h.1.evolve hs hev, hev.server.used h.2⟩
  | status v n => exact ⟨h.1.evolve hs hev, hev.server.used h.2.1, h.2.2.evolve h.2.1 hev⟩
  | fetching v n uids ms => exact ⟨fun hv => (h.1 hv).evolve hs hev, h.2.evolve hs hev⟩
  | fetched box => exact PairOK.evolve hs hev (fun _ _ => Or.inr) h
  | inserting box rest =>
    refine PairOK.evolve hs hev (fun m _ hm => Or.inr (hm.imp id fun hheld => ?_)) h
    rw [Holds, hev.accountId]
    exact List.map_subset _ hpending hheld
  | inserted box => exact PairOK.evolve hs hev (fun _ _ => Or.inr) h

/-- **One run acts**: it is enough to look at the stored row, at that run, and at the searches. -/
theorem WatermarkInv.act {r : ℕ} (h : WatermarkInv s) (hev : Evolves s t)
    (hothers : ∀ r', r' ≠ r → t.runs r' = s.runs r' ∧ s.pendingOf r' ⊆ t.pendingOf r')
    (hrow : RowOK t t.origin t.account) (hsearches : ∀ k ∈ t.searches, SearchOK t k)
    (hr : ∀ run, t.runs r = some run → run.account.id = t.account.id ∧
      PhaseOK t r run run.phase) : WatermarkInv t where
  row := hrow
  accountId r' run hrun := by
    by_cases hr' : r' = r
    · subst hr'
      exact (hr run hrun).1
    · rw [(hothers r' hr').1] at hrun
      rw [hev.accountId]
      exact h.accountId r' run hrun
  runs r' run hrun := by
    by_cases hr' : r' = r
    · subst hr'
      exact (hr run hrun).2
    · rw [(hothers r' hr').1] at hrun
      exact (h.runs r' run hrun).evolve h.searches hev (hothers r' hr').2
  searches := hsearches

/-- **No run acts**: the invariant is kept. -/
theorem WatermarkInv.evolve (h : WatermarkInv s) (hev : Evolves s t) (hruns : t.runs = s.runs)
    (hpending : ∀ r, s.pendingOf r ⊆ t.pendingOf r) (hsearches : t.searches = s.searches)
    (horigin : t.origin = s.origin) (haccount : t.account = s.account) : WatermarkInv t where
  row := by
    rw [horigin, haccount]
    exact h.row.evolve h.searches hev
  accountId r run hrun := by
    rw [haccount]
    exact h.accountId r run (hruns ▸ hrun)
  runs r run hrun := (h.runs r run (hruns ▸ hrun)).evolve h.searches hev (hpending r)
  searches k hk := (h.searches k (hsearches ▸ hk)).evolve hev

end Evolves

/-! ## The steps of a run -/

section Steps

variable {E : SyncSetup} {s t : SyncState} {r : ℕ} {run : SyncRun}

theorem evolves_setRun (s : SyncState) (r : ℕ) (run : SyncRun) : Evolves s (s.setRun r run) :=
  ⟨.refl _, rfl, fun _ _ => id, List.Subset.refl _, List.Subset.refl _, List.Subset.refl _⟩

/-- What a step adds to the history. -/
def SyncState.note (s : SyncState) (observed : List (ℕ × ℕ)) (searches : List InitialSearch)
    (failed : List ℕ) : SyncState :=
  { s with
    observed := observed ++ s.observed
    searches := searches ++ s.searches
    failedSearches := failed ++ s.failedSearches }

theorem evolves_note (s : SyncState) (observed : List (ℕ × ℕ)) (searches : List InitialSearch)
    (failed : List ℕ) : Evolves s (s.note observed searches failed) :=
  ⟨.refl _, rfl, fun _ _ => id, List.subset_append_right _ _, List.subset_append_right _ _,
    List.subset_append_right _ _⟩

/-- Adding to the history keeps the invariant. -/
theorem WatermarkInv.note (h : WatermarkInv s) (observed : List (ℕ × ℕ))
    {searches : List InitialSearch} (failed : List ℕ) (hs : ∀ k ∈ searches, SearchOK s k) :
    WatermarkInv (s.note observed searches failed) := by
  have hev := evolves_note s observed searches failed
  refine ⟨h.row.evolve h.searches hev, h.accountId,
    fun r run hrun => (h.runs r run hrun).evolve h.searches hev (List.Subset.refl _),
    fun k hk => ?_⟩
  rcases List.mem_append.mp hk with hk | hk
  · exact (hs k hk).evolve hev
  · exact (h.searches k hk).evolve hev

/-- A step that only moves one run on. -/
theorem WatermarkInv.setRun (h : WatermarkInv s) {run : SyncRun}
    (hid : run.account.id = s.account.id) (hphase : PhaseOK s r run run.phase) :
    WatermarkInv (s.setRun r run) := by
  have hev := evolves_setRun s r run
  refine h.act (r := r) hev (fun r' hr' => ⟨?_, List.Subset.refl _⟩) (h.row.evolve h.searches hev)
    (fun k hk => (h.searches k hk).evolve hev) fun run' hrun => ?_
  · exact Function.update_of_ne hr' _ _
  · obtain rfl : run = run' :=
      Option.some.inj ((Function.update_self r _ s.runs).symm.trans hrun)
    exact ⟨hid, hphase.evolve h.searches hev (List.Subset.refl _)⟩

/-- What the open transaction of another run holds stays when the one of a run is closed. -/
theorem pendingOf_endRun (s : SyncState) {r r' : ℕ} (h : r' ≠ r) :
    (s.endRun r).pendingOf r' = s.pendingOf r' := by
  unfold SyncState.pendingOf SyncState.endRun
  rw [List.filter_filter]
  congr 2
  funext p
  by_cases hp : p.1 = r'
  · simp [hp, h]
  · simp [hp]

/-- A run that ends leaves the rest as it is. -/
theorem WatermarkInv.endRun (h : WatermarkInv s) (r : ℕ) : WatermarkInv (s.endRun r) := by
  have hev : Evolves s (s.endRun r) :=
    ⟨.refl _, rfl, fun _ _ => id, List.Subset.refl _, List.Subset.refl _, List.Subset.refl _⟩
  refine h.act (r := r) hev (fun r' hr' => ⟨?_, ?_⟩) (h.row.evolve h.searches hev)
    (fun k hk => (h.searches k hk).evolve hev) fun run hrun => ?_
  · exact Function.update_of_ne hr' _ _
  · rw [pendingOf_endRun s hr']
    exact List.Subset.refl _
  · have hnone : (s.endRun r).runs r = none := Function.update_self r _ s.runs
    rw [hnone] at hrun
    cases hrun

/-- **The initial search** starts a new chain of watermarks.

**Proof sketch.** The search is recorded with the day from which it searches, what it has returned
and the UIDNEXT at that time. Every message on the server at this time is among what was returned,
or older than the day; so the new chain of watermarks starts with a promise that holds. -/
theorem WatermarkInv.searchInitial (h : WatermarkInv s) {v : ℕ} {n : Option ℕ} {today : ℤ}
    {withLast : Bool} (hid : run.account.id = s.account.id) (hv : s.server.uidvalidity = v)
    (hn : StatusOK s v n)
    (hinit : doInitial run.account.lastSyncedUidnext run.account.lastUidvalidity v) :
    WatermarkInv (searchStep E s r run v n today withLast) := by
  set k : InitialSearch :=
    { uidvalidity := v, since := today - E.settings.initialSyncDays,
      returned := s.server.sinceUids (today - E.settings.initialSyncDays),
      uidnext := s.server.uidnext } with hk
  have hsearch : SearchOK s k := by
    have hused : v ∈ s.server.usedUidvalidities := hv ▸ List.mem_cons_self
    refine ⟨hused, fun _ => ⟨le_rfl, fun m hm _ => ?_⟩⟩
    by_cases hday : k.since ≤ m.internalDay
    · exact Or.inl (ImapServer.uid_mem_sinceUids hm hday)
    · exact Or.inr (not_le.mp hday)
  have hnote : WatermarkInv (s.note [] [k] []) := h.note [] [] (by simpa using hsearch)
  have hset : WatermarkInv ((s.note [] [k] []).setRun r
      { run with origin := some k, phase := .fetching v n k.returned [] }) := by
    refine hnote.setRun hid ⟨fun hval => ?_, s.server.uidnext, fun m hm => ?_, fun u hu => ?_,
      List.forall_mem_nil _, k, List.mem_cons_self, rfl, rfl,
      fun _ _ => ⟨le_rfl, fun m hm hlt hc => ?_⟩⟩
    · -- without a change of UIDVALIDITY there was no watermark
      intro m w hm
      rcases hinit with hnone | hne
      · exact absurd (hnone.symm.trans hm) nofun
      · exact absurd hval hne
    · exact ⟨(hn m hm).1, (hn m hm).2 hv⟩
    · exact ImapServer.lt_uidnext_of_mem_sinceUids hu
    · rcases hc with hret | hnew
      · exact Or.inr (Or.inl hret)
      · exact absurd hlt (not_lt.mpr hnew)
  rw [searchStep, if_pos hinit]
  exact hset

/-- **The incremental search** continues the chain of the watermark it starts from. -/
theorem WatermarkInv.searchIncremental (h : WatermarkInv s) {v : ℕ} {n : Option ℕ} {today : ℤ}
    {withLast : Bool} (hid : run.account.id = s.account.id) (hv : s.server.uidvalidity = v)
    (hrow : RowOK s run.origin run.account) (hn : StatusOK s v n)
    (hinit : ¬ doInitial run.account.lastSyncedUidnext run.account.lastUidvalidity v) :
    WatermarkInv (searchStep E s r run v n today withLast) := by
  obtain ⟨hsome, hval⟩ := not_or.mp hinit
  rw [not_not] at hval
  obtain ⟨w, hw⟩ := Option.ne_none_iff_exists'.mp hsome
  obtain ⟨-, k, hk, horigin, hkv, hcov⟩ := hrow w v hw hval
  have hset : WatermarkInv (s.setRun r { run with
      phase := .fetching v n (incrementalUids w (s.server.uidRange w withLast)) [] }) := by
    refine h.setRun hid ⟨fun _ => hrow, s.server.uidnext, fun m hm => ?_, fun u hu => ?_,
      List.forall_mem_nil _, k, hk, horigin, hkv, fun hf _ => ⟨le_rfl, fun m hm _ hc => ?_⟩⟩
    · exact ⟨(hn m hm).1, (hn m hm).2 hv⟩
    · exact ImapServer.lt_uidnext_of_mem_incrementalUids hu
    · by_cases hlt : m.uid < w
      · rcases (hcov hf (hv.trans hkv.symm)).2 m hm hlt hc with hrec | hfalse
        · exact Or.inl hrec
        · exact hfalse.elim
      · exact Or.inr (Or.inl (ImapServer.uid_mem_incrementalUids hm (not_lt.mp hlt)))
  rw [searchStep, if_neg hinit, hw]
  exact hset

/-- **A failed search** breaks the promise of its UIDVALIDITY, which is recorded. -/
theorem WatermarkInv.searchFailed (h : WatermarkInv s) {v : ℕ} {n : Option ℕ}
    (hid : run.account.id = s.account.id) (hrow : RowOK s run.origin run.account)
    (hn : StatusOK s v n)
    (hinit : ¬ doInitial run.account.lastSyncedUidnext run.account.lastUidvalidity v) :
    WatermarkInv { s.setRun r { run with phase := .fetching v n [] [] } with
      failedSearches := v :: s.failedSearches } := by
  obtain ⟨hsome, hval⟩ := not_or.mp hinit
  rw [not_not] at hval
  obtain ⟨w, hw⟩ := Option.ne_none_iff_exists'.mp hsome
  obtain ⟨-, k, hk, horigin, hkv, -⟩ := hrow w v hw hval
  have hev := evolves_note s [] [] [v]
  have hnote : WatermarkInv (s.note [] [] [v]) := h.note [] [v] (List.forall_mem_nil _)
  refine hnote.setRun hid ⟨fun _ => hrow.evolve h.searches hev, n.getD 0, fun m hm => ?_,
    List.forall_mem_nil _, List.forall_mem_nil _, k, hk, horigin, hkv,
    fun hf => absurd List.mem_cons_self hf⟩
  exact ⟨(hn m hm).1, by rw [hm]; exact le_rfl⟩

/-- **A FETCH** moves messages from the UIDs to the batch.

**Proof sketch.** A UID is fetched if the server has a message for it, and otherwise it is gone from
the server. So a message that was promised by the UIDs of the search is promised by the batch from
now on, by the UIDs that are left, or not at all. -/
theorem WatermarkInv.fetchBatch (h : WatermarkInv s) {v : ℕ} {n : Option ℕ} {uids : List ℕ}
    {ms : List FetchedMessage} {now : Instant} (hid : run.account.id = s.account.id)
    (hphase : PhaseOK s r run (.fetching v n uids ms)) :
    let ms' := ms ++ fetchMessages E s (uids.take batchSize) now
    WatermarkInv (s.setRun r { run with phase := .fetching v n (uids.drop batchSize) ms' }) := by
  intro ms'
  obtain ⟨hrow, top, hn, huids, hms, hdesc⟩ := hphase
  refine h.setRun hid
    ⟨hrow, top, hn, fun u hu => huids u (List.mem_of_mem_drop hu), fun m hm => ?_, ?_⟩
  · rcases List.mem_append.mp hm with hm | hm
    · exact hms m hm
    · obtain ⟨sm, hsm, rfl⟩ := List.mem_map.mp hm
      have huid : sm.uid ∈ uids.take batchSize := of_decide_eq_true (List.mem_filter.mp hsm).2
      exact huids sm.uid (List.mem_of_mem_take huid)
  · refine hdesc.evolve h.searches (.refl s) le_rfl fun m hm hex => Or.inr ?_
    rcases hex with huid | hbatch
    · rw [← List.take_append_drop batchSize uids, List.mem_append] at huid
      rcases huid with htake | hdrop
      · right
        rw [List.map_append, List.mem_append]
        right
        rw [fetchMessages, List.map_map]
        exact List.mem_map.mpr ⟨m, List.mem_filter.mpr ⟨hm, decide_eq_true htake⟩, rfl⟩
      · exact Or.inl hdrop
    · right
      rw [List.map_append]
      exact List.mem_append_left _ hbatch

/-- **The return of a fetch.** If the watermark is left to the stored value, that value belongs to
the UIDVALIDITY of the session.

**Proof sketch.** The fetch returns the UIDNEXT of the session, if it was reported; else the
successor of the largest UID that was fetched; else the stored value. The first was observed by the
session and the second is noted as derived from it. The third belongs to the UIDVALIDITY of the
session by the condition, so that what the stored row promises is what the return has to promise. -/
theorem WatermarkInv.returnBox (h : WatermarkInv s) {v : ℕ} {n : Option ℕ}
    {ms : List FetchedMessage} (hid : run.account.id = s.account.id)
    (hphase : PhaseOK s r run (.fetching v n [] ms))
    (hkeeps : n = none → ms = [] →
      run.account.lastSyncedUidnext = none ∨ run.account.lastUidvalidity = some v) :
    WatermarkInv (returnStep s r run v n ms) := by
  obtain ⟨hrow, top, hn, -, hms, hdesc⟩ := hphase
  set final := finalUidnext n ms run.account.lastSyncedUidnext with hfinal
  set derived := (if n = none ∧ ms ≠ [] then final.toList else []).map fun n => (v, n)
    with hderived
  have hev := evolves_note s derived [] []
  have hbatch : ∀ m ≤ top, Descends (s.note derived [] []) run.origin v m fun u =>
      u ∈ ms.map FetchedMessage.uid := fun m hm =>
    hdesc.evolve h.searches hev hm fun _ _ hex => Or.inr (hex.resolve_left List.not_mem_nil)
  have hpair : PairOK (s.note derived [] []) run.origin final (some v) fun u =>
      u ∈ ms.map FetchedMessage.uid := by
    intro m w hm hw
    obtain rfl := Option.some.inj hw
    cases n with
    | some n =>
      obtain rfl : n = m := Option.some.inj hm
      exact ⟨hev.observed (hn n rfl).1, hbatch n (hn n rfl).2⟩
    | none =>
      cases hlist : ms with
      | nil =>
        -- the stored watermark is kept
        have hlast : run.account.lastSyncedUidnext = some m := by
          rw [← hm, hfinal, hlist]
          rfl
        have hval := (hkeeps rfl hlist).resolve_left (by rw [hlast]; exact nofun)
        obtain ⟨hobs, hchain⟩ := hrow hval m v hlast hval
        exact ⟨hev.observed hobs, hchain.evolve h.searches hev le_rfl fun _ _ => False.elim⟩
      | cons m₀ ms' =>
        -- the watermark is derived from the batch
        have hne : ms ≠ [] := by
          rw [hlist]
          exact List.cons_ne_nil _ _
        have hobs : (v, m) ∈ derived := by
          rw [hderived, if_pos ⟨rfl, hne⟩, hm]
          exact List.mem_singleton_self _
        rw [← hlist]
        refine ⟨List.mem_append_left _ hobs, hbatch m ?_⟩
        obtain ⟨m₁, hm₁, rfl⟩ := finalUidnext_derived hne hm
        exact hms m₁ hm₁
  have hset : WatermarkInv ((s.note derived [] []).setRun r
      { run with phase := .fetched ⟨v, final, ms⟩ }) :=
    (h.note derived [] (List.forall_mem_nil _)).setRun hid hpair
  exact hset

/-- **An insert.** The message is in the open transaction or had a row already.

**Proof sketch.** An insert takes the first message of the run. Its key is there already, committed
or in the open transaction of the run, and then only an id is drawn; or it is new, and its row is
appended to that transaction. In either case the message is held from now on, so that the run
promises it by its row and no longer by its list. An error of the statement ends the run. -/
theorem WatermarkInv.insert (h : WatermarkInv s) {box : FetchedBox} {m : FetchedMessage}
    {rest : List FetchedMessage} {now : Instant} (hid : run.account.id = s.account.id)
    (hphase : PhaseOK s r run (.inserting box (m :: rest))) :
    WatermarkInv (insertStep s r run box m rest now) := by
  unfold insertStep
  cases hins : insertMessageIdempotent (s.messages ++ s.pendingOf r) s.nextMessageId now
      (m.values run.account.id box.uidvalidity) with
  | error e => exact h.endRun r
  | ok inserted =>
    obtain ⟨-, hkey⟩ := insertMessageIdempotent_eq_ok hins
    rcases hkey with ⟨hkey, rfl⟩ | ⟨hkey, rfl⟩
    · -- there is a row for the key, committed or in this transaction
      set s' : SyncState := { s with nextMessageId := s.nextMessageId + 1 } with hs'
      have hev : Evolves s s' :=
        ⟨.refl _, rfl, fun _ _ => id, List.Subset.refl _, List.Subset.refl _,
          List.Subset.refl _⟩
      have hinv : WatermarkInv s' :=
        h.evolve hev rfl (fun _ => List.Subset.refl _) rfl rfl rfl
      refine hinv.setRun hid (PairOK.evolve h.searches hev (fun m' _ hm' => ?_) hphase)
      rcases hm' with hm' | hheld
      · rcases List.mem_cons.mp hm' with heq | hm'
        · rw [List.map_append, List.mem_append] at hkey
          have hval : (m.values run.account.id box.uidvalidity).key =
              (s.account.id, box.uidvalidity, m'.uid) := by
            rw [← hid, heq]
            rfl
          rw [hval] at hkey
          exact hkey.imp Or.inl Or.inr
        · exact Or.inr (Or.inl hm')
      · exact Or.inr (Or.inr hheld)
    · -- the new row is in this transaction
      set row : Message :=
        { m.values run.account.id box.uidvalidity with id := s.nextMessageId, fetchedAt := now }
        with hrow
      set s' : SyncState :=
        { s with
          nextMessageId := s.nextMessageId + 1
          pending := s.pending ++ [(r, row)] } with hs'
      have hev : Evolves s s' :=
        ⟨.refl _, rfl, fun _ _ => id, List.Subset.refl _, List.Subset.refl _,
          List.Subset.refl _⟩
      have hpending : ∀ r', s.pendingOf r' ⊆ s'.pendingOf r' := by
        intro r'
        show s.pendingOf r' ⊆ ((s.pending ++ [(r, row)]).filter _).map Prod.snd
        rw [List.filter_append, List.map_append]
        exact List.subset_append_left _ _
      have hinv : WatermarkInv s' := h.evolve hev rfl hpending rfl rfl rfl
      refine hinv.setRun hid (PairOK.evolve h.searches hev (fun m' _ hm' => Or.inr ?_) hphase)
      rcases hm' with hm' | hheld
      · rcases List.mem_cons.mp hm' with heq | hm'
        · right
          have hmem : row ∈ s'.pendingOf r := by
            show row ∈ ((s.pending ++ [(r, row)]).filter _).map Prod.snd
            simp
          have hval : row.key = (s'.account.id, box.uidvalidity, m'.uid) := by
            rw [heq]
            show (run.account.id, _, _) = _
            rw [hid]
            rfl
          rw [Holds, ← hval]
          exact List.mem_map_of_mem hmem
        · exact Or.inl hm'
      · exact Or.inr (List.map_subset _ (hpending r) hheld)

/-- **The commit of the inserts** records what the transaction holds. -/
theorem WatermarkInv.commit (h : WatermarkInv s) {box : FetchedBox}
    (hid : run.account.id = s.account.id) (hphase : PhaseOK s r run (.inserting box [])) :
    WatermarkInv (commitStep s r run box) := by
  have hev : Evolves s (commitStep s r run box) := by
    refine ⟨.refl _, rfl, fun v u hrec => hrec.imp (fun hmem => ?_) id, List.Subset.refl _,
      List.Subset.refl _, List.Subset.refl _⟩
    exact List.map_subset _ (List.subset_append_left _ _) hmem
  refine h.act (r := r) hev (fun r' hr' => ⟨?_, ?_⟩) (h.row.evolve h.searches hev)
    (fun k hk => (h.searches k hk).evolve hev) fun run' hrun' => ?_
  · exact Function.update_of_ne hr' _ _
  · have hsame : (commitStep s r run box).pendingOf r' = s.pendingOf r' := pendingOf_endRun s hr'
    rw [hsame]
    exact List.Subset.refl _
  · obtain rfl : { run with phase := .inserted box } = run' :=
      Option.some.inj ((Function.update_self r _ s.runs).symm.trans hrun')
    refine ⟨hid, PairOK.evolve h.searches hev (fun m _ hm => Or.inl (Or.inl ?_)) hphase⟩
    rcases hm with hnil | hheld
    · cases hnil
    · show _ ∈ (s.messages ++ s.pendingOf r).map _
      rw [List.map_append]
      exact List.mem_append_right _ hheld

/-- **The watermark is written** after everything below it has been recorded. -/
theorem WatermarkInv.markSuccess (h : WatermarkInv s) {box : FetchedBox} {now : Instant}
    (hphase : PhaseOK s r run (.inserted box)) : WatermarkInv (markStep s r run box now) := by
  unfold markStep
  split_ifs with hfits
  · set t : SyncState := { s.endRun r with
      account := MailAccountsRepo.markSyncSuccess box.uidnext (some box.uidvalidity) now s.account
      origin := run.origin } with ht
    have hev : Evolves s t :=
      ⟨.refl _, rfl, fun _ _ => id, List.Subset.refl _, List.Subset.refl _, List.Subset.refl _⟩
    refine h.act (r := r) hev (fun r' hr' => ⟨?_, ?_⟩)
      (PairOK.evolve h.searches hev (fun _ _ => Or.inr) hphase)
      (fun k hk => (h.searches k hk).evolve hev) fun run' hrun' => ?_
    · exact Function.update_of_ne hr' _ _
    · have hsame : t.pendingOf r' = s.pendingOf r' := pendingOf_endRun s hr'
      rw [hsame]
      exact List.Subset.refl _
    · have hnone : t.runs r = none := Function.update_self r _ s.runs
      rw [hnone] at hrun'
      cases hrun'
  · exact h.endRun r

end Steps

/-! ## All steps -/

section Runs

variable {E : SyncSetup} {s t : SyncState}

/-- The UIDVALIDITY of a session that is about to keep the stored watermark: STATUS gave it no
UIDNEXT and it fetched nothing. -/
def SyncPhase.keepsStored : SyncPhase → Option ℕ
  | .fetching v none [] [] => some v
  | _ => none

/-- **The condition on the return of a fetch.** A session that keeps the stored watermark finds
none, or one of its own UIDVALIDITY. -/
def KeepsUidnext (s : SyncState) : SyncLabel → Prop
  | .returnBox r => ∀ run ∈ s.runs r, ∀ v ∈ run.phase.keepsStored,
      run.account.lastSyncedUidnext = none ∨ run.account.lastUidvalidity = some v
  | _ => True

instance (s : SyncState) (l : SyncLabel) : Decidable (KeepsUidnext s l) :=
  match l with
  | .returnBox r => inferInstanceAs (Decidable (∀ run ∈ s.runs r, ∀ v ∈ run.phase.keepsStored,
      run.account.lastSyncedUidnext = none ∨ run.account.lastUidvalidity = some v))
  | .arrive _ _ _ | .expunge _ | .changeUidvalidity _ _ _ | .load _ | .statusUidvalidity _
  | .statusUidnext _ _ | .search _ _ _ | .searchFailed _ | .fetchBatch _ _ | .begin _
  | .insert _ _ | .commit _ | .markSuccess _ _ | .crash _ | .retention _ =>
    inferInstanceAs (Decidable True)

/-- Initially there is no watermark. -/
theorem WatermarkInv.fresh (h : s.Fresh) : WatermarkInv s where
  row n _ hn := by
    rw [h.lastSyncedUidnext] at hn
    cases hn
  accountId r run hrun := by
    rw [h.runs r] at hrun
    cases hrun
  runs r run hrun := by
    rw [h.runs r] at hrun
    cases hrun
  searches k hk := by
    rw [h.searches] at hk
    cases hk

/-- **Every step that meets the condition keeps the invariant.**

**Proof sketch.** By cases on what the step does. Steps of the server and steps that only read are
evolutions, under which every promise of the watermark survives. The search, the batch, the return,
the insert, the commit and the mark have a lemma each; the condition is used where a fetch leaves
the watermark to the stored value. -/
theorem WatermarkInv.next {l : SyncLabel} (h : WatermarkInv s) (hg : KeepsUidnext s l)
    (ht : syncNext E s l = some t) : WatermarkInv t := by
  -- what the invariant says about a run in a phase
  have hphase {r : ℕ} {run : SyncRun} {phase : SyncPhase} (hr : s.runs r = some run)
      (hp : run.phase = phase) : PhaseOK s r run phase := hp ▸ h.runs r run hr
  cases syncStep_of_next ht with
  | server _ server hev =>
    exact h.evolve ⟨hev, rfl, fun _ _ => id, List.Subset.refl _, List.Subset.refl _,
      List.Subset.refl _⟩ rfl (fun _ => List.Subset.refl _) rfl rfl rfl
  | load r => exact h.setRun rfl h.row
  | statusUidvalidity r run hr hp =>
    exact h.setRun (h.accountId r run hr) ⟨hphase hr hp, List.mem_cons_self⟩
  | uidnextReported r run v hr hp hv =>
    obtain ⟨hrow, hused⟩ := hphase hr hp
    have hev := evolves_note s [(v, s.server.uidnext)] [] []
    have hset : WatermarkInv ((s.note [(v, s.server.uidnext)] [] []).setRun r
        { run with phase := .status v (some s.server.uidnext) }) :=
      (h.note [(v, s.server.uidnext)] [] (List.forall_mem_nil _)).setRun (h.accountId r run hr)
        ⟨hrow.evolve h.searches hev, hused, fun n hn =>
          ⟨Option.some.inj hn ▸ List.mem_cons_self, fun _ => (Option.some.inj hn).ge⟩⟩
    exact hset
  | uidnextOmitted r run v hr hp =>
    obtain ⟨hrow, hused⟩ := hphase hr hp
    exact h.setRun (h.accountId r run hr) ⟨hrow, hused, nofun⟩
  | search r run v n today withLast hr hp hv =>
    have hid := h.accountId r run hr
    obtain ⟨hrow, -, hn⟩ := hphase hr hp
    by_cases hinit : doInitial run.account.lastSyncedUidnext run.account.lastUidvalidity v
    · exact h.searchInitial hid hv hn hinit
    · exact h.searchIncremental hid hv hrow hn hinit
  | searchFailed r run v n hr hp hinit =>
    obtain ⟨hrow, -, hn⟩ := hphase hr hp
    exact h.searchFailed (h.accountId r run hr) hrow hn hinit
  | fetchBatch r run v n uids ms now hr hp =>
    exact h.fetchBatch (h.accountId r run hr) (hphase hr hp)
  | returnBox r run v n ms hr hp =>
    refine h.returnBox (h.accountId r run hr) (hphase hr hp) fun hn hms => ?_
    subst hn hms
    exact hg run hr v (by rw [hp]; rfl)
  | begin r run box hr hp =>
    exact h.setRun (h.accountId r run hr)
      (PairOK.evolve h.searches (.refl s) (fun _ _ hm => Or.inr (Or.inl hm)) (hphase hr hp))
  | insert r run box m rest now hr hp _ => exact h.insert (h.accountId r run hr) (hphase hr hp)
  | commit r run box hr hp => exact h.commit (h.accountId r run hr) (hphase hr hp)
  | markSuccess r run box now hr hp => exact h.markSuccess (hphase hr hp)
  | crash r => exact h.endRun r
  | retention ids =>
    refine h.evolve ⟨.refl _, rfl, fun v u hrec => ?_, List.Subset.refl _, List.Subset.refl _,
      List.Subset.refl _⟩ rfl (fun _ => List.Subset.refl _) rfl rfl rfl
    rcases hrec with hrow | hremoved
    · obtain ⟨m, hm, hkey⟩ := List.mem_map.mp hrow
      by_cases hid : m.id ∈ ids
      · refine Or.inr (List.mem_append_left _ (List.mem_map.mpr ⟨m, ?_, hkey⟩))
        exact List.mem_filter.mpr ⟨hm, decide_eq_true hid⟩
      · exact Or.inl (List.mem_map.mpr ⟨m, mem_deleteMessages.mpr ⟨hm, hid⟩, hkey⟩)
    · exact Or.inr (List.mem_append_right _ hremoved)

/-! ## Coherence -/

/-- **The watermark is coherent**: the stored UIDNEXT was observed under the stored UIDVALIDITY.
And the next incremental search, unless one has failed under that UIDVALIDITY, starts above no
message that has not been fetched, other than mail that was older than the window of the initial
search. -/
def Coherent (s : SyncState) : Prop :=
  ∀ n v, s.account.lastSyncedUidnext = some n → s.account.lastUidvalidity = some v →
    (v, n) ∈ s.observed ∧ ∃ k ∈ s.searches, s.origin = some k ∧ k.uidvalidity = v ∧
      (v ∉ s.failedSearches → s.server.uidvalidity = v →
        ∀ m ∈ s.server.inbox, m.uid < n →
          Recorded s v m.uid ∨ m.uid < k.uidnext ∧ m.internalDay < k.since)

/-- The invariant makes the stored pair coherent. -/
theorem WatermarkInv.coherent (h : WatermarkInv s) : Coherent s := by
  intro n v hn hv
  obtain ⟨hobs, k, hk, horigin, rfl, hcov⟩ := h.row n v hn hv
  refine ⟨hobs, k, hk, horigin, rfl, fun hf hserver m hm hlt => ?_⟩
  by_cases hc : k.Covers m.uid
  · rcases (hcov hf hserver).2 m hm hlt hc with hrec | hfalse
    · exact Or.inl hrec
    · exact hfalse.elim
  · obtain ⟨hret, hnext⟩ := not_or.mp hc
    have hold : m.uid < k.uidnext := not_le.mp hnext
    exact Or.inr ⟨hold, (((h.searches k hk).2 hserver).2 m hm hold).resolve_left hret⟩

/-- **The watermark is coherent in every run in which no session keeps the UIDNEXT of another
UIDVALIDITY.** -/
theorem coherent_of_keepsUidnext (h : (syncSystem E).ReachableWhen KeepsUidnext s) :
    Coherent s := by
  have hinv : WatermarkInv s :=
    h.invariant (fun _ => WatermarkInv.fresh) fun _ _ _ hs hg ht => WatermarkInv.next hs hg ht
  exact hinv.coherent

end Runs

/-! ## A run, and a watermark of another UIDVALIDITY -/

/-- The default settings. -/
def exampleSetup : SyncSetup where
  settings := .defaults
  env := HtmlSanitize.linkEnv
  html2text := id

/-- A new account on a server. -/
def newMailbox (server : ImapServer) : SyncState where
  server
  account := { id := 1, userId := 1, email := "a@example.com".toList }
  messages := []
  nextMessageId := 1
  pending := []
  runs _ := none
  origin := none
  removed := []
  searches := []
  observed := []
  failedSearches := []

theorem fresh_newMailbox (server : ImapServer) : (newMailbox server).Fresh where
  lastSyncedUidnext := rfl
  lastUidvalidity := rfl
  keys := List.nodup_nil
  pending := rfl
  runs _ := rfl
  origin := rfl
  removed := rfl
  searches := rfl
  observed := rfl
  failedSearches := rfl

/-- An INBOX with one message, dated day 0. -/
def oneMessage : ImapServer where
  uidvalidity := 1
  uidnext := 2
  inbox := [{ uid := 1, internalDay := 0, content := { uid := none } }]
  uid_lt_uidnext := by decide

/-- The steps of run 0 after it has read the account row: it searches on day 30, fetches one
message, and ends well. -/
def firstRun : List SyncLabel :=
  [.statusUidvalidity 0, .statusUidnext 0 true, .search 0 30 false, .fetchBatch 0 0,
    .returnBox 0, .begin 0, .insert 0 0, .commit 0, .markSuccess 0 0]

theorem coherent_firstRun :
    ∃ s, (syncSystem exampleSetup).run (newMailbox oneMessage) (.load 0 :: firstRun) = some s ∧
      s.account.lastSyncedUidnext = some 2 ∧ Coherent s := by
  obtain ⟨s, hrun, hnext⟩ :
      ∃ s, ((syncSystem exampleSetup).restrict KeepsUidnext).run (newMailbox oneMessage)
          (.load 0 :: firstRun) = some s ∧ s.account.lastSyncedUidnext = some 2 := ⟨_, rfl, rfl⟩
  have hreach := System.ReachableWhen.run (.init (fresh_newMailbox oneMessage)) hrun
  exact ⟨s, hrun, hnext, coherent_of_keepsUidnext hreach⟩

/-- An INBOX whose messages, with UIDs up to 99, have all been expunged. -/
def emptyInbox : ImapServer where
  uidvalidity := 1
  uidnext := 100
  inbox := []
  uid_lt_uidnext := List.forall_mem_nil _

/-- **A foreign watermark.** The UIDVALIDITY changes, STATUS omits UIDNEXT, and the new INBOX is
empty: the stored 100 is written under the new UIDVALIDITY, although it was observed under the
old one. -/
theorem foreign_uidnext : ¬ ∀ E s, (syncSystem E).Reachable s → Coherent s := by
  intro h
  obtain ⟨s, hrun, hnext, hval, hobs⟩ :
      ∃ s, (syncSystem exampleSetup).run (newMailbox emptyInbox)
          [.load 0, .statusUidvalidity 0, .statusUidnext 0 true, .search 0 30 false,
            .returnBox 0, .begin 0, .commit 0, .markSuccess 0 0, .changeUidvalidity 2 1 [],
            .load 1, .statusUidvalidity 1, .statusUidnext 1 false, .search 1 30 false,
            .returnBox 1, .begin 1, .commit 1, .markSuccess 1 0] = some s ∧
        s.account.lastSyncedUidnext = some 100 ∧ s.account.lastUidvalidity = some 2 ∧
        s.observed = [(1, 100)] := ⟨_, rfl, rfl, rfl, rfl⟩
  have hreach := System.Reachable.run (.init (fresh_newMailbox emptyInbox)) hrun
  have hmem := (h _ s hreach 100 2 hnext hval).1
  rw [hobs] at hmem
  exact absurd hmem (by decide)

end SyncSystem

end MailAggregator
