import MailAggregator.Lib.Transition
import MailAggregator.Worker.SyncAccount

set_option relaxedAutoImplicit false
set_option autoImplicit false

/-!
# A stuck mailbox shows an error

Two jobs of the worker run sync passes over one table: `sync_cycle` over all active accounts and
`force_sync_dispatch` over some of them. Each runs one pass at a time, and the two may overlap. A
pass loads its accounts once, so an attempt works with a row that may have changed since.

## Main definitions

* `MailAggregator.SyncJobs.workerSystem` — the passes of the two jobs, step by step.
* `MailAggregator.SyncJobs.Flight.Completed` — the attempt of a loaded account is over.
* `MailAggregator.SyncJobs.Shows` — a row whose last success is not recent shows an error.
* `MailAggregator.SyncJobs.RowsInv`, `MailAggregator.SyncJobs.ConsentInv` — the invariants.

## Main results

* `MailAggregator.SyncJobs.never_green` — a completed attempt that recorded no success leaves a
  row that shows an error, unless the last success is recent.
-/

namespace MailAggregator

open PyText ErrorClassify Transition SyncCycle MailAccountsRepo

namespace SyncJobs

/-! ## The system -/

/-- The jobs that run passes, each with `max_instances=1`. -/
inductive SyncJob where
  | syncCycle
  | forceSyncDispatch
  deriving DecidableEq, Repr

/-- How far the attempt of a loaded account is. -/
inductive Stage where
  | loaded
  /-- It has ended, in these surroundings. An exception that left it is recorded later. -/
  | ended (env : SyncEnv) (crashRecorded : Bool)

/-- An account of a pass: the row as it was loaded, and its attempt. -/
structure Flight where
  account : MailAccount
  stage : Stage

/-- A pass of a job: its accounts, the permanent results still to count once the breaker has
decided, and the account whose disabling update comes next. -/
structure Pass where
  flights : List Flight := []
  permanent : Option (List AccountResult) := some []
  disabling : Option ℕ := none

/-- The table, the clock and the passes. -/
structure WorkerState where
  table : List MailAccount
  clock : Instant
  pass : SyncJob → Pass := fun _ => {}

/-- The steps of the two jobs. -/
inductive WorkerLabel where
  | tick (now : Instant)
  /-- `sync_cycle` starts. -/
  | syncCycle
  /-- `force_sync_dispatch` starts, with the drained markers. -/
  | forceSyncDispatch (accountIds : List ℕ)
  /-- The attempt of an account ends. -/
  | attempt (job : SyncJob) (accountId : ℕ) (env : SyncEnv)
  /-- The runner records the exception that left an attempt. -/
  | recordCrash (job : SyncJob) (accountId : ℕ)
  /-- The decision about the breaker. -/
  | decide (job : SyncJob)
  /-- `_record_failure` of the next permanent account. -/
  | recordFailure (job : SyncJob)
  /-- `_disable_after_failures` of the account just counted. -/
  | disable (job : SyncJob)

section System

variable (S : Settings) (fdiv : ℕ → ℕ → ℚ)

/-- The result of an attempt that has ended. -/
def Flight.result (f : Flight) : Option AccountResult :=
  match f.stage with
  | .loaded => none
  | .ended env _ => (syncOneAccount S f.account env).result.toOption

/-- The attempt has ended. -/
def Flight.hasEnded (f : Flight) : Bool :=
  match f.stage with
  | .loaded => false
  | .ended _ _ => true

/-- The attempt is over: it returned a result, or the exception that left it is recorded. -/
def Flight.Completed (f : Flight) : Prop :=
  (f.result S).isSome ∨
    match f.stage with
    | .loaded => False
    | .ended _ crashRecorded => crashRecorded = true

instance (f : Flight) : Decidable (f.Completed S) :=
  match f with
  | ⟨a, .loaded⟩ => inferInstanceAs (Decidable ((Flight.result S ⟨a, .loaded⟩).isSome ∨ False))
  | ⟨a, .ended env recorded⟩ =>
    inferInstanceAs (Decidable ((Flight.result S ⟨a, .ended env recorded⟩).isSome ∨
      recorded = true))

/-- The flights after the one of an account has moved on. -/
def setStage (flights : List Flight) (accountId : ℕ) (stage : Stage) : List Flight :=
  flights.map fun f => if f.account.id = accountId then { f with stage } else f

/-- The flights of the passes. -/
def WorkerState.flights (s : WorkerState) (job : SyncJob) : List Flight := (s.pass job).flights

/-- The state after a change of the pass of a job. -/
def WorkerState.setPass (s : WorkerState) (job : SyncJob) (p : Pass) : WorkerState :=
  { s with pass := Function.update s.pass job p }

/-- A job starts a pass over some rows, when its previous one is over. -/
def startPass (s : WorkerState) (job : SyncJob) (accounts : List MailAccount) :
    Option WorkerState :=
  if (s.pass job).permanent = some [] ∧ (s.pass job).disabling = none then
    some (s.setPass job { flights := accounts.map fun a => ⟨a, .loaded⟩, permanent := none })
  else none

/-- The state after a step, where it is enabled. The writes of the runner and of the bookkeeping
succeed. -/
def workerNext (s : WorkerState) : WorkerLabel → Option WorkerState
  | .tick now => if s.clock ≤ now then some { s with clock := now } else none
  | .syncCycle => startPass s .syncCycle (listActive s.table)
  | .forceSyncDispatch accountIds =>
    startPass s .forceSyncDispatch (listActiveByIds s.table accountIds)
  | .attempt job i env =>
    match getById s.table i, (s.pass job).flights.find? fun f => f.account.id = i with
    | some row, some ⟨a, .loaded⟩ =>
      if env.now = s.clock ∧ (env.seesPeer = true → row.oauthNeedsConsent = true) then
        let p := s.pass job
        some { s.setPass job { p with flights := setStage p.flights i (.ended env false) } with
          table := updateWhereId s.table i (applyWrites (syncOneAccount S a env).writes) }
      else none
    | _, _ => none
  | .recordCrash job i =>
    match (s.pass job).flights.find? fun f => f.account.id = i with
    | some ⟨a, .ended env false⟩ =>
      match (syncOneAccount S a env).result with
      | .ok _ => none
      | .error exc =>
        let p := s.pass job
        if p.flights.all Flight.hasEnded then
          some { s.setPass job { p with flights := setStage p.flights i (.ended env true) } with
            table := updateWhereId s.table i (markTransientError (crashText exc) s.clock) }
        else none
    | _ => none
  | .decide job =>
    let p := s.pass job
    if p.permanent = none ∧ ∀ f ∈ p.flights, f.Completed S then
      let results := p.flights.filterMap (Flight.result S)
      let permanent := if BreakerTripped S fdiv results then []
        else results.filter fun r => r.outcome = .permanent
      some (s.setPass job { p with permanent := some permanent })
    else none
  | .recordFailure job =>
    let p := s.pass job
    match p.permanent, p.disabling with
    | some (r :: rest), none =>
      let (table', newFailed) := SyncCycle.recordFailure s.clock s.table r.accountId r.errorOr false
      let disabling :=
        if r.explicitPermanent = true ∨ S.syncMaxConsecutiveFailures ≤ newFailed then
          some r.accountId else none
      some { s.setPass job { p with permanent := some rest, disabling } with table := table' }
    | _, _ => none
  | .disable job =>
    let p := s.pass job
    match p.disabling with
    | some i =>
      some { s.setPass job { p with disabling := none } with
        table := disableAfterFailures s.clock s.table i }
    | none => none

/-- `ck_mail_accounts_oauth_creds`: an OAuth account has a refresh token. -/
def RefreshTokenStored (a : MailAccount) : Prop :=
  a.authType = .oauthOutlook → a.oauthRefreshTokenEncrypted ≠ none

/-- The two jobs, from any table that meets the constraints and has no success in the future. -/
def workerSystem : System WorkerState WorkerLabel where
  init s := (s.table.map MailAccount.id).Nodup ∧ (∀ a ∈ s.table, RefreshTokenStored a) ∧
    (∀ a ∈ s.table, ∀ t ∈ a.lastSyncedAt, t ≤ s.clock) ∧ s.pass = fun _ => {}
  next := workerNext S fdiv

/-- The attempt recorded a success. -/
def RecordsSuccess (a : MailAccount) (env : SyncEnv) : Prop :=
  ∃ w ∈ (syncOneAccount S a env).writes, w.2.IsSuccess

/-- There is no success, or the last one lies further back than transient errors are suppressed
for. -/
def Stuck (now : Instant) (lastSyncedAt : Option Instant) : Prop :=
  ∀ t ∈ lastSyncedAt, minutes S.syncTransientSuppressMinutes < now - t

/-- A stuck row shows an error. -/
def Shows (now : Instant) (row : MailAccount) : Prop :=
  Stuck S now row.lastSyncedAt → row.lastSyncError ≠ none

end System

/-! ## What a write does to a row -/

/-- What every write of a pass keeps. A row loses its error only when it gains a success. -/
structure RowChange (now : Instant) (a b : MailAccount) : Prop where
  id_eq : b.id = a.id
  authType_eq : b.authType = a.authType
  refreshToken : a.oauthRefreshTokenEncrypted ≠ none → b.oauthRefreshTokenEncrypted ≠ none
  lastSyncedAt : b.lastSyncedAt = a.lastSyncedAt ∨ b.lastSyncedAt = some now
  lastSyncError : b.lastSyncError = none → a.lastSyncError = none ∨ b.lastSyncedAt = some now

theorem RowChange.refl (now : Instant) (a : MailAccount) : RowChange now a a :=
  ⟨rfl, rfl, id, Or.inl rfl, Or.inl⟩

theorem RowChange.trans {now : Instant} {a b c : MailAccount} (hab : RowChange now a b)
    (hbc : RowChange now b c) : RowChange now a c where
  id_eq := hbc.id_eq.trans hab.id_eq
  authType_eq := hbc.authType_eq.trans hab.authType_eq
  refreshToken h := hbc.refreshToken (hab.refreshToken h)
  lastSyncedAt := by
    rcases hbc.lastSyncedAt with h | h
    · rw [h]
      exact hab.lastSyncedAt
    · exact Or.inr h
  lastSyncError h := by
    rcases hbc.lastSyncError h with hb | hc
    · rcases hab.lastSyncError hb with ha | hb'
      · exact Or.inl ha
      · rcases hbc.lastSyncedAt with heq | hnow
        · exact Or.inr (heq.trans hb')
        · exact Or.inr hnow
    · exact Or.inr hc

/-- The writes of an attempt are changes, at the time of its success if it has one. -/
theorem RowChange.write {now t : Instant} {w : RowWrite} (h : w.IsSuccess → t = now)
    (a : MailAccount) : RowChange now a (w.apply t a) := by
  cases w with
  | syncSuccess uidnext uidvalidity =>
    obtain rfl := h trivial
    exact ⟨rfl, rfl, id, Or.inr rfl, fun _ => Or.inr rfl⟩
  | transientError error => exact ⟨rfl, rfl, id, Or.inl rfl, fun h => by cases h⟩
  | needsConsent => exact ⟨rfl, rfl, id, Or.inl rfl, fun h => by cases h⟩
  | needsConsentError =>
    simp only [RowWrite.apply, markOauthNeedsConsentError]
    split_ifs
    · exact .refl now a
    · exact ⟨rfl, rfl, id, Or.inl rfl, fun h => by cases h⟩
  | oauthTokens values =>
    refine ⟨rfl, rfl, fun ha => ?_, Or.inl rfl, fun h => Or.inl h⟩
    simp [RowWrite.apply, updateOauthTokens, ha]

theorem RowChange.applyWrites {now : Instant} {writes : List (Instant × RowWrite)}
    (h : ∀ w ∈ writes, w.2.IsSuccess → w.1 = now) (a : MailAccount) :
    RowChange now a (applyWrites writes a) := by
  induction writes generalizing a with
  | nil => exact .refl now a
  | cons w writes ih =>
    exact (RowChange.write (h w List.mem_cons_self) a).trans
      (ih (fun x hx => h x (List.mem_cons_of_mem w hx)) (w.2.apply w.1 a))

/-- A write of the runner or of the bookkeeping: it leaves the consent flag alone, and takes no
error away. -/
structure QuietChange (now : Instant) (a b : MailAccount) : Prop extends RowChange now a b where
  oauthNeedsConsent : b.oauthNeedsConsent = a.oauthNeedsConsent
  keepsError : b.lastSyncError = none → a.lastSyncError = none

theorem QuietChange.markTransientError (error : Text) (now : Instant) (a : MailAccount) :
    QuietChange now a (markTransientError error now a) :=
  ⟨⟨rfl, rfl, id, Or.inl rfl, fun h => by cases h⟩, rfl, fun h => by cases h⟩

theorem QuietChange.markSyncFailure (error : Text) (now : Instant) (a : MailAccount) :
    QuietChange now a (markSyncFailure error false now a) :=
  ⟨⟨rfl, rfl, id, Or.inl rfl, fun h => by cases h⟩, rfl, fun h => by cases h⟩

theorem QuietChange.disableAndStampAlert (now : Instant) (a : MailAccount) :
    QuietChange now a (disableAndStampAlert now a) := by
  unfold MailAccountsRepo.disableAndStampAlert
  split_ifs
  · exact ⟨⟨rfl, rfl, id, Or.inl rfl, Or.inl⟩, rfl, id⟩
  · exact ⟨.refl now a, rfl, id⟩

section Attempts

variable {S : Settings} {a row : MailAccount} {env : SyncEnv}

theorem applyWrites_append (writes writes' : List (Instant × RowWrite)) (b : MailAccount) :
    applyWrites (writes ++ writes') b = applyWrites writes' (applyWrites writes b) :=
  List.foldl_append

theorem lastSyncError_markOauthNeedsConsentError (now : Instant) (b : MailAccount) :
    (markOauthNeedsConsentError now b).lastSyncError ≠ none := by
  unfold markOauthNeedsConsentError
  split_ifs with h
  · rw [h]
    exact nofun
  · exact nofun

/-- A transient error is suppressed when the last success is recent. -/
theorem of_shouldSuppressTransient {S : Settings} {now : Instant} {lastSyncedAt : Option Instant}
    (h : shouldSuppressTransient S now lastSyncedAt = true) :
    ∃ t ∈ lastSyncedAt, now - t ≤ minutes S.syncTransientSuppressMinutes := by
  unfold shouldSuppressTransient at h
  cases lastSyncedAt with
  | none => cases h
  | some t => exact ⟨t, rfl, (of_decide_eq_true h).2⟩

/-- A success is recorded at the end of the attempt.

**Proof sketch.** By cases on how the attempt ends. Only the end with a success records one, and it
does so at the time of the attempt. -/
theorem success_now (S : Settings) (a : MailAccount) (env : SyncEnv) :
    ∀ w ∈ (syncOneAccount S a env).writes, w.2.IsSuccess → w.1 = env.now := by
  have hend := syncOneAccount_cases S a env
  generalize syncOneAccount S a env = att at hend
  intro w hw hs
  cases hend with
  | escaped exc persisted => exact absurd hs (tokenWrites_not_success a persisted w hw)
  | failed exc detail persisted =>
    rcases List.mem_append.mp hw with hw | hw
    · exact absurd hs (tokenWrites_not_success a persisted w hw)
    · exact absurd hs (handleSyncError_writes w hw)
  | needsConsent h =>
    obtain rfl := List.mem_singleton.mp hw
    rfl
  | refused marks h =>
    cases marks with
    | true =>
      obtain rfl := List.mem_singleton.mp hw
      rfl
    | false => cases hw
  | synced persisted uidnext uidvalidity newCount conflictCount h =>
    rcases List.mem_append.mp hw with hw | hw
    · exact absurd hs (tokenWrites_not_success a persisted w hw)
    · obtain rfl := List.mem_singleton.mp hw
      rfl

/-- Where the consent flag is set and no error is shown after an attempt, it was so before, or the
attempt recorded a success.

**Proof sketch.** By cases on how the attempt ends. Refreshed tokens clear the flag, so that a flag
after them was there before and the tokens were not written. An error that is written is shown;
where none is written, nothing has changed. A success is recorded only for an account that was
loaded without the flag. -/
theorem consent_of_applyWrites
    (hflag : (applyWrites (syncOneAccount S a env).writes row).oauthNeedsConsent = true)
    (herror : (applyWrites (syncOneAccount S a env).writes row).lastSyncError = none) :
    row.oauthNeedsConsent = true ∧
      (row.lastSyncError = none ∨ (a.authType = .oauthOutlook → a.oauthNeedsConsent = false)) := by
  have hend := syncOneAccount_cases S a env
  generalize syncOneAccount S a env = att at hend hflag herror
  -- refreshed tokens clear the flag
  have htokens : ∀ persisted (b : MailAccount),
      (applyWrites (tokenWrites a persisted) b).oauthNeedsConsent = true →
        applyWrites (tokenWrites a persisted) b = b := by
    rintro (_ | p) b h
    · rfl
    · cases h
  cases hend with
  | escaped exc persisted =>
    have heq : applyWrites (tokenWrites a persisted) row = row := htokens persisted row hflag
    exact ⟨heq ▸ hflag, Or.inl (heq ▸ herror)⟩
  | failed exc detail persisted =>
    simp only [failedAttempt, applyWrites_append] at hflag herror
    rcases handleSyncError_writes_cases S env.now a exc detail with ⟨h, _⟩ | h
    · rw [h] at hflag herror
      have heq : applyWrites (tokenWrites a persisted) row = row := htokens persisted row hflag
      exact ⟨heq ▸ hflag, Or.inl (heq ▸ herror)⟩
    · rw [h] at herror
      cases herror
  | needsConsent h => exact absurd herror (lastSyncError_markOauthNeedsConsentError _ _)
  | refused marks h =>
    cases marks with
    | true => cases herror
    | false => exact ⟨hflag, Or.inl herror⟩
  | synced persisted uidnext uidvalidity newCount conflictCount h =>
    simp only [Attempt.okay, applyWrites_append] at hflag
    have heq : applyWrites (tokenWrites a persisted) row = row := htokens persisted row hflag
    rw [heq] at hflag
    exact ⟨hflag, Or.inr h⟩

/-- A time that is not before `now` is recent. -/
theorem not_stuck {S : Settings} {now t : Instant} (h : now ≤ t) : ¬ Stuck S now (some t) := by
  intro hstuck
  have hage : now - t ≤ 0 := sub_nonpos.mpr h
  have hwindow : 0 ≤ minutes S.syncTransientSuppressMinutes := by
    simp only [minutes, seconds]
    omega
  exact absurd (hstuck t rfl) (not_lt.mpr (hage.trans hwindow))

/-- **An attempt without a success shows its error.** Let the row be the one of the loaded account
or a later one: its last success is no older, and if it waits for consent without an error, the
account was loaded so. Then whichever way the attempt returns without recording a success, the row
shows an error afterwards unless the last success is recent.

**Proof sketch.** By cases on how the attempt ends. An error that is written is shown. One that is
not written was suppressed, since the last success of the loaded account is recent; the row has one
that is no older, and so is not stuck. An attempt of an account that is loaded as waiting for
consent writes that error, and one whose refresh is refused marks the row with it. One that makes no
mark has no refresh token, which a stored account has, or has seen the mark of another; then the row
waits for consent, and without an error the account would have been loaded as waiting. Success is
excluded. -/
theorem shows_of_attempt (hstored : RefreshTokenStored a)
    (hsynced : ∀ t ∈ a.lastSyncedAt, ∃ t' ∈ row.lastSyncedAt, t ≤ t')
    (hpeer : env.seesPeer = true → row.oauthNeedsConsent = true)
    (hconsent : a.authType = .oauthOutlook → row.oauthNeedsConsent = true →
      row.lastSyncError = none → a.oauthNeedsConsent = true)
    (hreturned : (syncOneAccount S a env).result.toOption.isSome)
    (hfail : ¬ RecordsSuccess S a env) :
    Shows S env.now (applyWrites (syncOneAccount S a env).writes row) := by
  have hchange : RowChange env.now row (applyWrites (syncOneAccount S a env).writes row) :=
    .applyWrites (success_now S a env) row
  have hend := syncOneAccount_cases S a env
  unfold RecordsSuccess at hfail
  generalize syncOneAccount S a env = att at hend hreturned hfail hchange
  cases hend with
  | escaped exc persisted => cases hreturned
  | failed exc detail persisted =>
    rcases handleSyncError_writes_cases S env.now a exc detail with ⟨_, hsuppress⟩ | h
    · -- nothing is written soon after the last success, and the row has one that is no older
      intro hstuck
      obtain ⟨t, ht, hrecent⟩ := of_shouldSuppressTransient hsuppress
      obtain ⟨t', ht', hle⟩ := hsynced t ht
      rcases hchange.lastSyncedAt with heq | hnow
      · have hage : env.now - t' ≤ env.now - t := sub_le_sub_left hle env.now
        exact absurd (hstuck t' (heq ▸ ht')) (not_lt.mpr (hage.trans hrecent))
      · exact absurd (hnow ▸ hstuck) (not_stuck le_rfl)
    · intro _
      simp only [failedAttempt, applyWrites_append, h]
      exact nofun
  | needsConsent h => exact fun _ => lastSyncError_markOauthNeedsConsentError _ _
  | refused marks h =>
    cases marks with
    | true => exact fun _ => nofun
    | false =>
      intro _ herror
      obtain ⟨hauth, hflag, hmissing | hpeered⟩ := refused_cases h
      · exact hstored hauth hmissing
      · have hrow : row.oauthNeedsConsent = true :=
          hpeer (by rw [SyncEnv.seesPeer, hpeered])
        rw [hconsent hauth hrow herror] at hflag
        cases hflag
  | synced persisted uidnext uidvalidity newCount conflictCount h =>
    exact absurd ⟨_, List.mem_append_right _ (List.mem_singleton.mpr rfl), trivial⟩ hfail

end Attempts

/-! ## The invariants -/

section Invariants

variable (S : Settings)

/-- What holds between a flight and the row of its account. -/
def FlightInv (clock : Instant) (row : MailAccount) (f : Flight) : Prop :=
  match f.stage with
  | .loaded =>
    RefreshTokenStored f.account ∧ row.authType = f.account.authType ∧
      ∀ t ∈ f.account.lastSyncedAt, ∃ t' ∈ row.lastSyncedAt, t ≤ t'
  | .ended env _ =>
    env.now ≤ clock ∧ (f.Completed S → ¬ RecordsSuccess S f.account env → Shows S env.now row)

/-- **The invariant of the rows.** Their ids are distinct, no success lies in the future, and every
completed attempt without a success left an error that shows. -/
structure RowsInv (table : List MailAccount) (clock : Instant) (flights : SyncJob → List Flight) :
    Prop where
  nodup : (table.map MailAccount.id).Nodup
  stored : ∀ a ∈ table, RefreshTokenStored a
  past : ∀ a ∈ table, ∀ t ∈ a.lastSyncedAt, t ≤ clock
  flights_nodup : ∀ job, ((flights job).map fun f => f.account.id).Nodup
  flight : ∀ job, ∀ f ∈ flights job,
    ∃ row, getById table f.account.id = some row ∧ FlightInv S clock row f

/-- An attempt of an account has not ended, and works with a row without the consent flag. -/
def Unaware (flights : SyncJob → List Flight) (job : SyncJob) (accountId : ℕ) (f : Flight) :
    Prop :=
  f ∈ flights job ∧ f.stage = .loaded ∧ f.account.id = accountId ∧
    f.account.oauthNeedsConsent = false

/-- **The invariant of the consent flag.** An attempt that could take the error of a flagged row
away is the only one that does not know of the flag, so no attempt that finds the flag later
relies on an error that is gone. -/
structure ConsentInv (table : List MailAccount) (flights : SyncJob → List Flight) : Prop where
  no_unaware : ∀ row ∈ table, row.authType = .oauthOutlook → row.oauthNeedsConsent = true →
    row.lastSyncError = none → ∀ job f, ¬ Unaware flights job row.id f
  one_job : ∀ row ∈ table, row.oauthNeedsConsent = true → ∀ job job' f f',
    Unaware flights job row.id f → Unaware flights job' row.id f' → job = job'

/-- Both invariants, of a state. -/
def WorkerInv (s : WorkerState) : Prop :=
  RowsInv S s.table s.clock s.flights ∧ ConsentInv s.table s.flights

variable {S} {table : List MailAccount} {clock now : Instant} {flights : SyncJob → List Flight}
  {a b row : MailAccount} {f : Flight} {set : MailAccount → MailAccount}

/-! ### A change of a row -/

theorem Shows.change (h : Shows S now a) (hc : RowChange clock a b) (hle : now ≤ clock) :
    Shows S now b := by
  intro hstuck herror
  have hold : b.lastSyncedAt ≠ some clock := fun heq => not_stuck hle (heq ▸ hstuck)
  have heq : b.lastSyncedAt = a.lastSyncedAt := hc.lastSyncedAt.resolve_right hold
  exact h (heq ▸ hstuck) ((hc.lastSyncError herror).resolve_right hold)

theorem FlightInv.change (h : FlightInv S clock a f) (hpast : ∀ t ∈ a.lastSyncedAt, t ≤ clock)
    (hc : RowChange clock a b) : FlightInv S clock b f := by
  unfold FlightInv at h ⊢
  cases hstage : f.stage with
  | loaded =>
    rw [hstage] at h
    obtain ⟨hstored, hauth, hsynced⟩ := h
    refine ⟨hstored, hc.authType_eq.trans hauth, fun t ht => ?_⟩
    obtain ⟨t', ht', hle⟩ := hsynced t ht
    rcases hc.lastSyncedAt with heq | hnow
    · exact ⟨t', heq ▸ ht', hle⟩
    · exact ⟨clock, hnow, hle.trans (hpast t' ht')⟩
  | ended env recorded =>
    rw [hstage] at h
    exact ⟨h.1, fun hcomp hfail => (h.2 hcomp hfail).change hc h.1⟩

/-- The rows of a table after an update. -/
theorem exists_of_mem_updateWhereId (hset : ∀ x, RowChange clock x (set x)) {i : ℕ}
    (hb : b ∈ updateWhereId table i set) : ∃ x ∈ table, RowChange clock x b := by
  obtain ⟨x, hx, rfl⟩ := List.mem_map.mp hb
  refine ⟨x, hx, ?_⟩
  split_ifs
  · exact hset x
  · exact .refl clock x

theorem RowsInv.past_of_getById (h : RowsInv S table clock flights) {i : ℕ}
    (hrow : getById table i = some row) : ∀ t ∈ row.lastSyncedAt, t ≤ clock :=
  h.past row (mem_of_getById hrow)

theorem RowsInv.update (h : RowsInv S table clock flights) (i : ℕ)
    (hset : ∀ x, RowChange clock x (set x)) :
    RowsInv S (updateWhereId table i set) clock flights where
  nodup := by
    rw [map_id_updateWhereId fun x => (hset x).id_eq]
    exact h.nodup
  stored b hb hauth := by
    obtain ⟨x, hx, hc⟩ := exists_of_mem_updateWhereId hset hb
    exact hc.refreshToken (h.stored x hx (hc.authType_eq ▸ hauth))
  past b hb t ht := by
    obtain ⟨x, hx, hc⟩ := exists_of_mem_updateWhereId hset hb
    rcases hc.lastSyncedAt with heq | hnow
    · exact h.past x hx t (heq ▸ ht)
    · rw [hnow] at ht
      exact (Option.some.inj ht).ge
  flights_nodup := h.flights_nodup
  flight job f hf := by
    obtain ⟨row, hrow, hinv⟩ := h.flight job f hf
    refine ⟨_, by rw [getById_updateWhereId fun x => (hset x).id_eq, hrow, Option.map_some], ?_⟩
    refine hinv.change (h.past_of_getById hrow) ?_
    split_ifs
    · exact hset row
    · exact .refl clock row

theorem ConsentInv.update (h : ConsentInv table flights) (i : ℕ)
    (hset : ∀ x, QuietChange clock x (set x)) :
    ConsentInv (updateWhereId table i set) flights := by
  have hquiet : ∀ b ∈ updateWhereId table i set, ∃ x ∈ table, QuietChange clock x b := by
    intro b hb
    obtain ⟨x, hx, rfl⟩ := List.mem_map.mp hb
    refine ⟨x, hx, ?_⟩
    split_ifs
    · exact hset x
    · exact ⟨.refl clock x, rfl, id⟩
  constructor
  · intro b hb hauth hflag herror
    obtain ⟨x, hx, hc⟩ := hquiet b hb
    rw [hc.id_eq]
    exact h.no_unaware x hx (hc.authType_eq ▸ hauth) (hc.oauthNeedsConsent ▸ hflag)
      (hc.keepsError herror)
  · intro b hb hflag
    obtain ⟨x, hx, hc⟩ := hquiet b hb
    rw [hc.id_eq]
    exact h.one_job x hx (hc.oauthNeedsConsent ▸ hflag)

/-! ### A change of the flights -/

theorem map_account_setStage (fs : List Flight) (i : ℕ) (stage : Stage) :
    (setStage fs i stage).map (fun f => f.account.id) = fs.map fun f => f.account.id := by
  rw [setStage, List.map_map]
  refine List.map_congr_left fun f _ => ?_
  simp only [Function.comp]
  split_ifs <;> rfl

/-- The flight of an account moves on.

**Proof sketch.** Only the flights of one job change, and of them only the stage of one account. For
that flight the hypothesis says what holds of its row; the accounts of the flights are the same, so
that their ids stay distinct. -/
theorem RowsInv.setStage (h : RowsInv S table clock flights) (job : SyncJob) {i : ℕ} {stage : Stage}
    (hnew : ∀ f ∈ flights job, f.account.id = i → ∀ row, getById table i = some row →
      FlightInv S clock row ⟨f.account, stage⟩) :
    RowsInv S table clock (Function.update flights job (setStage (flights job) i stage)) where
  nodup := h.nodup
  stored := h.stored
  past := h.past
  flights_nodup job' := by
    by_cases hjob : job' = job
    · subst hjob
      rw [Function.update_self, map_account_setStage]
      exact h.flights_nodup job'
    · rw [Function.update_of_ne hjob]
      exact h.flights_nodup job'
  flight job' g hg := by
    by_cases hjob : job' = job
    · subst hjob
      rw [Function.update_self] at hg
      obtain ⟨f, hf, rfl⟩ := List.mem_map.mp hg
      obtain ⟨row, hrow, hinv⟩ := h.flight job' f hf
      by_cases hid : f.account.id = i
      · rw [if_pos hid]
        exact ⟨row, hrow, hnew f hf hid row (hid ▸ hrow)⟩
      · rw [if_neg hid]
        exact ⟨row, hrow, hinv⟩
    · rw [Function.update_of_ne hjob] at hg
      exact h.flight job' g hg

/-- After the attempt of an account has ended, the job has no unaware attempt of it. -/
theorem Unaware.of_setStage {job job' : SyncJob} {i k : ℕ} {env : SyncEnv} {recorded : Bool}
    (h : Unaware (Function.update flights job (setStage (flights job) i (.ended env recorded))) job'
      k f) : Unaware flights job' k f ∧ (k = i → job' ≠ job) := by
  obtain ⟨hf, hstage, hid, hflag⟩ := h
  by_cases hjob : job' = job
  · subst hjob
    rw [Function.update_self] at hf
    obtain ⟨g, hg, rfl⟩ := List.mem_map.mp hf
    split_ifs at hstage hid hflag with hgid
    have hne : k ≠ i := fun hk => hgid (hid.trans hk)
    rw [if_neg hgid]
    exact ⟨⟨hg, hstage, hid, hflag⟩, fun hk => absurd hk hne⟩
  · rw [Function.update_of_ne hjob] at hf
    exact ⟨⟨hf, hstage, hid, hflag⟩, fun _ => hjob⟩

/-- Fewer unaware attempts keep the invariant. -/
theorem ConsentInv.mono {flights' : SyncJob → List Flight} (h : ConsentInv table flights)
    (hsub : ∀ row ∈ table, row.oauthNeedsConsent = true → ∀ job f,
      Unaware flights' job row.id f → Unaware flights job row.id f) :
    ConsentInv table flights' where
  no_unaware row hrow hauth hflag herror job f hf :=
    h.no_unaware row hrow hauth hflag herror job f (hsub row hrow hflag job f hf)
  one_job row hrow hflag job job' f f' hf hf' :=
    h.one_job row hrow hflag job job' f f' (hsub row hrow hflag job f hf)
      (hsub row hrow hflag job' f' hf')

/-! ### The steps -/

variable {fdiv : ℕ → ℕ → ℚ} {s t : WorkerState} {job : SyncJob}

theorem flights_setPass (s : WorkerState) (job : SyncJob) (p : Pass) :
    (s.setPass job p).flights = Function.update s.flights job p.flights := by
  funext job'
  simp only [WorkerState.flights, WorkerState.setPass, Function.update_apply]
  split_ifs <;> rfl

/-- A change of a pass that leaves its flights alone. -/
theorem flights_setPass_of_eq {p : Pass} (h : p.flights = (s.pass job).flights) :
    (s.setPass job p).flights = s.flights := by
  rw [flights_setPass, h]
  exact Function.update_eq_self job s.flights

/-- A pass starts with rows of the table.

**Proof sketch.** The flights of the new pass are the loaded rows. They are rows of the table as it
stands, with their refresh tokens and their last successes, and their ids are distinct; the flights
of the other job do not change. A loaded row that waits for consent was loaded with its flag. -/
theorem WorkerInv.startPass (h : WorkerInv S s) {accounts : List MailAccount}
    (hmem : ∀ x ∈ accounts, x ∈ s.table) (hnodup : (accounts.map MailAccount.id).Nodup)
    (ht : startPass s job accounts = some t) : WorkerInv S t := by
  obtain ⟨hrows, hconsent⟩ := h
  unfold SyncJobs.startPass at ht
  split_ifs at ht
  obtain rfl := Option.some.inj ht
  refine ⟨⟨hrows.nodup, hrows.stored, hrows.past, fun job' => ?_, fun job' f hf => ?_⟩, ?_⟩
  · rw [flights_setPass]
    by_cases hjob : job' = job
    · subst hjob
      rw [Function.update_self, List.map_map]
      exact hnodup
    · rw [Function.update_of_ne hjob]
      exact hrows.flights_nodup job'
  · rw [flights_setPass] at hf
    by_cases hjob : job' = job
    · subst hjob
      rw [Function.update_self] at hf
      obtain ⟨a, ha, rfl⟩ := List.mem_map.mp hf
      exact ⟨a, getById_of_mem hrows.nodup (hmem a ha), hrows.stored a (hmem a ha), rfl,
        fun t ht => ⟨t, ht, le_rfl⟩⟩
    · rw [Function.update_of_ne hjob] at hf
      exact hrows.flight job' f hf
  · refine hconsent.mono fun row hrow hflag job' f hf => ?_
    rw [flights_setPass] at hf
    obtain ⟨hmem', hstage, hid, hunaware⟩ := hf
    by_cases hjob : job' = job
    · -- the pass has just loaded the row with its flag
      subst hjob
      rw [Function.update_self] at hmem'
      obtain ⟨a, ha, rfl⟩ := List.mem_map.mp hmem'
      obtain rfl := List.inj_on_of_nodup_map hrows.nodup (hmem a ha) hrow hid
      rw [hflag] at hunaware
      cases hunaware
    · rw [Function.update_of_ne hjob] at hmem'
      exact ⟨hmem', hstage, hid, hunaware⟩

/-- What a selection loads, in any order. -/
theorem loads_insertionSort (hn : (table.map MailAccount.id).Nodup) (p : MailAccount → Bool)
    (order : MailAccount → MailAccount → Prop) [DecidableRel order] :
    (∀ x ∈ (table.filter p).insertionSort order, x ∈ table) ∧
      (((table.filter p).insertionSort order).map MailAccount.id).Nodup := by
  have hperm := List.perm_insertionSort order (table.filter p)
  refine ⟨fun x hx => List.mem_of_mem_filter (hperm.mem_iff.mp hx), ?_⟩
  exact (hperm.map MailAccount.id).nodup_iff.mpr (hn.sublist (List.filter_sublist.map _))

theorem listActive_loads (hn : (table.map MailAccount.id).Nodup) :
    (∀ x ∈ listActive table, x ∈ table) ∧ ((listActive table).map MailAccount.id).Nodup :=
  loads_insertionSort hn _ _

theorem listActiveByIds_loads (hn : (table.map MailAccount.id).Nodup) (accountIds : List ℕ) :
    (∀ x ∈ listActiveByIds table accountIds, x ∈ table) ∧
      ((listActiveByIds table accountIds).map MailAccount.id).Nodup :=
  loads_insertionSort hn _ _

/-- The end of an attempt: its flight, and what it found in the row. -/
theorem attempt_cases {i : ℕ} {env : SyncEnv}
    (h : workerNext S fdiv s (.attempt job i env) = some t) :
    ∃ a row, ⟨a, .loaded⟩ ∈ s.flights job ∧ a.id = i ∧ getById s.table i = some row ∧
      env.now = s.clock ∧ (env.seesPeer = true → row.oauthNeedsConsent = true) ∧
      t.clock = s.clock ∧
      t.table = updateWhereId s.table i (applyWrites (syncOneAccount S a env).writes) ∧
      t.flights = Function.update s.flights job
        (setStage (s.flights job) i (.ended env false)) := by
  simp only [workerNext] at h
  split at h
  · next row a hrow hfind =>
    split_ifs at h with hguard
    obtain rfl := Option.some.inj h
    obtain ⟨hnow, hpeer⟩ := hguard
    have hid : a.id = i := by simpa using List.find?_some hfind
    exact ⟨a, row, List.mem_of_find?_eq_some hfind, hid, hrow, hnow, hpeer, rfl, rfl,
      flights_setPass s job _⟩
  · cases h

/-- The row of a loaded account after its attempt.

**Proof sketch.** The attempt writes to its own row. The row is inserted and loaded as the invariant
says, so that what the attempt is based on is what the row holds, and the lemma about one attempt
gives the text that the row shows if it failed. The other rows, and the other flights of the same
job, stay as they are. A row whose consent is missing can lose its error only by a success, which an
attempt that knows of the missing consent does not have. -/
theorem WorkerInv.attempt (h : WorkerInv S s) {i : ℕ} {env : SyncEnv}
    (ht : workerNext S fdiv s (.attempt job i env) = some t) : WorkerInv S t := by
  obtain ⟨hrows, hconsent⟩ := h
  obtain ⟨a, row, hflight, rfl, hrow, hnow, hpeer, hclock, htable, hflights⟩ := attempt_cases ht
  obtain ⟨row', hrow', hinv⟩ := hrows.flight job _ hflight
  obtain rfl : row = row' := Option.some.inj (hrow.symm.trans hrow')
  have hrowmem : row ∈ s.table := mem_of_getById hrow
  have hrowid : row.id = a.id := id_of_getById hrow
  obtain ⟨hstored, hauth, hsynced⟩ := hinv
  have hset : ∀ x, RowChange s.clock x (applyWrites (syncOneAccount S a env).writes x) :=
    fun x => .applyWrites (hnow ▸ success_now S a env) x
  have haware : a.authType = .oauthOutlook → row.oauthNeedsConsent = true →
      row.lastSyncError = none → a.oauthNeedsConsent = true := by
    intro ha hflag herror
    refine eq_true_of_ne_false fun hfalse => ?_
    exact hconsent.no_unaware row hrowmem (hauth.trans ha) hflag herror job ⟨a, .loaded⟩
      ⟨hflight, rfl, hrowid.symm, hfalse⟩
  rw [WorkerInv, hclock, htable, hflights]
  refine ⟨(hrows.update a.id hset).setStage job ?_, ?_, ?_⟩
  · intro f hf hid b hb
    obtain rfl : f = ⟨a, .loaded⟩ :=
      List.inj_on_of_nodup_map (hrows.flights_nodup job) hf hflight hid
    rw [getById_updateWhereId fun x => (hset x).id_eq, hrow, Option.map_some, if_pos rfl] at hb
    obtain rfl := Option.some.inj hb
    refine ⟨hnow.le, fun hcomp hfail => ?_⟩
    refine shows_of_attempt hstored hsynced hpeer haware ?_ hfail
    exact hcomp.resolve_right Bool.false_ne_true
  · intro b hb hbauth hflag herror job' f hf
    obtain ⟨x, hx, rfl⟩ := List.mem_map.mp hb
    split_ifs at hbauth hflag herror hf with hid
    · -- the row of the attempt: a success is the only way to lose the error of a flagged row
      obtain rfl := List.inj_on_of_nodup_map hrows.nodup hx hrowmem (hid.trans hrowid.symm)
      rw [(hset x).id_eq] at hf
      obtain ⟨hold, hother⟩ := hf.of_setStage
      obtain ⟨hflag', herror' | hsuccess⟩ := consent_of_applyWrites hflag herror
      · exact hconsent.no_unaware x hx ((hset x).authType_eq ▸ hbauth) hflag' herror' job' f hold
      · have hself : Unaware s.flights job x.id ⟨a, .loaded⟩ :=
          ⟨hflight, rfl, hid.symm, hsuccess (hauth.symm.trans ((hset x).authType_eq ▸ hbauth))⟩
        exact hother hid (hconsent.one_job x hx hflag' job' job f _ hold hself)
    · exact hconsent.no_unaware x hx hbauth hflag herror job' f hf.of_setStage.1
  · intro b hb hflag job₁ job₂ f₁ f₂ h₁ h₂
    obtain ⟨x, hx, rfl⟩ := List.mem_map.mp hb
    split_ifs at hflag h₁ h₂ with hid
    · -- both are of the other job
      rw [(hset x).id_eq] at h₁ h₂
      have hne₁ := h₁.of_setStage.2 hid
      have hne₂ := h₂.of_setStage.2 hid
      revert hne₁ hne₂
      cases job <;> cases job₁ <;> cases job₂ <;> decide
    · exact hconsent.one_job x hx hflag job₁ job₂ f₁ f₂ h₁.of_setStage.1 h₂.of_setStage.1

/-- The runner records a crash.

**Proof sketch.** The crash of an attempt is written to the row as a transient error, which is an
error that shows, and the flight is recorded. The other rows and flights stay as they are; a row
whose consent is missing has an error now. -/
theorem WorkerInv.recordCrash (h : WorkerInv S s) {i : ℕ}
    (ht : workerNext S fdiv s (.recordCrash job i) = some t) : WorkerInv S t := by
  obtain ⟨hrows, hconsent⟩ := h
  simp only [workerNext] at ht
  split at ht
  · next a env hfind =>
    split at ht
    · cases ht
    · next exc hresult =>
      split_ifs at ht
      obtain rfl := Option.some.inj ht
      have hflight : ⟨a, .ended env false⟩ ∈ s.flights job := List.mem_of_find?_eq_some hfind
      have hid : a.id = i := by simpa using List.find?_some hfind
      obtain ⟨_, _, hnow, _⟩ := hrows.flight job _ hflight
      have hquiet : ∀ x, QuietChange s.clock x (markTransientError (crashText exc) s.clock x) :=
        fun x => .markTransientError _ _ x
      change RowsInv S _ s.clock (s.setPass job _).flights ∧ ConsentInv _ (s.setPass job _).flights
      rw [flights_setPass]
      refine ⟨(hrows.update i fun x => (hquiet x).toRowChange).setStage job ?_,
        (hconsent.update i hquiet).mono fun _ _ _ _ _ hf => hf.of_setStage.1⟩
      intro f hf hfid row hrow
      obtain rfl : f = ⟨a, .ended env false⟩ :=
        List.inj_on_of_nodup_map (hrows.flights_nodup job) hf hflight (hfid.trans hid.symm)
      refine ⟨hnow, fun _ _ _ herror => ?_⟩
      rw [getById_updateWhereId fun x => (hquiet x).id_eq] at hrow
      obtain ⟨x, _, rfl⟩ := Option.map_eq_some_iff.mp hrow
      rw [if_pos rfl] at herror
      cases herror
  · cases ht

theorem WorkerInv.of_eq (h : WorkerInv S s) (hclock : t.clock = s.clock)
    (htable : t.table = s.table) (hflights : t.flights = s.flights) : WorkerInv S t := by
  rw [WorkerInv, hclock, htable, hflights]
  exact h

/-- A bookkeeping write. -/
theorem WorkerInv.quiet (h : WorkerInv S s) {i : ℕ} (hset : ∀ x, QuietChange s.clock x (set x))
    (hclock : t.clock = s.clock) (htable : t.table = updateWhereId s.table i set)
    (hflights : t.flights = s.flights) : WorkerInv S t := by
  rw [WorkerInv, hclock, htable, hflights]
  exact ⟨h.1.update i fun x => (hset x).toRowChange, h.2.update i hset⟩

/-- **Every step keeps the invariants.**

**Proof sketch.** By cases on the step. Time only moves the clock. The two jobs load accounts of the
table as they are and start a pass. The attempts and the crashes have lemmas of their own. The
decision changes no row. The bookkeeping counts failures, disables and stamps, which keeps the last
success and takes no error away. -/
theorem WorkerInv.next (h : WorkerInv S s) {l : WorkerLabel}
    (ht : workerNext S fdiv s l = some t) : WorkerInv S t := by
  cases l with
  | tick now =>
    simp only [workerNext] at ht
    split_ifs at ht with hle
    obtain rfl := Option.some.inj ht
    refine ⟨⟨h.1.nodup, h.1.stored, fun a ha t hat => (h.1.past a ha t hat).trans hle,
      h.1.flights_nodup, fun job f hf => ?_⟩, h.2⟩
    obtain ⟨row, hrow, hinv⟩ := h.1.flight job f hf
    refine ⟨row, hrow, ?_⟩
    unfold FlightInv at hinv ⊢
    cases hstage : f.stage with
    | loaded =>
      rw [hstage] at hinv
      exact hinv
    | ended env recorded =>
      rw [hstage] at hinv
      exact ⟨hinv.1.trans hle, hinv.2⟩
  | syncCycle =>
    obtain ⟨hmem, hnodup⟩ := listActive_loads h.1.nodup
    exact h.startPass hmem hnodup ht
  | forceSyncDispatch accountIds =>
    obtain ⟨hmem, hnodup⟩ := listActiveByIds_loads h.1.nodup accountIds
    exact h.startPass hmem hnodup ht
  | attempt job i env => exact h.attempt ht
  | recordCrash job i => exact h.recordCrash ht
  | decide job =>
    simp only [workerNext] at ht
    split_ifs at ht <;> obtain rfl := Option.some.inj ht <;>
      exact h.of_eq rfl rfl (flights_setPass_of_eq rfl)
  | recordFailure job =>
    simp only [workerNext] at ht
    split at ht
    · next r rest _ _ =>
      obtain rfl := Option.some.inj ht
      exact h.quiet (fun x => .markSyncFailure r.errorOr s.clock x) rfl
        (recordFailure_fst s.clock s.table r.accountId r.errorOr false) (flights_setPass_of_eq rfl)
    · cases ht
  | disable job =>
    simp only [workerNext] at ht
    split at ht
    · obtain rfl := Option.some.inj ht
      exact h.quiet (fun x => .disableAndStampAlert s.clock x) rfl rfl (flights_setPass_of_eq rfl)
    · cases ht

theorem WorkerInv.of_reachable (h : (workerSystem S fdiv).Reachable s) : WorkerInv S s := by
  refine h.invariant (P := WorkerInv S) ?_ fun s l t hs _ ht => hs.next ht
  rintro s ⟨hnodup, hstored, hpast, hpass⟩
  have hnone : ∀ job, s.flights job = [] := fun job => by rw [WorkerState.flights, hpass]
  refine ⟨⟨hnodup, hstored, hpast, fun job => ?_, fun job f hf => ?_⟩, ?_, ?_⟩
  · rw [hnone]
    exact List.nodup_nil
  · rw [hnone] at hf
    cases hf
  · rintro row _ _ _ _ job f ⟨hf, _⟩
    rw [hnone] at hf
    cases hf
  · rintro row _ _ job _ f _ ⟨hf, _⟩
    rw [hnone] at hf
    cases hf

/-- **A stuck mailbox is never green.** In every run of the passes of the two jobs, once the
attempt of an account is over and recorded no success, the row of the account shows an error
unless its last success is recent. It does not matter which way the attempt took, whether the
breaker tripped, or what the other job did meanwhile.

**Proof sketch.** `shows_of_attempt` is about one attempt. The two invariants give what it asks of
the row, which may have changed since the attempt loaded it: the last success never moves back,
and a flagged row without an error has no attempt ahead of it that does not know of the flag. A
later write takes an error away only with a success, which is recent. -/
theorem never_green (h : (workerSystem S fdiv).Reachable s) {env : SyncEnv} {recorded : Bool}
    (hf : f ∈ (s.pass job).flights) (hstage : f.stage = .ended env recorded)
    (hcompleted : f.Completed S) (hfail : ¬ RecordsSuccess S f.account env) :
    ∃ row, getById s.table f.account.id = some row ∧
      (Stuck S env.now row.lastSyncedAt → row.lastSyncError ≠ none) := by
  obtain ⟨row, hrow, hinv⟩ := (WorkerInv.of_reachable h).1.flight job f hf
  rw [FlightInv, hstage] at hinv
  exact ⟨row, hrow, hinv.2 hcompleted hfail⟩

end Invariants

/-! ## A mailbox that was never synced -/

/-- The server refuses the connection. -/
def refusedConnection : SyncEnv where
  fetch := .error
    { typeName := "ConnectionRefusedError".toList
      text := "[Errno 111] Connection refused".toList
      classes := [.connectionError, .osError]
      errno := some 111 }

/-- One cycle over the mailbox. -/
def oneCycle : List WorkerLabel := [.syncCycle, .attempt .syncCycle 1 refusedConnection]

/-- The refused connection shows. -/
theorem never_green_refusedConnection :
    ∃ s row, (workerSystem .defaults fun p t => p / t).run
        { table := [passwordMailbox], clock := 0 } oneCycle = some s ∧
      getById s.table 1 = some row ∧ row.lastSyncError ≠ none := by
  obtain ⟨s, hrun, hs⟩ : ∃ s, (workerSystem .defaults fun p t => p / t).run
      { table := [passwordMailbox], clock := 0 } oneCycle = some s ∧
      (s.pass .syncCycle).flights = [⟨passwordMailbox, .ended refusedConnection false⟩] ∧
      (getById s.table 1).map MailAccount.lastSyncedAt = some none := ⟨_, rfl, rfl, rfl⟩
  have hreach : (workerSystem .defaults fun p t => p / t).Reachable s := by
    refine System.Reachable.run (.init ⟨by decide, ?_, ?_, rfl⟩) hrun
    · intro a ha hauth
      obtain rfl := List.mem_singleton.mp ha
      cases hauth
    · intro a ha t ht
      obtain rfl := List.mem_singleton.mp ha
      cases ht
  obtain ⟨row, hrow, hshows⟩ := never_green hreach
    (f := ⟨passwordMailbox, .ended refusedConnection false⟩) (hs.1 ▸ List.mem_singleton.mpr rfl) rfl
    (Or.inl rfl) fun ⟨w, hw, hsuccess⟩ => handleSyncError_writes w hw hsuccess
  refine ⟨s, row, hrun, hrow, hshows fun t ht => ?_⟩
  have hnone : some row.lastSyncedAt = some none := by
    rw [← hs.2]
    exact congrArg (Option.map MailAccount.lastSyncedAt) hrow.symm
  rw [Option.some.inj hnone] at ht
  cases ht

end SyncJobs

end MailAggregator
