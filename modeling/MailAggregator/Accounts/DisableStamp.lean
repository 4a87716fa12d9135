import MailAggregator.Accounts.UniqueAddress
import MailAggregator.CrmPush.StatusChannel

set_option relaxedAutoImplicit false
set_option autoImplicit false

/-!
# The stamp of an automatic disable

A disabled mailbox carries a stamp, and the disable leaves a row with a stamp alone. A stamp that is
left over on an active mailbox would keep it from being disabled; every write that activates a
mailbox clears it.

## Main definitions

* `MailAggregator.CrmStatus.StatusWrite.Activates` — a write sets `is_active` to true.
* `MailAggregator.DisableStamp.accountSystem` — all writers of `mail_accounts`.
* `MailAggregator.DisableStamp.Activates`, `DisableStamp.disables` — the steps that set `is_active`
  to true, and those where the disable returns true.

## Main results

* `MailAggregator.CrmStatus.StatusWrite.apply_of_activates`, `StatusWrite.apply_of_not_activates`
  — what a write does to the flag and to the stamp.
* `MailAggregator.DisableStamp.active_without_stamp` — active mailboxes carry no stamp.

## Design

The writes of one row are those of the status channel. A write that the database would refuse has a
step as well, and an update may write over a row that has changed since it was read.
-/

namespace MailAggregator

open PyText MailAccountsRepo MailAccountService Transition CrmStatus

/-! ## The flag and the stamp of a row -/

namespace CrmStatus

/-- An `UPDATE` of the write sets `is_active` to true. -/
def StatusWrite.Activates : StatusWrite → Prop
  | .patch _ payload acc =>
    (payload.HasAccountFields ∧ acc.authType = .password ∧ CredsChanged (.ofExternal payload)) ∨
      (payload.setIsActive = true ∧ payload.isActive.getD false = true)
  | _ => False

section Row

variable {payload : MailAccountUpdateRequest} {acc a : MailAccount} {now : Instant}

/-- The fields of an update leave the flag and the stamp alone. -/
theorem fieldWrites_flags :
    (fieldWrites payload acc now a).isActive = a.isActive ∧
      (fieldWrites payload acc now a).disabledAlertSentAt = a.disabledAlertSentAt := by
  rw [fieldWrites]
  cases hauth : acc.authType with
  | password => exact ⟨rfl, rfl⟩
  | oauthOutlook =>
    rcases accountWrites_oauth payload hauth now a with hsame | ⟨displayName, -, hnamed⟩
    · rw [hsame]
      exact ⟨rfl, rfl⟩
    · rw [hnamed]
      exact ⟨rfl, rfl⟩

theorem setActive_true_stamp : (setActive true now a).disabledAlertSentAt = none := rfl

/-- A deactivation leaves the stamp alone. -/
theorem setActive_false_flags :
    (setActive false now a).isActive = false ∧
      (setActive false now a).disabledAlertSentAt = a.disabledAlertSentAt :=
  ⟨rfl, rfl⟩

end Row

/-- The row of an update before the switch. -/
theorem accountFields_flags (env : ExternalMailboxService.Env)
    (payload : ExternalMailboxUpdateRequest) (acc a : MailAccount) :
    let a' := if payload.HasAccountFields then accountWrites (.ofExternal payload) acc env.now a
      else a
    if payload.HasAccountFields ∧ acc.authType = .password ∧ CredsChanged (.ofExternal payload) then
      a'.disabledAlertSentAt = none
    else a'.isActive = a.isActive ∧ a'.disabledAlertSentAt = a.disabledAlertSentAt := by
  by_cases hhas : payload.HasAccountFields
  · simp only [hhas, if_true, true_and, accountWrites_eq]
    split_ifs
    · exact setActive_true_stamp
    · exact fieldWrites_flags
  · simp [hhas]

/-- **A write that activates** clears the stamp. -/
theorem StatusWrite.apply_of_activates {w : StatusWrite} (h : w.Activates) (now : Instant)
    (a : MailAccount) : (w.apply now a).disabledAlertSentAt = none := by
  cases w with
  | patch env payload acc =>
    have hfields := accountFields_flags env payload acc a
    simp only [StatusWrite.apply, ExternalMailboxService.rowWrites]
    by_cases hswitch : payload.setIsActive = true
    · rw [if_pos hswitch]
      cases hactive : payload.isActive.getD false with
      | true => exact setActive_true_stamp
      | false =>
        rw [setActive_false_flags.2]
        rcases h with hcreds | ⟨-, htrue⟩
        · simpa only [if_pos hcreds] using hfields
        · rw [hactive] at htrue
          cases htrue
    · rw [if_neg hswitch]
      rcases h with hcreds | ⟨hset, -⟩
      · simpa only [if_pos hcreds] using hfields
      · exact absurd hset hswitch
  | _ => exact h.elim

/-- **A write that does not activate** leaves the stamp alone, unless it is the disable, and an
active row has been active before.

**Proof sketch.** By cases on the write. The worker writes errors, tokens, marks and counts, and an
update that does not activate writes settings and may clear the flag. None of them writes the stamp,
and the flag can only be cleared. -/
theorem StatusWrite.apply_of_not_activates {w : StatusWrite} (h : ¬ w.Activates)
    (hdisable : w ≠ .disableAfterFailures) (now : Instant) (a : MailAccount) :
    (w.apply now a).disabledAlertSentAt = a.disabledAlertSentAt ∧
      ((w.apply now a).isActive = true → a.isActive = true) := by
  cases w with
  | disableAfterFailures => exact absurd rfl hdisable
  | relink tokens refreshToken => exact ⟨rfl, id⟩
  | recordFailure error disable =>
    refine ⟨rfl, fun hactive => ?_⟩
    simp only [StatusWrite.apply, markSyncFailure] at hactive
    split_ifs at hactive
    exact hactive
  | sync w =>
    cases w with
    | needsConsentError =>
      simp only [StatusWrite.apply, SyncCycle.RowWrite.apply, markOauthNeedsConsentError]
      split_ifs <;> exact ⟨rfl, id⟩
    | syncSuccess uidnext uidvalidity => exact ⟨rfl, id⟩
    | transientError error => exact ⟨rfl, id⟩
    | needsConsent => exact ⟨rfl, id⟩
    | oauthTokens values => exact ⟨rfl, id⟩
  | patch env payload acc =>
    simp only [StatusWrite.Activates, not_or] at h
    have hfields := accountFields_flags env payload acc a
    simp only [if_neg h.1] at hfields
    simp only [StatusWrite.apply, ExternalMailboxService.rowWrites]
    by_cases hswitch : payload.setIsActive = true
    · have hactive : payload.isActive.getD false = false := by
        simpa [hswitch] using h.2
      rw [if_pos hswitch, hactive]
      refine ⟨setActive_false_flags.2.trans hfields.2, fun htrue => ?_⟩
      rw [setActive_false_flags.1] at htrue
      cases htrue
    · rw [if_neg hswitch]
      exact ⟨hfields.2, fun htrue => hfields.1 ▸ htrue⟩

end CrmStatus

namespace DisableStamp

/-! ## The writers of the table -/

/-- The table, and the sequence of its ids. -/
structure AccountState where
  accounts : List MailAccount
  nextAccountId : ℕ

/-- The committed writes. -/
inductive AccountLabel where
  | create (userId : ℕ) (r : MailAccountTestRequest) (displayName : Option Text) (now : Instant)
  | link (userId : ℕ) (email : Text) (tokens : TokenResponse) (refreshToken : Text) (now : Instant)
  /-- A write of the row of an account. -/
  | write (accountId : ℕ) (now : Instant) (w : StatusWrite)
  | delete (accountId : ℕ)

/-- An insert takes the next id, also where it is refused. -/
def insertRow (s : AccountState) (a : MailAccount) : AccountState where
  accounts :=
    match insertWithId s.accounts a with
    | .error _ => s.accounts
    | .ok accounts => accounts
  nextAccountId := s.nextAccountId + 1

/-- All writers of `mail_accounts`, from an empty table. -/
def accountSystem : System AccountState AccountLabel where
  init s := s.accounts = []
  next s
    | .create userId r displayName now =>
      some (insertRow s (createdRow s.nextAccountId userId r displayName now))
    | .link userId email tokens refreshToken now =>
      some (insertRow s
        (OutlookOAuthService.linkedRow s.nextAccountId userId email tokens refreshToken now))
    | .write accountId now w =>
      some { s with accounts := updateWhereId s.accounts accountId (w.apply now) }
    | .delete accountId => some { s with accounts := s.accounts.filter fun a => a.id ≠ accountId }

/-- A step sets `is_active` of an account to true. -/
def Activates (accountId : ℕ) (s : AccountState) : AccountLabel → Prop
  | .create .. | .link .. => accountId = s.nextAccountId
  | .write i _ w => i = accountId ∧ w.Activates
  | .delete _ => False

/-- A step is a `disable_and_stamp_alert` of an account that returns true. -/
def disables (accountId : ℕ) (s : AccountState) : AccountLabel → Bool
  | .write i _ .disableAfterFailures =>
    i = accountId && disableAndStampAlertReturns s.accounts accountId
  | _ => false

/-! ## The invariant -/

/-- An active row carries no stamp. -/
def StampFree (a : MailAccount) : Prop := a.isActive = true → a.disabledAlertSentAt = none

/-- The ids are those that the sequence has given out, and active rows carry no stamp. -/
structure StampInv (s : AccountState) : Prop where
  nodup : (s.accounts.map MailAccount.id).Nodup
  fresh : ∀ a ∈ s.accounts, a.id < s.nextAccountId
  stampFree : ∀ a ∈ s.accounts, StampFree a

/-- Every write keeps active rows free of a stamp. -/
theorem StampFree.apply {a : MailAccount} (h : StampFree a) (w : StatusWrite) (now : Instant) :
    StampFree (w.apply now a) := by
  intro hactive
  by_cases hactivates : w.Activates
  · exact StatusWrite.apply_of_activates hactivates now a
  · by_cases hdisable : w = .disableAfterFailures
    · subst hdisable
      simp only [StatusWrite.apply] at hactive ⊢
      by_cases hstamp : a.disabledAlertSentAt = none
      · rw [disableAndStampAlert_isActive hstamp] at hactive
        cases hactive
      · rw [disableAndStampAlert, if_neg hstamp] at hactive ⊢
        exact h hactive
    · obtain ⟨hstamp, hback⟩ := StatusWrite.apply_of_not_activates hactivates hdisable now a
      rw [hstamp]
      exact h (hback hactive)

section Step

variable {s s' : AccountState}

/-- The rows after an insert, and the id that it has taken. -/
theorem insertRow_accounts (s : AccountState) (a : MailAccount) :
    (insertRow s a).accounts = s.accounts ∨ (insertRow s a).accounts = s.accounts ++ [a] := by
  unfold insertRow insertWithId
  split_ifs
  · exact Or.inl rfl
  · exact Or.inr rfl
  · exact Or.inl rfl

theorem StampInv.insert (hinv : StampInv s) {a : MailAccount} (hid : a.id = s.nextAccountId)
    (hfree : StampFree a) : StampInv (insertRow s a) := by
  rcases insertRow_accounts s a with hrows | hrows
  · exact ⟨by rw [hrows]; exact hinv.nodup,
      fun b hb => Nat.lt_succ_of_lt (hinv.fresh b (hrows ▸ hb)),
      fun b hb => hinv.stampFree b (hrows ▸ hb)⟩
  · refine ⟨?_, ?_, ?_⟩
    · rw [hrows]
      exact nodup_map_id_insert hinv.nodup hinv.fresh hid
    · rw [hrows]
      exact id_lt_of_mem_insert hinv.fresh hid
    · intro b hb
      rw [hrows] at hb
      rcases List.mem_append.mp hb with hb | hb
      · exact hinv.stampFree b hb
      · obtain rfl := List.mem_singleton.mp hb
        exact hfree

/-- Every step keeps the invariant.

**Proof sketch.** A new row is active and has no stamp. A write that activates clears the stamp, the
disabling update writes the stamp and clears the flag, and every other write leaves the stamp alone
and activates nothing. A deletion takes rows away. -/
theorem StampInv.next (hinv : StampInv s) {label : AccountLabel}
    (h : accountSystem.next s label = some s') : StampInv s' := by
  cases label with
  | create userId r displayName now =>
    obtain rfl := Option.some.inj h
    exact hinv.insert rfl fun _ => rfl
  | link userId email tokens refreshToken now =>
    obtain rfl := Option.some.inj h
    exact hinv.insert rfl fun _ => rfl
  | write accountId now w =>
    obtain rfl := Option.some.inj h
    refine ⟨?_, ?_, ?_⟩
    · rw [map_id_updateWhereId (w.apply_id now)]
      exact hinv.nodup
    · intro b hb
      obtain ⟨a, ha, rfl⟩ := List.mem_map.mp hb
      split_ifs
      · rw [w.apply_id now]
        exact hinv.fresh a ha
      · exact hinv.fresh a ha
    · intro b hb
      obtain ⟨a, ha, rfl⟩ := List.mem_map.mp hb
      split_ifs
      · exact (hinv.stampFree a ha).apply w now
      · exact hinv.stampFree a ha
  | delete accountId =>
    obtain rfl := Option.some.inj h
    exact ⟨hinv.nodup.sublist (List.filter_sublist.map MailAccount.id),
      fun a ha => hinv.fresh a (List.mem_of_mem_filter ha),
      fun a ha => hinv.stampFree a (List.mem_of_mem_filter ha)⟩

/-! ## The stamp stays -/

/-- An account has been stamped: its id is taken, and its row, if it is still there, carries a
stamp. -/
structure Stamped (accountId : ℕ) (s : AccountState) : Prop where
  taken : accountId < s.nextAccountId
  stamp : ∀ a ∈ s.accounts, a.id = accountId → a.disabledAlertSentAt ≠ none

variable {accountId : ℕ}

/-- A disable of a stamped account returns false. -/
theorem Stamped.disables_eq_false (h : Stamped accountId s) (label : AccountLabel) :
    disables accountId s label = false := by
  have hreturns : disableAndStampAlertReturns s.accounts accountId = false := by
    unfold disableAndStampAlertReturns
    cases hget : getById s.accounts accountId with
    | none => rfl
    | some a =>
      have hmem : a ∈ s.accounts := mem_of_getById hget
      simpa using h.stamp a hmem (id_of_getById hget)
  cases label with
  | write i now w => cases w <;> simp [disables, hreturns]
  | _ => rfl

theorem Stamped.insert (h : Stamped accountId s) {a : MailAccount} (hid : a.id = s.nextAccountId) :
    Stamped accountId (insertRow s a) := by
  refine ⟨Nat.lt_succ_of_lt h.taken, fun b hb hb' => ?_⟩
  rcases insertRow_accounts s a with hrows | hrows
  · exact h.stamp b (hrows ▸ hb) hb'
  · rw [hrows] at hb
    rcases List.mem_append.mp hb with hb | hb
    · exact h.stamp b hb hb'
    · obtain rfl := List.mem_singleton.mp hb
      have hlt := h.taken
      omega

/-- A write that does not activate keeps a stamp. -/
theorem stamp_apply {w : StatusWrite} (h : ¬ w.Activates) (now : Instant) {a : MailAccount}
    (ha : a.disabledAlertSentAt ≠ none) : (w.apply now a).disabledAlertSentAt ≠ none := by
  by_cases hdisable : w = .disableAfterFailures
  · subst hdisable
    rw [StatusWrite.apply, disableAndStampAlert, if_neg ha]
    exact ha
  · rw [(StatusWrite.apply_of_not_activates h hdisable now a).1]
    exact ha

/-- **A step that does not activate the account** keeps it stamped. -/
theorem Stamped.next (h : Stamped accountId s) {label : AccountLabel}
    (hactivates : ¬ Activates accountId s label) (hn : accountSystem.next s label = some s') :
    Stamped accountId s' := by
  cases label with
  | create userId r displayName now =>
    obtain rfl := Option.some.inj hn
    exact h.insert rfl
  | link userId email tokens refreshToken now =>
    obtain rfl := Option.some.inj hn
    exact h.insert rfl
  | write i now w =>
    obtain rfl := Option.some.inj hn
    refine ⟨h.taken, fun b hb hb' => ?_⟩
    obtain ⟨a, ha, rfl⟩ := List.mem_map.mp hb
    split_ifs at hb' ⊢ with hid
    · rw [w.apply_id now] at hb'
      exact stamp_apply (fun hw => hactivates ⟨hid.symm.trans hb', hw⟩) now (h.stamp a ha hb')
    · exact h.stamp a ha hb'
  | delete i =>
    obtain rfl := Option.some.inj hn
    exact ⟨h.taken, fun a ha => h.stamp a (List.mem_of_mem_filter ha)⟩

/-- **A disable that returns true** stamps the account.

**Proof sketch.** Only the disabling update returns true, and it does so where it has written: the
row of the account carries no stamp before and carries one afterwards. All rows with the id of the
account are this row. -/
theorem stamped_of_disables (hinv : StampInv s) {label : AccountLabel}
    (hdisables : disables accountId s label = true) (hn : accountSystem.next s label = some s') :
    Stamped accountId s' := by
  cases label with
  | write i now w =>
    cases w with
    | disableAfterFailures =>
      simp only [disables, Bool.and_eq_true, decide_eq_true_eq] at hdisables
      obtain ⟨rfl, hreturns⟩ := hdisables
      obtain rfl := Option.some.inj hn
      unfold disableAndStampAlertReturns at hreturns
      cases hget : getById s.accounts i with
      | none =>
        rw [hget] at hreturns
        cases hreturns
      | some a =>
        have hmem : a ∈ s.accounts := mem_of_getById hget
        have hid : a.id = i := id_of_getById hget
        refine ⟨hid ▸ hinv.fresh a hmem, fun b hb hb' => ?_⟩
        obtain ⟨c, hc, rfl⟩ := List.mem_map.mp hb
        split_ifs at hb' ⊢ with hci
        · simp only [StatusWrite.apply, disableAndStampAlert]
          split_ifs with hstamp
          · simp
          · exact hstamp
        · exact absurd hb' hci
    | _ => cases hdisables
  | _ => cases hdisables

end Step

/-! ## The claim of the stamp -/

/-- **Active mailboxes carry no stamp.** In every reachable state an active row has no stamp, so
that a disable of it returns true and deactivates it; and a disable of an account returns true at
most once in a run that does not set its `is_active` to true.

**Proof sketch.** A write that sets `is_active` to true clears the stamp; the disable writes a stamp
together with `is_active = false`; every other write leaves the stamp alone, and makes no row
active. The disable stamps the row that it hits, and only a write that activates the account would
clear the stamp again. Ids are not given out twice, so that a deleted account does not come back. -/
theorem active_without_stamp {s : AccountState} (h : accountSystem.Reachable s) :
    (∀ a ∈ s.accounts, a.isActive = true → a.disabledAlertSentAt = none) ∧
    (∀ a ∈ s.accounts, a.isActive = true → disableAndStampAlertReturns s.accounts a.id = true ∧
      ∀ now, ∀ b ∈ getById (updateWhereId s.accounts a.id (disableAndStampAlert now)) a.id,
        b.isActive = false) ∧
    ∀ (accountId : ℕ) (labels : List AccountLabel) (t : AccountState),
      accountSystem.run s labels = some t →
      accountSystem.Meets (fun s label => ¬ Activates accountId s label) s labels →
      accountSystem.countSteps (disables accountId) s labels ≤ 1 := by
  have hinv : StampInv s := by
    refine System.ReachableWhen.invariant (fun s hs => ?_)
      (fun s label s' hinv _ hn => hinv.next hn) h
    have hempty : s.accounts = [] := hs
    exact ⟨by simp [hempty], by simp [hempty], by simp [hempty]⟩
  refine ⟨hinv.stampFree, ?_, ?_⟩
  · intro a ha hactive
    have hstamp := hinv.stampFree a ha hactive
    have hget := getById_of_mem hinv.nodup ha
    refine ⟨by simp [disableAndStampAlertReturns, hget, hstamp], fun now b hb => ?_⟩
    rw [getById_updateWhereId (disableAndStampAlert_id now), hget] at hb
    obtain rfl : disableAndStampAlert now a = b := by simpa using hb
    exact disableAndStampAlert_isActive hstamp
  · intro accountId labels t hrun hmeets
    exact System.countSteps_le_one (I := StampInv) (Q := Stamped accountId)
      (fun s label s' hinv hn => hinv.next hn)
      (fun s label s' hinv hdisables hn => stamped_of_disables hinv hdisables hn)
      (fun s label s' hstamped hquiet hn => hstamped.next hquiet hn)
      (fun s label hstamped => hstamped.disables_eq_false label) hinv hmeets hrun

/-- The state after a first create. -/
def firstCreated : AccountState where
  accounts := [createdRow 1 1 (Addresses.loginRequest "a@example.com".toList) none 0]
  nextAccountId := 2

/-- A disable of a new mailbox returns true once. -/
theorem active_without_stamp_first :
    disableAndStampAlertReturns firstCreated.accounts 1 = true ∧
      accountSystem.countSteps (disables 1) firstCreated
        [.write 1 0 .disableAfterFailures, .write 1 0 .disableAfterFailures] ≤ 1 := by
  have hstart : accountSystem.Reachable ⟨[], 1⟩ := .init rfl
  have hrun : accountSystem.run ⟨[], 1⟩
      [.create 1 (Addresses.loginRequest "a@example.com".toList) none 0] = some firstCreated := rfl
  have hfirst : accountSystem.Reachable firstCreated := hstart.run hrun
  obtain ⟨-, hdisable, honce⟩ := active_without_stamp hfirst
  refine ⟨(hdisable _ (List.mem_singleton.mpr rfl) rfl).1, honce 1 _ _ rfl ?_⟩
  exact ⟨fun h => h.2, fun s _ => ⟨fun h => h.2, fun s' _ => trivial⟩⟩

end DisableStamp

end MailAggregator
