import Mathlib.Data.Int.ConditionallyCompleteOrder
import Mathlib.Data.List.Nodup
import Mathlib.Data.List.Sort
import Mathlib.Data.Prod.Lex
import Mathlib.Order.WithBot
import Mathlib.Tactic.Common
import MailAggregator.Shared.Models

set_option relaxedAutoImplicit false
set_option autoImplicit false

/-!
# The repository of `mail_accounts`

The queries and updates of `MailAccountsRepo` over a table of rows. An update is an
`UPDATE … WHERE id = :id`, so each one is a function on the row it hits, applied to a table by
`updateWhereId`.

## Main definitions

* `MailAggregator.MailAccountsRepo.listCanonicalAccountIds` — one account for each address.
* `MailAggregator.MailAccountsRepo.listActive`, `MailAccountsRepo.listActiveByIds`.
* `MailAggregator.MailAccountsRepo.markSyncSuccess`, `markSyncFailure`, `markTransientError`,
  `disableAndStampAlert` — the bookkeeping of a sync attempt.
* `MailAggregator.MailAccountsRepo.updateOauthTokens`, `markOauthNeedsConsent` — the state of an
  OAuth account.

## Main results

* `MailAggregator.MailAccountsRepo.getById_updateWhereId` — an update changes no other row.
-/

namespace MailAggregator

open PyText

namespace MailAccountsRepo

/-- `OAUTH_NEEDS_CONSENT_SYNC_ERROR`. -/
def oauthNeedsConsentSyncError : Text :=
  "oauth_needs_consent: требуется переподключение Outlook".toList

/-! ## Reads -/

/-- `get_by_id`. -/
def getById (accounts : List MailAccount) (accountId : ℕ) : Option MailAccount :=
  accounts.find? fun a => a.id = accountId

/-- `list_canonical_account_ids`: `SELECT min(id) … GROUP BY lower(email)`, where `lower` is the
database's. -/
def listCanonicalAccountIds (lower : Text → Text) (accounts : List MailAccount) : List ℕ :=
  (accounts.filter fun a => ∀ b ∈ accounts, lower b.email = lower a.email → a.id ≤ b.id).map
    MailAccount.id

/-- The order of `list_active`: `last_synced_at ASC NULLS FIRST, id`. -/
def syncOrder (a : MailAccount) : WithBot Instant ×ₗ ℕ := toLex (a.lastSyncedAt, a.id)

/-- `list_active`. -/
def listActive (accounts : List MailAccount) : List MailAccount :=
  (accounts.filter fun a => a.isActive).insertionSort fun a b => syncOrder a ≤ syncOrder b

/-- `list_active_by_ids`. -/
def listActiveByIds (accounts : List MailAccount) (accountIds : List ℕ) : List MailAccount :=
  (accounts.filter fun a => a.isActive ∧ a.id ∈ accountIds).insertionSort fun a b => a.id ≤ b.id

/-! ## Updates -/

/-- `UPDATE mail_accounts SET … WHERE id = :account_id`. -/
def updateWhereId (accounts : List MailAccount) (accountId : ℕ)
    (set : MailAccount → MailAccount) : List MailAccount :=
  accounts.map fun a => if a.id = accountId then set a else a

/-- `mark_sync_success`. -/
def markSyncSuccess (lastSyncedUidnext lastUidvalidity : Option ℕ) (now : Instant)
    (a : MailAccount) : MailAccount :=
  { a with
    lastSyncedUidnext, lastUidvalidity
    lastSyncedAt := some now
    lastSyncError := none
    consecutiveFailures := 0
    updatedAt := now }

/-- `mark_transient_error`: only `last_sync_error` is written. -/
def markTransientError (error : Text) (now : Instant) (a : MailAccount) : MailAccount :=
  { a with lastSyncError := some (error.take 500), updatedAt := now }

/-- `mark_sync_failure`: count a failure, and disable the account if asked to. -/
def markSyncFailure (error : Text) (disable : Bool) (now : Instant) (a : MailAccount) :
    MailAccount :=
  { a with
    consecutiveFailures := a.consecutiveFailures + 1
    lastSyncError := some (error.take 500)
    updatedAt := now
    isActive := if disable then false else a.isActive }

/-- `disable_and_stamp_alert`: a guarded update, which leaves a row with a stamp alone. -/
def disableAndStampAlert (now : Instant) (a : MailAccount) : MailAccount :=
  if a.disabledAlertSentAt = none then
    { a with isActive := false, disabledAlertSentAt := some now, updatedAt := now }
  else a

/-- What `disable_and_stamp_alert` returns: whether it has found a row without a stamp. -/
def disableAndStampAlertReturns (accounts : List MailAccount) (accountId : ℕ) : Bool :=
  match getById accounts accountId with
  | none => false
  | some a => a.disabledAlertSentAt = none

/-- `mark_oauth_needs_consent`. -/
def markOauthNeedsConsent (now : Instant) (a : MailAccount) : MailAccount :=
  { a with
    oauthNeedsConsent := true
    lastSyncError := some oauthNeedsConsentSyncError
    updatedAt := now }

/-- `mark_oauth_needs_consent_error`: a guarded update, which leaves a row that already carries
the marker alone. -/
def markOauthNeedsConsentError (now : Instant) (a : MailAccount) : MailAccount :=
  if a.lastSyncError = some oauthNeedsConsentSyncError then a
  else { a with lastSyncError := some oauthNeedsConsentSyncError, updatedAt := now }

/-- The arguments of `update_oauth_tokens`; a missing one is not written. -/
structure OauthTokenValues where
  oauthRefreshTokenEncrypted : Option Blob := none
  oauthAccessTokenEncrypted : Option Blob := none
  oauthAccessTokenExpiresAt : Option Instant := none
  oauthScopes : Option Text := none
  oauthNeedsConsent : Option Bool := none
  deriving DecidableEq, Repr

/-- `update_oauth_tokens`: write the arguments that are given. -/
def updateOauthTokens (v : OauthTokenValues) (now : Instant) (a : MailAccount) : MailAccount :=
  { a with
    updatedAt := now
    oauthRefreshTokenEncrypted :=
      v.oauthRefreshTokenEncrypted <|> a.oauthRefreshTokenEncrypted
    oauthAccessTokenEncrypted := v.oauthAccessTokenEncrypted <|> a.oauthAccessTokenEncrypted
    oauthAccessTokenExpiresAt := v.oauthAccessTokenExpiresAt <|> a.oauthAccessTokenExpiresAt
    oauthScopes := v.oauthScopes <|> a.oauthScopes
    oauthNeedsConsent := v.oauthNeedsConsent.getD a.oauthNeedsConsent }

/-! ## The rows an update hits -/

/-- An update that keeps ids changes the row it is for and no other. -/
theorem getById_updateWhereId {accounts : List MailAccount} {accountId : ℕ}
    {set : MailAccount → MailAccount} (hid : ∀ a, (set a).id = a.id) (i : ℕ) :
    getById (updateWhereId accounts accountId set) i =
      (getById accounts i).map fun a => if i = accountId then set a else a := by
  induction accounts with
  | nil => rfl
  | cons b accounts ih =>
    simp only [getById, updateWhereId, List.map_cons, List.find?_cons] at ih ⊢
    by_cases hb : b.id = i
    · by_cases hacc : b.id = accountId
      · have hi : i = accountId := hb ▸ hacc
        simp [hacc, hid, hi]
      · have hi : i ≠ accountId := hb ▸ hacc
        simp [hb, hi]
    · by_cases hacc : b.id = accountId
      · have hne : accountId ≠ i := hacc ▸ hb
        simp [hacc, hid, hne, ih]
      · simp [hacc, hb, ih]

/-- An update that keeps ids keeps the ids of the table. -/
theorem map_id_updateWhereId {accounts : List MailAccount} {accountId : ℕ}
    {set : MailAccount → MailAccount} (hid : ∀ a, (set a).id = a.id) :
    (updateWhereId accounts accountId set).map MailAccount.id = accounts.map MailAccount.id := by
  rw [updateWhereId, List.map_map]
  refine List.map_congr_left fun a _ => ?_
  simp only [Function.comp]
  split_ifs
  · exact hid a
  · rfl

@[simp] theorem disableAndStampAlert_id (now : Instant) (a : MailAccount) :
    (disableAndStampAlert now a).id = a.id := by
  unfold disableAndStampAlert
  split_ifs <;> rfl

@[simp] theorem disableAndStampAlert_consecutiveFailures (now : Instant) (a : MailAccount) :
    (disableAndStampAlert now a).consecutiveFailures = a.consecutiveFailures := by
  unfold disableAndStampAlert
  split_ifs <;> rfl

/-- The guarded update disables a row that carries no stamp. -/
theorem disableAndStampAlert_isActive {now : Instant} {a : MailAccount}
    (h : a.disabledAlertSentAt = none) : (disableAndStampAlert now a).isActive = false := by
  rw [disableAndStampAlert, if_pos h]

/-- The row an id selects has that id. -/
theorem id_of_getById {accounts : List MailAccount} {i : ℕ} {a : MailAccount}
    (h : getById accounts i = some a) : a.id = i := by
  simpa using List.find?_some h

theorem mem_of_getById {accounts : List MailAccount} {i : ℕ} {a : MailAccount}
    (h : getById accounts i = some a) : a ∈ accounts :=
  List.mem_of_find?_eq_some h

/-- In a table with distinct ids, a row is the one its id selects. -/
theorem getById_of_mem {accounts : List MailAccount} (hn : (accounts.map MailAccount.id).Nodup)
    {a : MailAccount} (ha : a ∈ accounts) : getById accounts a.id = some a := by
  induction accounts with
  | nil => cases ha
  | cons b accounts ih =>
    rw [List.map_cons, List.nodup_cons] at hn
    rw [getById, List.find?_cons]
    rcases List.mem_cons.mp ha with rfl | ha
    · simp
    · have hne : b.id ≠ a.id := fun h => hn.1 (h ▸ List.mem_map_of_mem ha)
      simp only [hne, decide_false]
      exact ih hn.2 ha

/-- Updates that agree on the rows they hit have the same result. -/
theorem updateWhereId_congr {accounts : List MailAccount} {accountId : ℕ}
    {f g : MailAccount → MailAccount} (h : ∀ a ∈ accounts, a.id = accountId → f a = g a) :
    updateWhereId accounts accountId f = updateWhereId accounts accountId g := by
  refine List.map_congr_left fun a ha => ?_
  split_ifs with hid
  · exact h a ha hid
  · rfl

/-- Two updates of the same row are one. -/
theorem updateWhereId_updateWhereId {accounts : List MailAccount} {accountId : ℕ}
    {f : MailAccount → MailAccount} (hf : ∀ a, (f a).id = a.id) (g : MailAccount → MailAccount) :
    updateWhereId (updateWhereId accounts accountId f) accountId g =
      updateWhereId accounts accountId fun a => g (f a) := by
  rw [updateWhereId, updateWhereId, updateWhereId, List.map_map]
  refine List.map_congr_left fun a _ => ?_
  by_cases hid : a.id = accountId
  · simp [hid, hf]
  · simp [hid]

/-- The rows of a table after an update of one of them. -/
theorem mem_updateWhereId {accounts : List MailAccount} {a : MailAccount}
    (set : MailAccount → MailAccount) (hn : (accounts.map MailAccount.id).Nodup)
    (ha : a ∈ accounts) (x : MailAccount) :
    x ∈ updateWhereId accounts a.id set ↔ x = set a ∨ x ∈ accounts ∧ x.id ≠ a.id := by
  rw [updateWhereId, List.mem_map]
  constructor
  · rintro ⟨b, hb, rfl⟩
    by_cases hid : b.id = a.id
    · obtain rfl := List.inj_on_of_nodup_map hn hb ha hid
      exact Or.inl (if_pos rfl)
    · rw [if_neg hid]
      exact Or.inr ⟨hb, hid⟩
  · rintro (rfl | ⟨hx, hid⟩)
    · exact ⟨a, ha, if_pos rfl⟩
    · exact ⟨x, hx, if_neg hid⟩

/-! ## A new row -/

section Insert

variable {accounts : List MailAccount} {nextId : ℕ} {a : MailAccount}

/-- A row with the next id keeps the ids apart. -/
theorem nodup_map_id_insert (hn : (accounts.map MailAccount.id).Nodup)
    (hfresh : ∀ b ∈ accounts, b.id < nextId) (hid : a.id = nextId) :
    ((accounts ++ [a]).map MailAccount.id).Nodup := by
  rw [List.map_append, List.nodup_append]
  refine ⟨hn, List.nodup_singleton _, fun i hi j hj => ?_⟩
  obtain ⟨b, hb, rfl⟩ := List.mem_map.mp hi
  obtain rfl := List.mem_singleton.mp hj
  have hlt := hfresh b hb
  omega

theorem id_lt_of_mem_insert (hfresh : ∀ b ∈ accounts, b.id < nextId) (hid : a.id = nextId) :
    ∀ b ∈ accounts ++ [a], b.id < nextId + 1 := by
  intro b hb
  rcases List.mem_append.mp hb with hb | hb
  · have hlt := hfresh b hb
    omega
  · obtain rfl := List.mem_singleton.mp hb
    omega

end Insert

/-! ## A sequence of updates of different rows -/

section Sequence

variable {β : Type*} {key : β → ℕ} {f : β → MailAccount → MailAccount}

/-- The table after one update for each element of a list. -/
def updateAll (key : β → ℕ) (f : β → MailAccount → MailAccount) (l : List β)
    (accounts : List MailAccount) : List MailAccount :=
  l.foldl (fun t b => updateWhereId t (key b) (f b)) accounts

/-- A row that no update is for keeps its value. -/
theorem getById_updateAll_of_not_mem (hf : ∀ b a, (f b a).id = a.id) {l : List β} {i : ℕ}
    (hi : i ∉ l.map key) (accounts : List MailAccount) :
    getById (updateAll key f l accounts) i = getById accounts i := by
  induction l generalizing accounts with
  | nil => rfl
  | cons b l ih =>
    rw [List.map_cons, List.mem_cons, not_or] at hi
    rw [updateAll, List.foldl_cons, ← updateAll, ih hi.2, getById_updateWhereId (hf b)]
    simp [hi.1]

/-- A row that one update is for gets that update, once. -/
theorem getById_updateAll_of_mem (hf : ∀ b a, (f b a).id = a.id) {l : List β}
    (hn : (l.map key).Nodup) {b : β} (hb : b ∈ l) (accounts : List MailAccount) :
    getById (updateAll key f l accounts) (key b) = (getById accounts (key b)).map (f b) := by
  induction l generalizing accounts with
  | nil => cases hb
  | cons c l ih =>
    rw [List.map_cons, List.nodup_cons] at hn
    rw [updateAll, List.foldl_cons, ← updateAll]
    rcases List.mem_cons.mp hb with rfl | hb
    · rw [getById_updateAll_of_not_mem hf hn.1, getById_updateWhereId (hf b)]
      simp
    · have hne : key b ≠ key c := fun h => hn.1 (h ▸ List.mem_map_of_mem hb)
      rw [ih hn.2 hb, getById_updateWhereId (hf c)]
      simp [hne]

/-- A sequence of updates keeps the ids of the table. -/
theorem map_id_updateAll (hf : ∀ b a, (f b a).id = a.id) (l : List β)
    (accounts : List MailAccount) :
    (updateAll key f l accounts).map MailAccount.id = accounts.map MailAccount.id := by
  induction l generalizing accounts with
  | nil => rfl
  | cons b l ih => rw [updateAll, List.foldl_cons, ← updateAll, ih, map_id_updateWhereId (hf b)]

end Sequence

end MailAccountsRepo

end MailAggregator
