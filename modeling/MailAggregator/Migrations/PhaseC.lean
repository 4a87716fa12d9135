import MailAggregator.External.Mailboxes
import MailAggregator.Repositories.Users

set_option relaxedAutoImplicit false
set_option autoImplicit false

/-!
# The migration of the mailboxes to one owner

Phase C of the decommission gives every mailbox to the technical user `crm-service`. An address may
be stored for several owners, so that the mailboxes of one address are merged first: the oldest one
survives, and the messages of the others are deleted with them. An earlier migration has merged
mailboxes in the same way.

## Main definitions

* `MailAggregator.PhaseC.Tables` — the tables, and `MailAggregator.PhaseC.Valid` — the constraints
  of their schema, with ids that come from the sequence.
* `MailAggregator.PhaseC.mergeDuplicates` — the two `DELETE`s of the merge.
* `MailAggregator.PhaseC.repoint` — the `UPDATE` of the owners, row by row.
* `MailAggregator.PhaseC.upgrade` — the data part of the migration.

## Main results

* `MailAggregator.PhaseC.repoint_eq` — with distinct addresses no order of the rows violates the
  unique key of owner and address.
* `MailAggregator.PhaseC.upgrade_valid` — the migration succeeds on every valid database, in
  whatever order the rows are updated.
* `MailAggregator.PhaseC.upgrade_invisible` — it cannot be seen through the external contract.

## Design

A `UPDATE` checks a unique key after each row. The order in which it visits the rows is not
specified, and is a parameter here.
-/

namespace MailAggregator

open PyText MailAccountsRepo

namespace PhaseC

/-- The tables that the migration reads and writes. -/
structure Tables where
  users : List User
  /-- The sequence of `users.id`. -/
  nextUserId : ℕ
  accounts : List MailAccount
  messages : List Message

/-- The tables are as the application and its schema leave them: the primary keys, the unique keys
and the foreign keys hold, and every user has an id that the sequence has drawn. The last one is no
constraint of the schema, but what an id that is never set by hand gives; without it the seed could
draw an id that is taken. -/
structure Valid (t : Tables) : Prop where
  users_pkey : (t.users.map User.id).Nodup
  users_username_key : (t.users.map User.username).Nodup
  users_id_seq : ∀ u ∈ t.users, u.id < t.nextUserId
  mail_accounts_pkey : (t.accounts.map MailAccount.id).Nodup
  mail_accounts_user_email : (t.accounts.map fun a => (a.userId, a.email)).Nodup
  mail_accounts_user_id_fkey : ∀ a ∈ t.accounts, a.userId ∈ t.users.map User.id
  messages_account_id_fkey : ∀ m ∈ t.messages, m.mailAccountId ∈ t.accounts.map MailAccount.id

/-- How the migration fails. -/
inductive MigrationError where
  /-- `RuntimeError`: there is no `crm-service` after the seed. -/
  | crmServiceMissing
  /-- A row violates `uq_mail_accounts_user_email`. -/
  | uniqueViolation
  deriving DecidableEq, Repr

/-- `_SEED_CRM_SERVICE_SQL`. An id is drawn whether or not there is a conflict. -/
def seedCrmService (t : Tables) : Tables :=
  { t with
    users :=
      if crmServiceUsername ∈ t.users.map User.username then t.users
      else t.users ++ [UsersRepo.crmService t.nextUserId]
    nextUserId := t.nextUserId + 1 }

section Merge

variable (lower : Text → Text)

/-- `MIN(id) OVER (PARTITION BY LOWER(email))`. -/
def survivorId (accounts : List MailAccount) (a : MailAccount) : Option ℕ :=
  ((accounts.filter fun b => lower b.email = lower a.email).map MailAccount.id).min?

/-- `SELECT id FROM dupes WHERE id <> survivor_id`. -/
def loserIds (accounts : List MailAccount) : List ℕ :=
  (accounts.filter fun a => survivorId lower accounts a ≠ some a.id).map MailAccount.id

/-- `_MERGE_DELETE_LOSER_MESSAGES_SQL`. -/
def deleteLoserMessages (t : Tables) : Tables :=
  { t with messages := t.messages.filter fun m => m.mailAccountId ∉ loserIds lower t.accounts }

/-- `_MERGE_DELETE_LOSER_ACCOUNTS_SQL`, with the cascade to the messages. -/
def deleteLoserAccounts (t : Tables) : Tables :=
  { t with
    accounts := t.accounts.filter fun a => a.id ∉ loserIds lower t.accounts
    messages := t.messages.filter fun m => m.mailAccountId ∉ loserIds lower t.accounts }

/-- The merge. -/
def mergeDuplicates (t : Tables) : Tables := deleteLoserAccounts lower (deleteLoserMessages lower t)

end Merge

/-- The row of a mailbox after the `UPDATE`. -/
def setOwner (crmId : ℕ) (a : MailAccount) : MailAccount := { a with userId := crmId }

/-- The `UPDATE` of one row, which is checked against the other rows as they are by then. -/
def repointRow (crmId : ℕ) (accounts : List MailAccount) (accountId : ℕ) :
    Except MigrationError (List MailAccount) :=
  match getById accounts accountId with
  | none => .ok accounts
  | some a =>
    if a.userId = crmId then .ok accounts
    else if ∃ b ∈ accounts, b.id ≠ a.id ∧ b.userId = crmId ∧ b.email = a.email then
      .error .uniqueViolation
    else .ok (updateWhereId accounts accountId (setOwner crmId))

/-- `UPDATE mail_accounts SET user_id = :crm_id WHERE user_id <> :crm_id`. -/
def repoint (crmId : ℕ) (order : List ℕ) (accounts : List MailAccount) :
    Except MigrationError (List MailAccount) :=
  order.foldlM (repointRow crmId) accounts

/-- `upgrade`: the seed, the merge and the update. The rows are visited in some order. -/
def upgrade (lower : Text → Text) (order : List ℕ → List ℕ) (t : Tables) :
    Except MigrationError Tables :=
  let t := seedCrmService t
  match UsersRepo.getByUsername t.users crmServiceUsername with
  | none => .error .crmServiceMissing
  | some owner =>
    let t := mergeDuplicates lower t
    match repoint owner.id (order (t.accounts.map MailAccount.id)) t.accounts with
    | .error e => .error e
    | .ok accounts => .ok { t with accounts }

/-! ## The seed -/

section Seed

variable {t : Tables}

/-- After the seed there is an owner. -/
theorem exists_owner (t : Tables) :
    ∃ owner, UsersRepo.getByUsername (seedCrmService t).users crmServiceUsername = some owner := by
  cases hget : UsersRepo.getByUsername (seedCrmService t).users crmServiceUsername with
  | some owner => exact ⟨owner, rfl⟩
  | none =>
    rw [UsersRepo.getByUsername_eq_none, seedCrmService] at hget
    simp only at hget
    split_ifs at hget with hseeded
    · exact absurd hseeded hget
    · rw [List.map_append, List.mem_append, not_or] at hget
      exact absurd (List.mem_singleton.mpr rfl) hget.2

/-- The seed keeps the constraints.

**Proof sketch.** If the user is there, only an id is drawn. Otherwise a row with a new name and the
drawn id is appended, and the drawn id is above all ids of the table. -/
theorem valid_seedCrmService (ht : Valid t) : Valid (seedCrmService t) := by
  have hlt : ∀ u ∈ t.users, u.id < t.nextUserId + 1 := fun u hu =>
    Nat.lt_succ_of_lt (ht.users_id_seq u hu)
  unfold seedCrmService
  by_cases hseeded : crmServiceUsername ∈ t.users.map User.username
  · rw [if_pos hseeded]
    exact { ht with users_id_seq := hlt }
  · rw [if_neg hseeded]
    have hfresh : t.nextUserId ∉ t.users.map User.id := by
      intro hmem
      obtain ⟨u, hu, hid⟩ := List.mem_map.mp hmem
      have hlt := ht.users_id_seq u hu
      omega
    refine { ht with
      users_pkey := ?_, users_username_key := ?_, users_id_seq := ?_,
      mail_accounts_user_id_fkey := ?_ }
    · rw [List.map_append]
      exact ht.users_pkey.append (List.nodup_singleton _)
        (by simpa [UsersRepo.crmService] using hfresh)
    · rw [List.map_append]
      exact ht.users_username_key.append (List.nodup_singleton _)
        (by simpa [UsersRepo.crmService] using hseeded)
    · intro u hu
      rcases List.mem_append.mp hu with hu | hu
      · exact hlt u hu
      · obtain rfl := List.mem_singleton.mp hu
        exact Nat.lt_succ_self _
    · intro a ha
      rw [List.map_append]
      exact List.mem_append_left _ (ht.mail_accounts_user_id_fkey a ha)

end Seed

/-! ## The merge -/

section Merge

open ExternalMessagesService

variable {lower : Text → Text} {accounts : List MailAccount}

/-- The survivor of an address is its canonical account. -/
theorem survivorId_eq_iff {a : MailAccount} (ha : a ∈ accounts) :
    survivorId lower accounts a = some a.id ↔ IsCanonical lower accounts a := by
  rw [survivorId, List.min?_eq_some_iff]
  constructor
  · rintro ⟨-, hmin⟩
    refine ⟨ha, fun b hb hemail => hmin b.id (List.mem_map_of_mem ?_)⟩
    exact List.mem_filter.mpr ⟨hb, by simpa using hemail⟩
  · intro h
    refine ⟨List.mem_map_of_mem (List.mem_filter.mpr ⟨ha, by simp⟩), fun i hi => ?_⟩
    obtain ⟨b, hb, rfl⟩ := List.mem_map.mp hi
    obtain ⟨hb, hemail⟩ := List.mem_filter.mp hb
    exact h.2 b hb (by simpa using hemail)

/-- The losers are the accounts that are not canonical. -/
theorem mem_loserIds_iff (hids : (accounts.map MailAccount.id).Nodup) {a : MailAccount}
    (ha : a ∈ accounts) : a.id ∈ loserIds lower accounts ↔ ¬ IsCanonical lower accounts a := by
  rw [loserIds, List.mem_map, ← survivorId_eq_iff ha]
  constructor
  · rintro ⟨b, hb, hid⟩
    obtain ⟨hb, hloser⟩ := List.mem_filter.mp hb
    obtain rfl := List.inj_on_of_nodup_map hids hb ha hid
    simpa using hloser
  · intro h
    exact ⟨a, List.mem_filter.mpr ⟨ha, by simpa using h⟩, rfl⟩

/-- The accounts that the merge keeps. -/
def survivors (lower : Text → Text) (accounts : List MailAccount) : List MailAccount :=
  accounts.filter fun a => a.id ∉ loserIds lower accounts

theorem mem_survivors (hids : (accounts.map MailAccount.id).Nodup) {a : MailAccount} :
    a ∈ survivors lower accounts ↔ IsCanonical lower accounts a := by
  rw [survivors, List.mem_filter, decide_eq_true_eq]
  constructor
  · rintro ⟨ha, hloser⟩
    rwa [mem_loserIds_iff hids ha, not_not] at hloser
  · intro h
    refine ⟨h.1, ?_⟩
    rw [mem_loserIds_iff hids h.1, not_not]
    exact h

/-- The survivors have the ids that the external contract calls canonical. -/
theorem map_id_survivors (hids : (accounts.map MailAccount.id).Nodup) :
    (survivors lower accounts).map MailAccount.id = listCanonicalAccountIds lower accounts := by
  rw [survivors, listCanonicalAccountIds]
  congr 1
  refine List.filter_congr fun a ha => ?_
  rw [decide_eq_decide, mem_loserIds_iff hids ha, not_not]
  exact ⟨fun h => h.2, fun h => ⟨ha, h⟩⟩

/-- The survivors have different addresses. -/
theorem nodup_lower_survivors (hids : (accounts.map MailAccount.id).Nodup) :
    ((survivors lower accounts).map fun a => lower a.email).Nodup := by
  have hsub : (survivors lower accounts).Nodup :=
    (List.Nodup.of_map _ hids).sublist List.filter_sublist
  refine List.Nodup.map_on (fun a ha b hb h => ?_) hsub
  exact ((mem_survivors hids).mp ha).eq_of_lower_eq hids ((mem_survivors hids).mp hb) h

theorem nodup_email_survivors (hids : (accounts.map MailAccount.id).Nodup) :
    ((survivors lower accounts).map MailAccount.email).Nodup := by
  refine List.Nodup.of_map lower ?_
  rw [List.map_map]
  exact nodup_lower_survivors hids

end Merge

/-! ## The update of the owners -/

section Repoint

variable {accounts : List MailAccount} {crmId : ℕ}

/-- An update that does nothing to the rows it hits does nothing. -/
theorem updateWhereId_eq_self {accountId : ℕ} {set : MailAccount → MailAccount}
    (h : ∀ a ∈ accounts, a.id = accountId → set a = a) :
    updateWhereId accounts accountId set = accounts := by
  refine (List.map_congr_left fun a ha => ?_).trans (List.map_id _)
  split_ifs with hid
  · exact h a ha hid
  · rfl

/-- A row that shares its address with no other is updated.

**Proof sketch.** The update gives the row another owner. It violates the unique key only if another
row of that owner has the address, and there is no other row with that address at all. -/
theorem repointRow_eq (hids : (accounts.map MailAccount.id).Nodup)
    (hemails : (accounts.map MailAccount.email).Nodup) (accountId : ℕ) :
    repointRow crmId accounts accountId =
      .ok (updateWhereId accounts accountId (setOwner crmId)) := by
  unfold repointRow
  cases hget : getById accounts accountId with
  | none =>
    have hnone : ∀ b ∈ accounts, b.id = accountId → setOwner crmId b = b := by
      rintro b hb rfl
      rw [getById_of_mem hids hb] at hget
      cases hget
    simp only [updateWhereId_eq_self hnone]
  | some a =>
    have ha := mem_of_getById hget
    obtain rfl := id_of_getById hget
    by_cases howner : a.userId = crmId
    · have hsame : ∀ b ∈ accounts, b.id = a.id → setOwner crmId b = b := by
        intro b hb hid
        obtain rfl := List.inj_on_of_nodup_map hids hb ha hid
        rw [setOwner, ← howner]
      simp only [if_pos howner, updateWhereId_eq_self hsame]
    · have hfree : ¬ ∃ b ∈ accounts, b.id ≠ a.id ∧ b.userId = crmId ∧ b.email = a.email := by
        rintro ⟨b, hb, hid, -, hemail⟩
        exact hid (congrArg MailAccount.id (List.inj_on_of_nodup_map hemails hb ha hemail))
      simp only [if_neg howner, if_neg hfree]

/-- The table after the rows of some ids have been updated. -/
def setOwners (crmId : ℕ) (ids : List ℕ) (accounts : List MailAccount) : List MailAccount :=
  accounts.map fun a => if a.id ∈ ids then setOwner crmId a else a

theorem map_email_updateWhereId (accountId : ℕ) :
    (updateWhereId accounts accountId (setOwner crmId)).map MailAccount.email =
      accounts.map MailAccount.email := by
  rw [updateWhereId, List.map_map]
  refine List.map_congr_left fun a _ => ?_
  simp only [Function.comp]
  split_ifs <;> rfl

/-- **No order of the rows violates the unique key.** If no two rows have the same address, then the
`UPDATE` succeeds whatever rows it visits, in whatever order.

**Proof sketch.** Induction on the order. A row that is updated keeps its id and its address, so
that no two rows have the same address afterwards either. -/
theorem repoint_eq (hids : (accounts.map MailAccount.id).Nodup)
    (hemails : (accounts.map MailAccount.email).Nodup) (order : List ℕ) :
    repoint crmId order accounts = .ok (setOwners crmId order accounts) := by
  induction order generalizing accounts with
  | nil => simp [repoint, setOwners, pure, Except.pure]
  | cons i order ih =>
    have hids' : ((updateWhereId accounts i (setOwner crmId)).map MailAccount.id).Nodup := by
      have hsame : ∀ a, (setOwner crmId a).id = a.id := fun _ => rfl
      rwa [map_id_updateWhereId hsame]
    have hemails' : ((updateWhereId accounts i (setOwner crmId)).map MailAccount.email).Nodup := by
      rwa [map_email_updateWhereId]
    have hrest := ih hids' hemails'
    rw [repoint] at hrest ⊢
    rw [List.foldlM_cons, repointRow_eq hids hemails i]
    refine hrest.trans (congrArg Except.ok ?_)
    rw [setOwners, setOwners, updateWhereId, List.map_map]
    refine List.map_congr_left fun a _ => ?_
    by_cases hi : a.id = i
    · by_cases hmem : i ∈ order <;> simp [hi, hmem, setOwner]
    · simp [hi]

end Repoint

/-! ## The migration -/

section Upgrade

open ExternalMessagesService

variable {lower : Text → Text} {order : List ℕ → List ℕ} {t : Tables}

/-- The tables after the migration, given the owner. -/
def upgraded (lower : Text → Text) (owner : User) (t : Tables) : Tables where
  users := (seedCrmService t).users
  nextUserId := (seedCrmService t).nextUserId
  accounts := (survivors lower t.accounts).map (setOwner owner.id)
  messages := t.messages.filter fun m => m.mailAccountId ∉ loserIds lower t.accounts

theorem mergeDuplicates_eq (lower : Text → Text) (t : Tables) :
    mergeDuplicates lower t =
      { t with
        accounts := survivors lower t.accounts
        messages := t.messages.filter fun m => m.mailAccountId ∉ loserIds lower t.accounts } := by
  simp [mergeDuplicates, deleteLoserAccounts, deleteLoserMessages, survivors, List.filter_filter]

/-- **What the migration does.** -/
theorem upgrade_eq (ht : Valid t) (horder : ∀ ids, (order ids).Perm ids) :
    ∃ owner ∈ (seedCrmService t).users, owner.username = crmServiceUsername ∧
      upgrade lower order t = .ok (upgraded lower owner t) := by
  obtain ⟨owner, hget⟩ := exists_owner t
  obtain ⟨hmem, hname⟩ := UsersRepo.mem_of_getByUsername hget
  have hids : ((survivors lower t.accounts).map MailAccount.id).Nodup :=
    ht.mail_accounts_pkey.sublist (List.filter_sublist.map _)
  have hemails := @nodup_email_survivors lower _ ht.mail_accounts_pkey
  refine ⟨owner, hmem, hname, ?_⟩
  have hvisited : setOwners owner.id (order ((survivors lower t.accounts).map MailAccount.id))
      (survivors lower t.accounts) = (survivors lower t.accounts).map (setOwner owner.id) := by
    refine List.map_congr_left fun a ha => if_pos ?_
    exact (horder _).mem_iff.mpr (List.mem_map_of_mem ha)
  have hrepoint := @repoint_eq _ owner.id hids hemails
    (order ((survivors lower t.accounts).map MailAccount.id))
  rw [hvisited] at hrepoint
  have haccounts : (seedCrmService t).accounts = t.accounts := rfl
  rw [upgrade]
  simp only [hget, mergeDuplicates_eq, haccounts, hrepoint]
  rfl

/-- The migration keeps the constraints.

**Proof sketch.** The survivors are rows of before, so that their ids are distinct, and their
addresses are as well; with one owner that gives the unique key. The owner is a user. Each message
that is kept belongs to a mailbox that was not merged away. -/
theorem valid_upgraded (ht : Valid t) {owner : User} (howner : owner ∈ (seedCrmService t).users) :
    Valid (upgraded lower owner t) := by
  have hseed := valid_seedCrmService ht
  have hids : ((survivors lower t.accounts).map MailAccount.id).Nodup :=
    ht.mail_accounts_pkey.sublist (List.filter_sublist.map _)
  have hemails := @nodup_email_survivors lower _ ht.mail_accounts_pkey
  have hmapid : (upgraded lower owner t).accounts.map MailAccount.id =
      (survivors lower t.accounts).map MailAccount.id := by
    rw [upgraded, List.map_map]
    rfl
  refine { hseed with
    mail_accounts_pkey := ?_, mail_accounts_user_email := ?_, mail_accounts_user_id_fkey := ?_,
    messages_account_id_fkey := ?_ }
  · rwa [hmapid]
  · refine List.Nodup.of_map Prod.snd ?_
    rw [upgraded, List.map_map, List.map_map]
    exact hemails
  · intro a ha
    obtain ⟨b, -, rfl⟩ := List.mem_map.mp ha
    exact List.mem_map_of_mem howner
  · intro m hm
    obtain ⟨hm, hkept⟩ := List.mem_filter.mp hm
    obtain ⟨a, ha, hid⟩ := List.mem_map.mp (ht.messages_account_id_fkey m hm)
    rw [hmapid, ← hid]
    refine List.mem_map_of_mem (List.mem_filter.mpr ⟨ha, ?_⟩)
    rwa [hid]

/-! ## What is seen of the migration -/

/-- The canonical ids do not depend on the owners. -/
theorem listCanonicalAccountIds_setOwner (crmId : ℕ) (accounts : List MailAccount) :
    listCanonicalAccountIds lower (accounts.map (setOwner crmId)) =
      listCanonicalAccountIds lower accounts := by
  rw [listCanonicalAccountIds, listCanonicalAccountIds, List.filter_map, List.map_map]
  congr 1
  refine List.filter_congr fun a _ => decide_eq_decide.mpr ?_
  simp [setOwner]

/-- The survivors are all canonical. -/
theorem listCanonicalAccountIds_survivors {accounts : List MailAccount}
    (hids : (accounts.map MailAccount.id).Nodup) :
    listCanonicalAccountIds lower (survivors lower accounts) =
      (survivors lower accounts).map MailAccount.id := by
  rw [listCanonicalAccountIds]
  congr 1
  rw [List.filter_eq_self]
  intro a ha
  have hmin := ((mem_survivors hids).mp ha).2
  rw [decide_eq_true_eq]
  exact fun b hb => hmin b ((mem_survivors hids).mp hb).1

/-- The canonical ids before and after the migration. -/
theorem listCanonicalAccountIds_upgraded (ht : Valid t) (owner : User) :
    listCanonicalAccountIds lower (upgraded lower owner t).accounts =
      listCanonicalAccountIds lower t.accounts := by
  rw [upgraded, listCanonicalAccountIds_setOwner,
    listCanonicalAccountIds_survivors ht.mail_accounts_pkey, map_id_survivors ht.mail_accounts_pkey]

/-- A row of a page with another owner of its mailbox. -/
def setRowOwner (crmId : ℕ) (row : Message × MailAccount) : Message × MailAccount :=
  (row.1, setOwner crmId row.2)

/-- The rows of one message are all read, or none of them is. -/
theorem filter_rows_of_mem {m : Message} {ids : List ℕ} (h : m.mailAccountId ∈ ids)
    (as : List MailAccount) :
    ((as.map fun a => (m, a)).filter fun row => row.1.mailAccountId ∈ ids) =
      as.map fun a => (m, a) := by
  rw [List.filter_eq_self]
  intro row hrow
  obtain ⟨a, -, rfl⟩ := List.mem_map.mp hrow
  simpa using h

theorem filter_rows_of_not_mem {m : Message} {ids : List ℕ} (h : m.mailAccountId ∉ ids)
    (as : List MailAccount) :
    ((as.map fun a => (m, a)).filter fun row => row.1.mailAccountId ∈ ids) = [] := by
  rw [List.filter_eq_nil_iff]
  intro row hrow
  obtain ⟨a, -, rfl⟩ := List.mem_map.mp hrow
  simpa using h

/-- The account of a message is found among the survivors, if it is one of them. -/
theorem filter_setOwner {losers : List ℕ} {k : ℕ} (h : k ∉ losers) (crmId : ℕ)
    (accounts : List MailAccount) :
    ((accounts.filter fun a => a.id ∉ losers).map (setOwner crmId)).filter (fun a => a.id = k) =
      (accounts.filter fun a => a.id = k).map (setOwner crmId) := by
  rw [List.filter_map, List.filter_filter]
  congr 1
  refine List.filter_congr fun a _ => ?_
  by_cases hid : a.id = k
  · simp [setOwner, hid, h]
  · simp [setOwner, hid]

/-- **The rows of mailboxes that the merge keeps.** Induction on the messages: one of another
mailbox has no such rows, before or after. -/
theorem filter_joinAccounts_upgraded {ids losers : List ℕ} (h : ∀ i ∈ ids, i ∉ losers)
    (crmId : ℕ) (messages : List Message) (accounts : List MailAccount) :
    (joinAccounts (messages.filter fun m => m.mailAccountId ∉ losers)
        ((accounts.filter fun a => a.id ∉ losers).map (setOwner crmId))).filter
          (fun row => row.1.mailAccountId ∈ ids) =
      ((joinAccounts messages accounts).filter fun row => row.1.mailAccountId ∈ ids).map
        (setRowOwner crmId) := by
  induction messages with
  | nil => rfl
  | cons m messages ih =>
    have hcons : ∀ (ms : List Message) (as : List MailAccount), joinAccounts (m :: ms) as =
        ((as.filter fun a => a.id = m.mailAccountId).map fun a => (m, a)) ++ joinAccounts ms as :=
      fun _ _ => rfl
    rw [hcons messages, List.filter_append, List.map_append, ← ih]
    by_cases hin : m.mailAccountId ∈ ids
    · have hkept := h _ hin
      rw [List.filter_cons_of_pos (by simpa using hkept), hcons, List.filter_append,
        filter_rows_of_mem hin, filter_rows_of_mem hin, filter_setOwner hkept, List.map_map,
        List.map_map]
      rfl
    · rw [filter_rows_of_not_mem hin, List.map_nil, List.nil_append]
      by_cases hkept : m.mailAccountId ∉ losers
      · rw [List.filter_cons_of_pos (by simpa using hkept), hcons, List.filter_append,
          filter_rows_of_not_mem hin, List.nil_append]
      · rw [List.filter_cons_of_neg (by simpa using hkept)]

section Pages

variable {ids : List ℕ} {owner : User}

/-- The mailboxes that a request may read survive. -/
theorem not_mem_loserIds (ht : Valid t) {mailAccountIds : Option (List ℕ)} {i : ℕ}
    (hi : i ∈ resolveAccountIds lower t.accounts mailAccountIds) :
    i ∉ loserIds lower t.accounts := by
  have hcanon := resolveAccountIds_subset_canonical hi
  obtain ⟨a, ha, rfl⟩ := List.mem_map.mp hcanon
  have hmem := (List.mem_filter.mp ha).1
  rw [mem_loserIds_iff ht.mail_accounts_pkey hmem, not_not]
  exact (mem_canonicalIds_iff ht.mail_accounts_pkey hmem).mp hcanon

theorem listSinceId_upgraded (h : ∀ i ∈ ids, i ∉ loserIds lower t.accounts)
    (sinceId limit : ℕ) :
    MessagesRepo.listSinceId (upgraded lower owner t).messages (upgraded lower owner t).accounts ids
        sinceId limit =
      (MessagesRepo.listSinceId t.messages t.accounts ids sinceId limit).map
        (setRowOwner owner.id) := by
  rw [MessagesRepo.listSinceId, MessagesRepo.listSinceId]
  split_ifs
  · rfl
  · rw [upgraded, survivors, filter_joinAccounts_upgraded h]
    exact (Keyset.map_page (setRowOwner owner.id) _).symm

theorem listBeforeId_upgraded (h : ∀ i ∈ ids, i ∉ loserIds lower t.accounts)
    (beforeId : Option ℕ) (limit : ℕ) :
    MessagesRepo.listBeforeId (upgraded lower owner t).messages (upgraded lower owner t).accounts
        ids beforeId limit =
      (MessagesRepo.listBeforeId t.messages t.accounts ids beforeId limit).map
        (setRowOwner owner.id) := by
  rw [MessagesRepo.listBeforeId, MessagesRepo.listBeforeId]
  split_ifs
  · rfl
  · rw [upgraded, survivors, filter_joinAccounts_upgraded h]
    exact (Keyset.map_page (setRowOwner owner.id) _).symm

/-- The owner of a mailbox is not shown. -/
theorem map_buildDto_setRowOwner (crmId : ℕ) (rows : List (Message × MailAccount)) :
    (rows.map (setRowOwner crmId)).map buildDto = rows.map buildDto := by
  rw [List.map_map]
  rfl

/-- **The pages are the same** before and after the migration.

**Proof sketch.** Both directions read the messages of the resolved accounts. These are canonical
accounts, which are the same before and after, and none of them is merged away; so the same rows are
read, with accounts that differ in the owner only, which no page shows. -/
theorem listMessages_upgraded (ht : Valid t) (order : Text) (sinceId : ℕ) (beforeId : Option ℤ)
    (limit : ℕ) (mailAccountIds : Option (List ℕ)) :
    listMessages lower (upgraded lower owner t).messages (upgraded lower owner t).accounts order
        sinceId beforeId limit mailAccountIds =
      listMessages lower t.messages t.accounts order sinceId beforeId limit mailAccountIds := by
  have hids : resolveAccountIds lower (upgraded lower owner t).accounts mailAccountIds =
      resolveAccountIds lower t.accounts mailAccountIds := by
    unfold resolveAccountIds
    rw [listCanonicalAccountIds_upgraded ht]
  have hkept : ∀ i ∈ resolveAccountIds lower t.accounts mailAccountIds,
      i ∉ loserIds lower t.accounts := fun i => not_mem_loserIds ht
  have hforward : ∀ since, listForward (upgraded lower owner t).messages
      (upgraded lower owner t).accounts (resolveAccountIds lower t.accounts mailAccountIds) since
        limit = listForward t.messages t.accounts
          (resolveAccountIds lower t.accounts mailAccountIds) since limit := by
    intro since
    simp only [listForward, listSinceId_upgraded hkept, map_buildDto_setRowOwner,
      List.getLast?_map, List.length_map]
    cases (MessagesRepo.listSinceId t.messages t.accounts
      (resolveAccountIds lower t.accounts mailAccountIds) since limit).getLast? <;> rfl
  have hbackward : ∀ before, listBackward (upgraded lower owner t).messages
      (upgraded lower owner t).accounts (resolveAccountIds lower t.accounts mailAccountIds) before
        limit = listBackward t.messages t.accounts
          (resolveAccountIds lower t.accounts mailAccountIds) before limit := by
    intro before
    simp only [listBackward, listBeforeId_upgraded hkept, map_buildDto_setRowOwner,
      List.getLast?_map, List.length_map, Option.map_map]
    rfl
  rw [listMessages, listMessages]
  cases validateMode order sinceId beforeId with
  | error e => rfl
  | ok u => simp only [hids, hforward, hbackward]

end Pages

section Listed

variable {accounts : List MailAccount}

/-- The mailboxes are listed from the survivors, in some order. -/
theorem listMailboxes_perm (hids : (accounts.map MailAccount.id).Nodup) (isActive : Option Bool) :
    (listMailboxes lower accounts isActive).Perm
      (((survivors lower accounts).filter fun a => ∀ flag ∈ isActive, a.isActive = flag).map
        toExternalMailboxDto) := by
  have hlisted : (listByIds accounts (listCanonicalAccountIds lower accounts)).Perm
      (survivors lower accounts) := by
    refine (List.perm_insertionSort _ _).trans (List.Perm.of_eq (List.filter_congr fun a ha => ?_))
    rw [decide_eq_decide, mem_canonicalIds_iff hids ha, mem_loserIds_iff hids ha, not_not]
  unfold listMailboxes
  cases isActive with
  | none => simpa using hlisted.map toExternalMailboxDto
  | some flag => simpa using (hlisted.filter _).map toExternalMailboxDto

/-- **A merged table is merged already.** -/
theorem survivors_survivors (hids : (accounts.map MailAccount.id).Nodup) (crmId : ℕ) :
    survivors lower ((survivors lower accounts).map (setOwner crmId)) =
      (survivors lower accounts).map (setOwner crmId) := by
  have hmapid : ((survivors lower accounts).map (setOwner crmId)).map MailAccount.id =
      (survivors lower accounts).map MailAccount.id := by
    rw [List.map_map]
    rfl
  have hids' : (((survivors lower accounts).map (setOwner crmId)).map MailAccount.id).Nodup := by
    rw [hmapid]
    exact hids.sublist (List.filter_sublist.map _)
  rw [survivors, List.filter_eq_self]
  intro a ha
  rw [decide_eq_true_eq, mem_loserIds_iff hids' ha, not_not]
  refine ⟨ha, fun b hb hemail => ?_⟩
  obtain ⟨x, hx, rfl⟩ := List.mem_map.mp ha
  obtain ⟨y, hy, rfl⟩ := List.mem_map.mp hb
  exact ((mem_survivors hids).mp hx).2 y ((mem_survivors hids).mp hy).1 hemail

/-- The same mailboxes are listed before and after the migration. -/
theorem listMailboxes_upgraded (ht : Valid t) {owner : User}
    (howner : owner ∈ (seedCrmService t).users) (isActive : Option Bool) :
    (listMailboxes lower (upgraded lower owner t).accounts isActive).Perm
      (listMailboxes lower t.accounts isActive) := by
  have hafter := @listMailboxes_perm lower _
    (@valid_upgraded lower t ht owner howner).mail_accounts_pkey isActive
  have hbefore := @listMailboxes_perm lower _ ht.mail_accounts_pkey isActive
  refine hafter.trans (List.Perm.trans (List.Perm.of_eq ?_) hbefore.symm)
  rw [upgraded, survivors_survivors ht.mail_accounts_pkey, List.filter_map, List.map_map]
  rfl

end Listed

/-- A second run of the migration only draws an id.

**Proof sketch.** After a first run there is a technical user, so that the seed adds none and only
draws an id. Every address has one mailbox, which survives and has its owner already, and every
message belongs to a survivor; so the merge deletes nothing and the update changes nothing. -/
theorem upgrade_upgraded (ht : Valid t) (horder : ∀ ids, (order ids).Perm ids) {owner : User}
    (howner : owner ∈ (seedCrmService t).users) (hname : owner.username = crmServiceUsername) :
    upgrade lower order (upgraded lower owner t) =
      .ok
        { upgraded lower owner t with
          nextUserId := (upgraded lower owner t).nextUserId + 1 } := by
  have hvalid := @valid_upgraded lower t ht owner howner
  obtain ⟨owner', howner', hname', hup⟩ := @upgrade_eq lower _ _ hvalid horder
  have hseeded : crmServiceUsername ∈ (upgraded lower owner t).users.map User.username :=
    hname ▸ List.mem_map_of_mem howner
  have husers : (seedCrmService (upgraded lower owner t)).users = (seedCrmService t).users :=
    if_pos hseeded
  rw [husers] at howner'
  obtain rfl : owner' = owner :=
    List.inj_on_of_nodup_map (valid_seedCrmService ht).users_username_key howner' howner
      (hname'.trans hname.symm)
  rw [hup]
  refine congrArg Except.ok ?_
  have haccounts : (survivors lower (upgraded lower owner' t).accounts).map (setOwner owner'.id) =
      (upgraded lower owner' t).accounts := by
    rw [upgraded, survivors_survivors ht.mail_accounts_pkey, List.map_map]
    rfl
  have hmessages : (upgraded lower owner' t).messages.filter (fun m =>
      m.mailAccountId ∉ loserIds lower (upgraded lower owner' t).accounts) =
        (upgraded lower owner' t).messages := by
    rw [List.filter_eq_self]
    intro m hm
    obtain ⟨a, ha, hid⟩ := List.mem_map.mp (hvalid.messages_account_id_fkey m hm)
    have hsame : survivors lower (upgraded lower owner' t).accounts =
        (upgraded lower owner' t).accounts := survivors_survivors ht.mail_accounts_pkey _
    rw [← hsame] at ha
    rw [← hid]
    exact (List.mem_filter.mp ha).2
  rw [upgraded, haccounts, hmessages, husers]
  rfl

/-- **The migration succeeds.** On every database that meets the constraints of the schema, with ids
from the sequence, it ends without an error, in whatever order the rows are updated, and the same
holds of the tables again. Then every mailbox is owned by `crm-service`, the mailboxes are the
canonical ones of before, no address is stored twice, and their messages are the ones that they had.
A second run only draws an id.

**Proof sketch.** `upgrade_eq` gives the tables after the migration in closed form: the seed, the
survivors with their new owner, and the messages of the survivors. Each constraint is read off that
form; with one owner the pairs of owner and address are distinct, since the survivors have distinct
addresses. -/
theorem upgrade_valid (ht : Valid t) (horder : ∀ ids, (order ids).Perm ids) :
    ∃ t', upgrade lower order t = .ok t' ∧ Valid t' ∧
      (∃ owner ∈ t'.users, owner.username = crmServiceUsername ∧
        ∀ a ∈ t'.accounts, a.userId = owner.id) ∧
      t'.accounts.map MailAccount.id = listCanonicalAccountIds lower t.accounts ∧
      (t'.accounts.map fun a => lower a.email).Nodup ∧
      (t'.messages = t.messages.filter fun m =>
        m.mailAccountId ∈ listCanonicalAccountIds lower t.accounts) ∧
      upgrade lower order t' = .ok { t' with nextUserId := t'.nextUserId + 1 } := by
  obtain ⟨owner, howner, hname, hup⟩ := @upgrade_eq lower _ _ ht horder
  refine ⟨upgraded lower owner t, hup, valid_upgraded ht howner, ⟨owner, howner, hname, ?_⟩, ?_, ?_,
    ?_, upgrade_upgraded ht horder howner hname⟩
  · intro a ha
    obtain ⟨b, -, rfl⟩ := List.mem_map.mp ha
    rfl
  · rw [upgraded, List.map_map]
    exact map_id_survivors ht.mail_accounts_pkey
  · rw [upgraded, List.map_map]
    exact nodup_lower_survivors ht.mail_accounts_pkey
  · refine List.filter_congr fun m hm => ?_
    obtain ⟨a, ha, hid⟩ := List.mem_map.mp (ht.messages_account_id_fkey m hm)
    rw [decide_eq_decide, ← hid, mem_loserIds_iff ht.mail_accounts_pkey ha, not_not,
      mem_canonicalIds_iff ht.mail_accounts_pkey ha]

/-- **The migration cannot be seen** through the external contract. Every request for messages is
answered with the same page as before, and every request for the mailboxes with the same ones, up to
their order. -/
theorem upgrade_invisible (ht : Valid t) (horder : ∀ ids, (order ids).Perm ids) :
    ∃ t', upgrade lower order t = .ok t' ∧
      (∀ direction sinceId beforeId limit mailAccountIds,
        listMessages lower t'.messages t'.accounts direction sinceId beforeId limit mailAccountIds =
          listMessages lower t.messages t.accounts direction sinceId beforeId limit
            mailAccountIds) ∧
      ∀ isActive, (listMailboxes lower t'.accounts isActive).Perm
        (listMailboxes lower t.accounts isActive) := by
  obtain ⟨owner, howner, -, hup⟩ := @upgrade_eq lower _ _ ht horder
  exact ⟨upgraded lower owner t, hup, fun _ _ _ _ _ => listMessages_upgraded ht _ _ _ _ _,
    listMailboxes_upgraded ht howner⟩

end Upgrade

/-- Two owners have the address of one mailbox; a message is stored for each. -/
def twoOwners : Tables where
  users :=
    [{ id := 1, username := "anna".toList, role := "group_leader".toList },
      { id := 2, username := "boris".toList, role := "group_member".toList }]
  nextUserId := 3
  accounts := ExternalMessagesService.addedTwice
  messages :=
    [{ id := 1, mailAccountId := 1, uid := 7, uidvalidity := 1, fetchedAt := 0 },
      { id := 2, mailAccountId := 2, uid := 7, uidvalidity := 1, fetchedAt := 0 }]

theorem valid_twoOwners : Valid twoOwners := by
  constructor <;> decide

/-- The first mailbox survives with its message, and belongs to the new owner. -/
theorem upgrade_valid_twoOwners :
    ∃ t', upgrade PyText.lower List.reverse twoOwners = .ok t' ∧ Valid t' ∧
      (∃ owner ∈ t'.users, owner.username = crmServiceUsername ∧
        ∀ a ∈ t'.accounts, a.userId = owner.id) ∧
      t'.accounts.map MailAccount.id = [1] ∧
      (t'.accounts.map fun a => PyText.lower a.email).Nodup ∧
      t'.messages.map Message.id = [1] := by
  obtain ⟨t', hup, hvalid, howner, hids, hnodup, hmessages, -⟩ :=
    @upgrade_valid PyText.lower List.reverse twoOwners valid_twoOwners List.reverse_perm
  refine ⟨t', hup, hvalid, howner, hids.trans (by decide), hnodup, ?_⟩
  rw [hmessages]
  decide

/-- Nothing of it is seen. -/
theorem upgrade_invisible_twoOwners :
    ∃ t', upgrade PyText.lower List.reverse twoOwners = .ok t' ∧
      ExternalMessagesService.listMessages PyText.lower t'.messages t'.accounts "asc".toList 0 none
          50 none =
        ExternalMessagesService.listMessages PyText.lower twoOwners.messages twoOwners.accounts
          "asc".toList 0 none 50 none := by
  obtain ⟨t', hup, hpages, -⟩ :=
    @upgrade_invisible PyText.lower List.reverse twoOwners valid_twoOwners List.reverse_perm
  exact ⟨t', hup, hpages _ _ _ _ _⟩

end PhaseC

end MailAggregator
