import MailAggregator.External.Service

set_option relaxedAutoImplicit false
set_option autoImplicit false

/-!
# The list of mailboxes

The external contract lists one mailbox for each address, with its status. The messages that it
hands out name their mailbox by the same id, so that a client joins the two lists.

## Main definitions

* `MailAggregator.ExternalMessagesService.listMailboxes` — the list.
* `MailAggregator.ExternalMessagesService.pageMessages` — the messages of a page.

## Main results

* `MailAggregator.ExternalMessagesService.mem_listMailboxes` — which accounts are listed.
* `MailAggregator.ExternalMessagesService.mailboxes_join_messages` — every message of every page
  joins with exactly one mailbox.
-/

namespace MailAggregator

open PyText

/-- `list_by_ids`: in the order of the owners, and of the ids for one owner. -/
def MailAccountsRepo.listByIds (accounts : List MailAccount) (accountIds : List ℕ) :
    List MailAccount :=
  (accounts.filter fun a => a.id ∈ accountIds).insertionSort fun a b =>
    toLex (a.userId, a.id) ≤ toLex (b.userId, b.id)

/-- One mailbox, as the external contract shows it. -/
structure ExternalMailboxDTO where
  id : ℕ
  email : Text
  displayName : Option Text
  isActive : Bool
  lastSyncedAt : Option Instant
  lastSyncError : Option Text
  consecutiveFailures : ℕ
  deriving DecidableEq, Repr

/-- `to_external_mailbox_dto`. -/
def toExternalMailboxDto (acc : MailAccount) : ExternalMailboxDTO where
  id := acc.id
  email := acc.email
  displayName := acc.displayName
  isActive := acc.isActive
  lastSyncedAt := acc.lastSyncedAt
  lastSyncError := acc.lastSyncError
  consecutiveFailures := acc.consecutiveFailures

namespace ExternalMessagesService

/-- `list_mailboxes`. -/
def listMailboxes (lower : Text → Text) (accounts : List MailAccount) (isActive : Option Bool) :
    List ExternalMailboxDTO :=
  let canonicalIds := MailAccountsRepo.listCanonicalAccountIds lower accounts
  let listed := MailAccountsRepo.listByIds accounts canonicalIds
  let listed := match isActive with
    | none => listed
    | some flag => listed.filter fun a => a.isActive = flag
  listed.map toExternalMailboxDto

/-- The messages of a page. -/
def pageMessages : ExternalMessagesResponse ⊕ ExternalMessagesResponseDesc →
    List ExternalMessageDTO
  | .inl page => page.messages
  | .inr page => page.messages

section Canonical

variable {lower : Text → Text} {accounts : List MailAccount}

/-- An account that no account with the same address precedes. -/
def IsCanonical (lower : Text → Text) (accounts : List MailAccount) (a : MailAccount) : Prop :=
  a ∈ accounts ∧ ∀ b ∈ accounts, lower b.email = lower a.email → a.id ≤ b.id

/-- With primary keys, the canonical ids are those of the canonical accounts. -/
theorem mem_canonicalIds_iff (hids : (accounts.map MailAccount.id).Nodup) {a : MailAccount}
    (ha : a ∈ accounts) :
    a.id ∈ MailAccountsRepo.listCanonicalAccountIds lower accounts ↔
      IsCanonical lower accounts a := by
  rw [MailAccountsRepo.listCanonicalAccountIds, List.mem_map]
  constructor
  · rintro ⟨b, hb, hid⟩
    obtain ⟨hb, hmin⟩ := List.mem_filter.mp hb
    obtain rfl := List.inj_on_of_nodup_map hids hb ha hid
    exact ⟨ha, by simpa using hmin⟩
  · intro h
    exact ⟨a, List.mem_filter.mpr ⟨ha, by simpa using h.2⟩, rfl⟩

/-- **Which accounts are listed.** -/
theorem mem_listMailboxes (hids : (accounts.map MailAccount.id).Nodup) {isActive : Option Bool}
    {mailbox : ExternalMailboxDTO} :
    mailbox ∈ listMailboxes lower accounts isActive ↔
      ∃ a, IsCanonical lower accounts a ∧ (∀ flag ∈ isActive, a.isActive = flag) ∧
        toExternalMailboxDto a = mailbox := by
  have hlisted : ∀ a, a ∈ MailAccountsRepo.listByIds accounts
      (MailAccountsRepo.listCanonicalAccountIds lower accounts) ↔
        IsCanonical lower accounts a := by
    intro a
    rw [MailAccountsRepo.listByIds, List.mem_insertionSort, List.mem_filter, decide_eq_true_eq]
    constructor
    · rintro ⟨ha, hid⟩
      exact (mem_canonicalIds_iff hids ha).mp hid
    · intro h
      exact ⟨h.1, (mem_canonicalIds_iff hids h.1).mpr h⟩
  unfold listMailboxes
  cases isActive with
  | none => simp [hlisted]
  | some flag => simp [hlisted, and_assoc]

/-- Two canonical accounts with one address are the same. -/
theorem IsCanonical.eq_of_lower_eq (hids : (accounts.map MailAccount.id).Nodup)
    {a b : MailAccount} (ha : IsCanonical lower accounts a) (hb : IsCanonical lower accounts b)
    (h : lower a.email = lower b.email) : a = b := by
  have hab := ha.2 b hb.1 h.symm
  have hba := hb.2 a ha.1 h
  exact List.inj_on_of_nodup_map hids ha.1 hb.1 (Nat.le_antisymm hab hba)

/-- Every address has a canonical account. -/
theorem exists_isCanonical {a : MailAccount} (ha : a ∈ accounts) :
    ∃ c, IsCanonical lower accounts c ∧ lower c.email = lower a.email := by
  classical
  induction hn : a.id using Nat.strong_induction_on generalizing a with
  | h n ih =>
    by_cases hcanon : ∀ b ∈ accounts, lower b.email = lower a.email → a.id ≤ b.id
    · exact ⟨a, ⟨ha, hcanon⟩, rfl⟩
    · push Not at hcanon
      obtain ⟨b, hb, hemail, hlt⟩ := hcanon
      obtain ⟨c, hc, hce⟩ := ih b.id (hn ▸ hlt) hb rfl
      exact ⟨c, hc, hce.trans hemail⟩

/-- The requested mailboxes are narrowed to canonical ones. -/
theorem resolveAccountIds_subset_canonical {mailAccountIds : Option (List ℕ)} {i : ℕ}
    (h : i ∈ resolveAccountIds lower accounts mailAccountIds) :
    i ∈ MailAccountsRepo.listCanonicalAccountIds lower accounts := by
  unfold resolveAccountIds at h
  split at h
  · exact h
  · exact h
  · exact (List.mem_filter.mp h).1

/-- **The rows of a page** are messages with their canonical accounts, whichever way it is read.

**Proof sketch.** The rows of either direction are those of the join whose account is among the
resolved ids, and the resolved ids are canonical. A page holds some of these rows, and each message
of it is made from one. -/
theorem canonical_of_mem_pageMessages (hids : (accounts.map MailAccount.id).Nodup)
    {messages : List Message} {order : Text} {sinceId : ℕ} {beforeId : Option ℤ} {limit : ℕ}
    {mailAccountIds : Option (List ℕ)}
    {page : ExternalMessagesResponse ⊕ ExternalMessagesResponseDesc}
    (h : listMessages lower messages accounts order sinceId beforeId limit mailAccountIds =
      .ok page)
    {dto : ExternalMessageDTO} (hdto : dto ∈ pageMessages page) :
    ∃ row : Message × MailAccount, row.1 ∈ messages ∧ row.2.id = row.1.mailAccountId ∧
      IsCanonical lower accounts row.2 ∧ buildDto row = dto := by
  set ids := resolveAccountIds lower accounts mailAccountIds with hdef
  have hrow : ∀ row, row ∈ (joinAccounts messages accounts).filter
      (fun row => row.1.mailAccountId ∈ ids) →
        row.1 ∈ messages ∧ row.2.id = row.1.mailAccountId ∧ IsCanonical lower accounts row.2 := by
    intro row hrow
    obtain ⟨hjoin, hin⟩ := List.mem_filter.mp hrow
    obtain ⟨hm, ha, hid⟩ := mem_joinAccounts.mp hjoin
    rw [decide_eq_true_eq, ← hid] at hin
    exact ⟨hm, hid, (mem_canonicalIds_iff hids ha).mp (resolveAccountIds_subset_canonical hin)⟩
  rw [listMessages] at h
  cases hmode : validateMode order sinceId beforeId with
  | error e => rw [hmode] at h; cases h
  | ok u =>
    rw [hmode] at h
    simp only at h
    split_ifs at h <;> obtain rfl := Except.ok.inj h
    · obtain ⟨row, hmem, rfl⟩ := List.mem_map.mp hdto
      rw [← hdef, MessagesRepo.listSinceId] at hmem
      split_ifs at hmem
      · cases hmem
      · obtain ⟨hm, hid, hc⟩ := hrow row (Keyset.mem_of_mem_page hmem).1
        exact ⟨row, hm, hid, hc, rfl⟩
    · obtain ⟨row, hmem, rfl⟩ := List.mem_map.mp hdto
      rw [← hdef, MessagesRepo.listBeforeId] at hmem
      split_ifs at hmem
      · cases hmem
      · obtain ⟨hm, hid, hc⟩ := hrow row (Keyset.mem_of_mem_page hmem).1
        exact ⟨row, hm, hid, hc, rfl⟩

/-- **The two lists join.** The mailboxes are listed once for each address, and the filter by status
splits the list. And every message of every page, whatever the direction, the cursor, the size and
the requested mailboxes are, names exactly one listed mailbox, with its address and its name.

**Proof sketch.** An address has exactly one canonical account, which is the one that is listed,
with or without the filter. A message of a page is made from a row of a canonical account, whose id,
address and name it names; two canonical accounts with one id are the same. -/
theorem mailboxes_join_messages (hids : (accounts.map MailAccount.id).Nodup) :
    (∀ a ∈ accounts, ∃! mailbox, mailbox ∈ listMailboxes lower accounts none ∧
        lower mailbox.email = lower a.email) ∧
      (∀ flag mailbox, mailbox ∈ listMailboxes lower accounts (some flag) ↔
        mailbox ∈ listMailboxes lower accounts none ∧ mailbox.isActive = flag) ∧
      ∀ messages order sinceId beforeId limit mailAccountIds page,
        listMessages lower messages accounts order sinceId beforeId limit mailAccountIds =
            .ok page →
          ∀ dto ∈ pageMessages page, ∃ mailbox ∈ listMailboxes lower accounts none,
            (mailbox.id = dto.mailAccount.id ∧ mailbox.email = dto.mailAccount.email ∧
              mailbox.displayName = dto.mailAccount.displayName) ∧
            ∀ other ∈ listMailboxes lower accounts none,
              other.id = dto.mailAccount.id → other = mailbox := by
  have hall : ∀ {a}, IsCanonical lower accounts a →
      toExternalMailboxDto a ∈ listMailboxes lower accounts none := fun h =>
    (mem_listMailboxes hids).mpr ⟨_, h, by simp, rfl⟩
  refine ⟨fun a ha => ?_, fun flag mailbox => ?_, fun messages order sinceId beforeId limit
    mailAccountIds page h dto hdto => ?_⟩
  · obtain ⟨c, hc, hemail⟩ := @exists_isCanonical lower accounts a ha
    refine ⟨toExternalMailboxDto c, ⟨hall hc, hemail⟩, ?_⟩
    rintro mailbox ⟨hmem, hsame⟩
    obtain ⟨b, hb, -, rfl⟩ := (mem_listMailboxes hids).mp hmem
    rw [hb.eq_of_lower_eq hids hc (hsame.trans hemail.symm)]
  · rw [mem_listMailboxes hids, mem_listMailboxes hids]
    constructor
    · rintro ⟨a, ha, hflag, rfl⟩
      exact ⟨⟨a, ha, by simp, rfl⟩, hflag flag rfl⟩
    · rintro ⟨⟨a, ha, -, rfl⟩, hflag⟩
      refine ⟨a, ha, ?_, rfl⟩
      rintro flag' ⟨⟩
      exact hflag
  · obtain ⟨row, -, -, hc, rfl⟩ := canonical_of_mem_pageMessages hids h hdto
    refine ⟨toExternalMailboxDto row.2, hall hc, ⟨rfl, rfl, rfl⟩, fun other hother hid => ?_⟩
    obtain ⟨b, hb, -, rfl⟩ := (mem_listMailboxes hids).mp hother
    rw [List.inj_on_of_nodup_map hids hb.1 hc.1 hid]

end Canonical

/-- An address that two owners have added. -/
def addedTwice : List MailAccount :=
  [{ id := 1, userId := 1, email := "box@example.com".toList },
    { id := 2, userId := 2, email := "Box@example.com".toList }]

/-- It is listed once, by its first account. -/
theorem mailboxes_join_messages_addedTwice :
    (listMailboxes PyText.lower addedTwice none).map ExternalMailboxDTO.id = [1] ∧
      ∀ a ∈ addedTwice, ∃! mailbox, mailbox ∈ listMailboxes PyText.lower addedTwice none ∧
        PyText.lower mailbox.email = PyText.lower a.email :=
  ⟨by decide, (mailboxes_join_messages (by decide)).1⟩

end ExternalMessagesService

end MailAggregator
