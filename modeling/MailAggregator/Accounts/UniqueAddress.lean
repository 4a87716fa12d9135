import MailAggregator.Accounts.UpdateFrame
import MailAggregator.Lib.NormalKey
import MailAggregator.Lib.Transition
import MailAggregator.OAuth.TokenService

set_option relaxedAutoImplicit false
set_option autoImplicit false

/-!
# One mailbox for an owner and an address

The lookup of a mailbox by its owner and its address ignores the case, and expects at most one row.
The constraint `UNIQUE (user_id, email)` respects the case. A create and a link look before they
insert; an update of the address does not.

## Main definitions

* `MailAggregator.MailAccountsRepo.findByUserEmail`, `MailAccountsRepo.insertWithId`.
* `MailAggregator.MailAccountService.createdRow`, `OutlookOAuthService.linkedRow` — the rows of a
  create and of a link.
* `MailAggregator.Addresses.addressSystem` — creates, links, re-links, updates and deletes.
* `MailAggregator.Addresses.OneMailbox` — an owner has at most one row for an address, and the
  lookup does not raise.
* `MailAggregator.Addresses.SpellingKept` — the condition on a write.

## Main results

* `MailAggregator.Addresses.oneMailbox_iff` — which runs keep one mailbox for an address.
* `MailAggregator.Addresses.spelledAlike_of_look` — an insert right after its lookup meets the
  condition.
* `MailAggregator.Addresses.second_spelling` — an update that makes a second one.
-/

namespace MailAggregator

open PyText MailAccountsRepo MailAccountService Transition

namespace MailAccountsRepo

/-- The lookup has found more rows than one. -/
inductive LookupError where
  | multipleResultsFound
  deriving DecidableEq, Repr

/-- `find_by_user_email`. The address is lowered by Python, the column by the database. -/
def findByUserEmail (pyLower dbLower : Text → Text) (accounts : List MailAccount) (userId : ℕ)
    (email : Text) : Except LookupError (Option MailAccount) :=
  match accounts.filter fun a => a.userId = userId ∧ dbLower a.email = pyLower email with
  | [] => .ok none
  | [a] => .ok (some a)
  | _ => .error .multipleResultsFound

/-- `insert_with_id` and `insert_oauth_account_with_id`: the table after the insert of a row. -/
def insertWithId (accounts : List MailAccount) (a : MailAccount) :
    Except DbRefusal (List MailAccount) :=
  if ¬ TextsStorable a then .error .dataError
  else if ¬ Checked a ∨ AddressTaken accounts a then .error .integrityError
  else .ok (accounts ++ [a])

end MailAccountsRepo

/-- The row that `MailAccountService.create` inserts. -/
def MailAccountService.createdRow (accountId userId : ℕ) (r : MailAccountTestRequest)
    (displayName : Option Text) (now : Instant) : MailAccount where
  id := accountId
  userId
  email := r.email
  displayName
  encryptedPassword := some (encryptMailPassword r.password accountId)
  imapHost := r.imapHost
  imapPort := r.imapPort
  imapSsl := r.imapSsl
  smtpHost := r.smtpHost
  smtpPort := r.smtpPort
  smtpSsl := r.smtpSsl
  smtpStarttls := r.smtpStarttls
  smtpUsername := r.smtpUsername
  smtpEncryptedPassword := sealed r.smtpPassword accountId
  createdAt := now
  updatedAt := now

/-- The row that `_create_or_relink` inserts. -/
def OutlookOAuthService.linkedRow (accountId userId : ℕ) (email : Text) (tokens : TokenResponse)
    (refreshToken : Text) (now : Instant) : MailAccount where
  id := accountId
  userId
  email
  authType := .oauthOutlook
  oauthProvider := some "outlook".toList
  oauthRefreshTokenEncrypted := some (encryptMailPassword refreshToken accountId)
  oauthAccessTokenEncrypted := some (encryptMailPassword tokens.accessToken accountId)
  oauthAccessTokenExpiresAt := some (now + seconds tokens.expiresIn)
  oauthScopes := tokens.scope
  imapHost := "outlook.office365.com".toList
  imapPort := 993
  imapSsl := true
  smtpHost := "smtp-mail.outlook.com".toList
  smtpPort := 587
  smtpSsl := false
  smtpStarttls := true
  createdAt := now
  updatedAt := now

namespace Addresses

/-! ## The system -/

/-- The table, and the transactions that are open: what creates and links have looked for in vain,
and the rows that updates have read. -/
structure AddressState where
  accounts : List MailAccount
  nextAccountId : ℕ
  lookedFor : List (ℕ × Text)
  snapshots : List MailAccount

/-- The steps. -/
inductive AddressLabel where
  /-- A create or a link looks for the address, and finds no row. -/
  | look (userId : ℕ) (email : Text)
  | create (userId : ℕ) (r : MailAccountTestRequest) (displayName : Option Text) (now : Instant)
  /-- A link inserts a row for the address of the identity token. -/
  | link (userId : ℕ) (claimed : Text) (tokens : TokenResponse) (refreshToken : Text)
    (now : Instant)
  /-- A link has found a row, and stores new tokens. -/
  | relink (accountId : ℕ) (tokens : TokenResponse) (refreshToken : Text) (now : Instant)
  /-- An update reads its row. -/
  | read (accountId : ℕ)
  /-- An update writes and commits. -/
  | patch (env : ExternalMailboxService.Env) (payload : ExternalMailboxUpdateRequest)
    (snapshot : MailAccount)
  | delete (accountId : ℕ)

variable (pyLower dbLower : Text → Text)

/-- `email.strip().lower()`, of the address in an identity token. -/
def linkedAddress (claimed : Text) : Text := pyLower (strip claimed)

/-- An insert after a lookup in vain. -/
def insertRow (s : AddressState) (a : MailAccount) : Option AddressState :=
  if (a.userId, a.email) ∈ s.lookedFor then
    match insertWithId s.accounts a with
    | .error _ => none
    | .ok accounts =>
      some
        { s with
          accounts
          nextAccountId := s.nextAccountId + 1
          lookedFor := s.lookedFor.erase (a.userId, a.email) }
  else none

/-- The write of an update. A row that is gone fails its assertion. -/
def patchRow (s : AddressState) (env : ExternalMailboxService.Env)
    (payload : ExternalMailboxUpdateRequest) (snapshot : MailAccount) : Option AddressState :=
  if snapshot ∈ s.snapshots ∧ getById s.accounts snapshot.id ≠ none ∧
      (ExternalMailboxService.update env [snapshot] snapshot.id payload).toOption.isSome then
    match updateFields s.accounts snapshot.id
        (ExternalMailboxService.rowWrites env payload snapshot) with
    | .error _ => none
    | .ok accounts => some { s with accounts }
  else none

/-- Creates, links, re-links, updates and deletes, from an empty table. A request that is refused
has no step. -/
def addressSystem : System AddressState AddressLabel where
  init s := s.accounts = [] ∧ s.lookedFor = [] ∧ s.snapshots = []
  next s
    | .look userId email =>
      match findByUserEmail pyLower dbLower s.accounts userId email with
      | .ok none => some { s with lookedFor := (userId, email) :: s.lookedFor }
      | _ => none
    | .create userId r displayName now =>
      insertRow s (createdRow s.nextAccountId userId r displayName now)
    | .link userId claimed tokens refreshToken now =>
      insertRow s (OutlookOAuthService.linkedRow s.nextAccountId userId
        (linkedAddress pyLower claimed) tokens refreshToken now)
    | .relink accountId tokens refreshToken now =>
      some
        { s with
          accounts :=
            updateWhereId s.accounts accountId
              (OutlookOAuthService.relink now tokens refreshToken) }
    | .read accountId =>
      (getById s.accounts accountId).map fun a => { s with snapshots := a :: s.snapshots }
    | .patch env payload snapshot => patchRow s env payload snapshot
    | .delete accountId => some { s with accounts := s.accounts.filter fun a => a.id ≠ accountId }

/-! ## The promise and the condition -/

/-- **One mailbox**: for each owner and each address there is at most one row with that
`LOWER(email)`, and the lookup does not raise. -/
structure OneMailbox (s : AddressState) : Prop where
  rows : ∀ userId address,
    (s.accounts.filter fun a => a.userId = userId ∧ dbLower a.email = address).length ≤ 1
  lookup : ∀ userId email,
    findByUserEmail pyLower dbLower s.accounts userId email ≠ .error .multipleResultsFound

/-- Every other mailbox of the owner with this address in lower case spells it this way. -/
def SpelledAlike (accounts : List MailAccount) (accountId userId : ℕ) (email : Text) : Prop :=
  ∀ b ∈ accounts, b.id ≠ accountId → b.userId = userId → dbLower b.email = dbLower email →
    b.email = email

/-- The address that an update writes: the one it is given or has read, if it has account fields and
the account is a password account. -/
def patchedEmail (payload : ExternalMailboxUpdateRequest) (snapshot a : MailAccount) : Text :=
  if payload.HasAccountFields ∧ snapshot.authType = .password then
    orStored payload.email snapshot.email
  else a.email

/-- **The condition on a write.** The owner has no other mailbox with the new address in another
spelling. -/
def SpellingKept (s : AddressState) : AddressLabel → Prop
  | .create userId r _ _ => SpelledAlike dbLower s.accounts s.nextAccountId userId r.email
  | .link userId claimed _ _ _ =>
    SpelledAlike dbLower s.accounts s.nextAccountId userId (linkedAddress pyLower claimed)
  | .patch _ payload snapshot =>
    ∀ a ∈ getById s.accounts snapshot.id,
      SpelledAlike dbLower s.accounts a.id a.userId (patchedEmail payload snapshot a)
  | _ => True

instance (accounts : List MailAccount) (accountId userId : ℕ) (email : Text) :
    Decidable (SpelledAlike dbLower accounts accountId userId email) :=
  inferInstanceAs (Decidable (∀ b ∈ accounts, b.id ≠ accountId → b.userId = userId →
    dbLower b.email = dbLower email → b.email = email))

instance (s : AddressState) (label : AddressLabel) :
    Decidable (SpellingKept pyLower dbLower s label) :=
  match label with
  | .create userId r _ _ =>
    inferInstanceAs (Decidable
      (SpelledAlike dbLower s.accounts s.nextAccountId userId r.email))
  | .link userId claimed _ _ _ =>
    inferInstanceAs (Decidable
      (SpelledAlike dbLower s.accounts s.nextAccountId userId (linkedAddress pyLower claimed)))
  | .patch _ payload snapshot =>
    inferInstanceAs (Decidable (∀ a ∈ getById s.accounts snapshot.id,
      SpelledAlike dbLower s.accounts a.id a.userId (patchedEmail payload snapshot a)))
  | .look _ _ | .relink _ _ _ _ | .read _ | .delete _ => inferInstanceAs (Decidable True)

/-! ## The proof -/

section Step

variable {pyLower dbLower} {s s' : AddressState} {accounts accounts' : List MailAccount}

/-- The columns of the constraint. -/
def addressKey (a : MailAccount) : ℕ × Text := (a.userId, a.email)

/-- What a lookup compares. -/
def normalAddress (dbLower : Text → Text) (k : ℕ × Text) : ℕ × Text := (k.1, dbLower k.2)

/-- The rows of the table belong to different mailboxes. -/
def Apart (dbLower : Text → Text) (accounts : List MailAccount) : Prop :=
  NormalKey.Unique MailAccount.id addressKey (normalAddress dbLower) accounts

/-- The ids are those that the sequence has given out. -/
structure IdsInv (s : AddressState) : Prop where
  nodup : (s.accounts.map MailAccount.id).Nodup
  fresh : ∀ a ∈ s.accounts, a.id < s.nextAccountId

/-- The promise is that the rows are apart. -/
theorem oneMailbox_iff_apart (hn : (s.accounts.map MailAccount.id).Nodup) :
    OneMailbox pyLower dbLower s ↔ Apart dbLower s.accounts := by
  rw [Apart, NormalKey.unique_iff_length_filter_le_one hn]
  have hfilter (userId : ℕ) (address : Text) :
      (s.accounts.filter fun a => normalAddress dbLower (addressKey a) = (userId, address)) =
        s.accounts.filter fun a => a.userId = userId ∧ dbLower a.email = address := by
    simp only [normalAddress, addressKey, Prod.mk.injEq]
  constructor
  · rintro ⟨hrows, -⟩ ⟨userId, address⟩
    rw [hfilter]
    exact hrows userId address
  · intro h
    have hrows (userId : ℕ) (address : Text) :
        (s.accounts.filter fun a => a.userId = userId ∧ dbLower a.email = address).length ≤ 1 := by
      rw [← hfilter]
      exact h (userId, address)
    refine ⟨hrows, fun userId email => ?_⟩
    have hone := hrows userId (pyLower email)
    unfold findByUserEmail
    generalize (s.accounts.filter fun a => a.userId = userId ∧ dbLower a.email = pyLower email) =
      found at hone
    match found with
    | [] => simp
    | [a] => simp
    | a :: b :: bs => simp at hone

/-- A write that the constraint lets pass keeps the rows apart exactly when the other rows spell the
address alike. -/
theorem apart_put_iff (h : Apart dbLower accounts) {r : MailAccount}
    (hput : ∀ a, a ∈ accounts' ↔ a = r ∨ a ∈ accounts ∧ a.id ≠ r.id)
    (hfree : ¬ AddressTaken accounts r) :
    Apart dbLower accounts' ↔ SpelledAlike dbLower accounts r.id r.userId r.email := by
  have hfree' : ¬ NormalKey.Taken MailAccount.id addressKey accounts r.id (addressKey r) := by
    rintro ⟨b, hb, hne, hkey⟩
    exact hfree ⟨b, hb, hne, congrArg Prod.fst hkey, congrArg Prod.snd hkey⟩
  rw [Apart, NormalKey.unique_put_iff h hput hfree']
  simp only [NormalKey.SpelledAlike, SpelledAlike, normalAddress, addressKey, Prod.mk.injEq,
    and_imp]
  exact forall₃_congr fun b hb hne => forall_congr' fun huser =>
    forall_congr' fun hlower => and_iff_right huser

/-- What an insert does. -/
theorem insertRow_eq_some {a : MailAccount} (h : insertRow s a = some s') :
    s'.accounts = s.accounts ++ [a] ∧ s'.nextAccountId = s.nextAccountId + 1 ∧
      ¬ AddressTaken s.accounts a := by
  unfold insertRow insertWithId at h
  split_ifs at h with hlooked htexts hrefused
  obtain rfl := Option.some.inj h
  exact ⟨rfl, rfl, fun htaken => hrefused (Or.inr htaken)⟩

/-- What an update does. -/
theorem patchRow_eq_some {env : ExternalMailboxService.Env} {payload : ExternalMailboxUpdateRequest}
    {snapshot : MailAccount} (h : patchRow s env payload snapshot = some s') :
    ∃ a, getById s.accounts snapshot.id = some a ∧
      ¬ AddressTaken s.accounts (ExternalMailboxService.rowWrites env payload snapshot a) ∧
      s' = { s with
        accounts := updateWhereId s.accounts snapshot.id
          (ExternalMailboxService.rowWrites env payload snapshot) } := by
  unfold patchRow updateFields at h
  split_ifs at h with hcond
  cases hget : getById s.accounts snapshot.id with
  | none => exact absurd hget hcond.2.1
  | some a =>
    rw [hget] at h
    dsimp only at h
    split_ifs at h with htexts hrefused
    exact ⟨a, rfl, fun htaken => hrefused (Or.inr htaken), (Option.some.inj h).symm⟩

/-- The owner and the address that an update writes. -/
theorem rowWrites_address (env : ExternalMailboxService.Env)
    (payload : ExternalMailboxUpdateRequest) (snapshot a : MailAccount) :
    (ExternalMailboxService.rowWrites env payload snapshot a).userId = a.userId ∧
      (ExternalMailboxService.rowWrites env payload snapshot a).email =
        patchedEmail payload snapshot a := by
  rw [ExternalMailboxService.rowWrites_get MailAccount.userId (fun _ _ _ => by rw [setActive_eq]),
    ExternalMailboxService.rowWrites_get MailAccount.email (fun _ _ _ => by rw [setActive_eq])]
  by_cases hhas : payload.HasAccountFields
  · simp only [patchedEmail, hhas, true_and]
    cases hauth : snapshot.authType with
    | oauthOutlook =>
      rw [fieldWrites, hauth]
      rcases accountWrites_oauth (.ofExternal payload) hauth env.now a with hsame | ⟨_, -, hnamed⟩
      · simp [hsame]
      · simp [hnamed]
    | password =>
      rw [fieldWrites, hauth]
      exact ⟨rfl, rfl⟩
  · simp [hhas, patchedEmail]

/-- An insert keeps the ids apart. -/
theorem IdsInv.insert (hinv : IdsInv s) {a : MailAccount} (hid : a.id = s.nextAccountId)
    (h : insertRow s a = some s') : IdsInv s' := by
  obtain ⟨haccounts, hnext, -⟩ := insertRow_eq_some h
  constructor
  · rw [haccounts]
    exact nodup_map_id_insert hinv.nodup hinv.fresh hid
  · rw [haccounts, hnext]
    exact id_lt_of_mem_insert hinv.fresh hid

/-- A step keeps the ids apart.

**Proof sketch.** By cases on the label. An insert takes the next id from the sequence, so that it
differs from all ids of the table, which are smaller. An update keeps the ids, and a deletion takes
rows away. -/
theorem IdsInv.next (hinv : IdsInv s) {label : AddressLabel}
    (h : (addressSystem pyLower dbLower).next s label = some s') : IdsInv s' := by
  have hupdate {accountId : ℕ} {set : MailAccount → MailAccount} (hid : ∀ a, (set a).id = a.id) :
      IdsInv { s with accounts := updateWhereId s.accounts accountId set } := by
    constructor
    · rw [map_id_updateWhereId hid]
      exact hinv.nodup
    · intro b hb
      obtain ⟨a, ha, rfl⟩ := List.mem_map.mp hb
      split_ifs
      · rw [hid]
        exact hinv.fresh a ha
      · exact hinv.fresh a ha
  cases label with
  | look userId email =>
    simp only [addressSystem] at h
    split at h
    · obtain rfl := Option.some.inj h
      exact ⟨hinv.nodup, hinv.fresh⟩
    · cases h
  | create userId r displayName now => exact hinv.insert rfl h
  | link userId claimed tokens refreshToken now => exact hinv.insert rfl h
  | relink accountId tokens refreshToken now =>
    obtain rfl := Option.some.inj h
    exact hupdate fun _ => rfl
  | read accountId =>
    obtain ⟨a, -, rfl⟩ := Option.map_eq_some_iff.mp h
    exact ⟨hinv.nodup, hinv.fresh⟩
  | patch env payload snapshot =>
    obtain ⟨a, -, -, rfl⟩ := patchRow_eq_some h
    exact hupdate (ExternalMailboxService.rowWrites_id env payload snapshot)
  | delete accountId =>
    obtain rfl := Option.some.inj h
    exact ⟨hinv.nodup.sublist (List.filter_sublist.map _),
      fun a ha => hinv.fresh a (List.mem_of_mem_filter ha)⟩

/-- An insert keeps the rows apart exactly when the condition holds. -/
theorem apart_insert_iff (hinv : IdsInv s) (hapart : Apart dbLower s.accounts) {a : MailAccount}
    (hid : a.id = s.nextAccountId) (h : insertRow s a = some s') :
    Apart dbLower s'.accounts ↔
      SpelledAlike dbLower s.accounts s.nextAccountId a.userId a.email := by
  obtain ⟨haccounts, -, hfree⟩ := insertRow_eq_some h
  rw [haccounts, ← hid]
  refine apart_put_iff hapart (fun b => ?_) hfree
  rw [List.mem_append, List.mem_singleton, or_comm]
  refine or_congr_right ⟨fun hb => ⟨hb, ?_⟩, And.left⟩
  have hlt := hinv.fresh b hb
  omega

/-- **One step keeps one mailbox for an address exactly when it meets the condition.**

**Proof sketch.** By cases on the label. A lookup, a read and a re-link change no address, and a
deletion takes rows away. An insert and an update put one row into the table whose owner and address
are given; the rows stay apart exactly if every other row of this owner with this normal form has
the same spelling, which the constraint has excluded. -/
theorem oneMailbox_next_iff {label : AddressLabel} (hinv : IdsInv s)
    (hone : OneMailbox pyLower dbLower s)
    (h : (addressSystem pyLower dbLower).next s label = some s') :
    OneMailbox pyLower dbLower s' ↔ SpellingKept pyLower dbLower s label := by
  have hapart := (oneMailbox_iff_apart hinv.nodup).mp hone
  rw [oneMailbox_iff_apart (hinv.next h).nodup]
  cases label with
  | look userId email =>
    simp only [addressSystem] at h
    split at h
    · obtain rfl := Option.some.inj h
      exact iff_of_true hapart trivial
    · cases h
  | create userId r displayName now => exact apart_insert_iff hinv hapart rfl h
  | link userId claimed tokens refreshToken now => exact apart_insert_iff hinv hapart rfl h
  | relink accountId tokens refreshToken now =>
    obtain rfl := Option.some.inj h
    refine iff_of_true ?_ trivial
    intro a' ha' b' hb' hnorm
    obtain ⟨a, ha, rfl⟩ := List.mem_map.mp ha'
    obtain ⟨b, hb, rfl⟩ := List.mem_map.mp hb'
    have hid := hapart a ha b hb
    split_ifs at hnorm ⊢ <;> exact hid hnorm
  | read accountId =>
    obtain ⟨a, -, rfl⟩ := Option.map_eq_some_iff.mp h
    exact iff_of_true hapart trivial
  | patch env payload snapshot =>
    obtain ⟨a, hget, hfree, rfl⟩ := patchRow_eq_some h
    obtain ⟨huser, hemail⟩ := rowWrites_address env payload snapshot a
    have ha : a ∈ s.accounts := mem_of_getById hget
    have hsnapshot : a.id = snapshot.id := id_of_getById hget
    have hput := mem_updateWhereId (ExternalMailboxService.rowWrites env payload snapshot)
      hinv.nodup ha
    have hiff := apart_put_iff hapart (by simpa using hput) hfree
    rw [hsnapshot] at hiff
    simp only [SpellingKept, hget, Option.mem_def, Option.some.injEq, forall_eq']
    simpa [huser, hemail, hsnapshot] using hiff
  | delete accountId =>
    obtain rfl := Option.some.inj h
    exact iff_of_true (hapart.mono fun a ha => List.mem_of_mem_filter ha) trivial

end Step

/-- **When an owner has one mailbox for an address.** A run from an empty table has at most one row
for each owner and each address in all its states, and lookups that do not raise, exactly when each
of its writes meets the condition.

**Proof sketch.** The rows differ in the normal forms of their addresses. A write puts one row into
the table that the constraint compares with the others: the normal forms are still different exactly
when every row with the normal form of the new address has the address itself, which the constraint
has excluded. The ids come from a sequence, so that different rows have different ids. -/
theorem oneMailbox_iff (pyLower dbLower : Text → Text) {s t : AddressState}
    {labels : List AddressLabel} (hinit : (addressSystem pyLower dbLower).init s)
    (hrun : (addressSystem pyLower dbLower).run s labels = some t) :
    (addressSystem pyLower dbLower).Along (OneMailbox pyLower dbLower) s labels ↔
      (addressSystem pyLower dbLower).Meets (SpellingKept pyLower dbLower) s labels := by
  obtain ⟨haccounts, -, -⟩ := hinit
  refine System.along_iff_meets (I := IdsInv) (fun s label s' hinv h => hinv.next h)
    (fun s label s' hinv hone h => oneMailbox_next_iff hinv hone h) ⟨?_, ?_⟩ ⟨?_, ?_⟩ hrun
  · simp [haccounts]
  · simp [haccounts]
  · simp [haccounts]
  · simp [haccounts, findByUserEmail]

/-! ## Lookups before inserts -/

/-- An insert right after its lookup meets the condition, if Python and the database lower the
address alike. -/
theorem spelledAlike_of_look {pyLower dbLower : Text → Text} {accounts : List MailAccount}
    {userId : ℕ} {email : Text} (hlower : dbLower email = pyLower email)
    (h : findByUserEmail pyLower dbLower accounts userId email = .ok none) (accountId : ℕ) :
    SpelledAlike dbLower accounts accountId userId email := by
  unfold findByUserEmail at h
  split at h
  · next hnone =>
    intro b hb _ huser haddress
    have hfound : b ∈ accounts.filter fun a =>
        a.userId = userId ∧ dbLower a.email = pyLower email :=
      List.mem_filter.mpr ⟨hb, decide_eq_true ⟨huser, haddress.trans hlower⟩⟩
    rw [hnone] at hfound
    cases hfound
  · cases h
  · cases h

/-! ## Two mailboxes -/

/-- The table is empty. -/
def emptyTable : AddressState where
  accounts := []
  nextAccountId := 1
  lookedFor := []
  snapshots := []

/-- The credentials of a mailbox. -/
def loginRequest (email : Text) : MailAccountTestRequest where
  email
  password := "secret".toList
  imapHost := "imap.example.com".toList
  imapPort := 993
  imapSsl := true
  smtpHost := "smtp.example.com".toList
  smtpPort := 465
  smtpSsl := true
  smtpStarttls := false
  smtpUsername := none
  smtpPassword := none

/-- Two mailboxes of an owner are created. -/
def twoCreated : List AddressLabel :=
  [.look 1 "a@example.com".toList, .create 1 (loginRequest "a@example.com".toList) none 0,
    .look 1 "b@example.com".toList, .create 1 (loginRequest "b@example.com".toList) none 0]

/-- The row of the second one. -/
def secondRow : MailAccount := createdRow 2 1 (loginRequest "b@example.com".toList) none 0

/-- An update of an address. -/
def renameTo (email : Text) (h : ({ email := some email } : AccountFields).InBounds) :
    ExternalMailboxUpdateRequest where
  email := some email
  isActive := none
  setIsActive := false
  inBounds := h

/-- An update that submits a third address. -/
def thirdAddress : ExternalMailboxUpdateRequest := renameTo "c@example.com".toList (by decide)

/-- The second mailbox gets a third address. -/
def renamed : List AddressLabel :=
  twoCreated ++ [.read 2, .patch ExternalMailboxService.openEnv thirdAddress secondRow]

/-- **Another address**: through two creates and an update of an address, each owner has one mailbox
for each address. -/
theorem oneMailbox_renamed :
    (addressSystem lower lower).Along (OneMailbox lower lower) emptyTable renamed ∧
      ((addressSystem lower lower).run emptyTable renamed).map
        (fun t => t.accounts.map MailAccount.email) =
          some ["a@example.com".toList, "c@example.com".toList] := by
  obtain ⟨t, hrun, hmeets⟩ : ∃ t, (addressSystem lower lower).run emptyTable renamed = some t ∧
      ((addressSystem lower lower).restrict (SpellingKept lower lower)).run emptyTable renamed =
        some t := ⟨_, rfl, rfl⟩
  exact ⟨(oneMailbox_iff lower lower ⟨rfl, rfl, rfl⟩ hrun).mpr (System.meets_of_restrict hmeets),
    rfl⟩

/-- **A second spelling**: of two mailboxes of an owner, the second one gets the address of the
first one with a capital letter. -/
theorem second_spelling :
    ¬ ∀ (s t : AddressState) (labels : List AddressLabel), (addressSystem lower lower).init s →
      (addressSystem lower lower).run s labels = some t → OneMailbox lower lower t := by
  intro h
  obtain ⟨t, hrun, hlookup⟩ : ∃ t, (addressSystem lower lower).run emptyTable
      (twoCreated ++
        [.read 2, .patch ExternalMailboxService.openEnv
          (renameTo "A@example.com".toList (by decide)) secondRow]) = some t ∧
      findByUserEmail lower lower t.accounts 1 "a@example.com".toList =
        .error .multipleResultsFound := ⟨_, rfl, rfl⟩
  exact (h emptyTable t _ ⟨rfl, rfl, rfl⟩ hrun).lookup 1 "a@example.com".toList hlookup

end Addresses

end MailAggregator
