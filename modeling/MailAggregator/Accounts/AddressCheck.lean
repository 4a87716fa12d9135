import MailAggregator.Accounts.Probe

set_option relaxedAutoImplicit false
set_option autoImplicit false

/-!
# Which addresses are stored

A create checks the shape of the address, and so does the probe of an update with new credentials.
An update without them writes the address as it comes, and a link writes what the identity token
claims, if there is an `@` in it.

## Main definitions

* `MailAggregator.ValidAddress` — the check of a create.
* `MailAggregator.Addresses.storedSystem` — creates, links, re-links, updates and deletes.
* `MailAggregator.Addresses.AddressChecked` — the condition on a write.

## Main results

* `MailAggregator.Addresses.validAddresses_iff` — which runs store valid addresses only.
* `MailAggregator.Addresses.address_unchecked` — an update that stores another one.
-/

namespace MailAggregator

open PyText MailAccountsRepo MailAccountService Transition

/-- The check of a create: the bounds and the shape of an address. -/
def ValidAddress (email : Text) : Prop :=
  (3 ≤ email.length ∧ email.length ≤ 254) ∧ IsAddress email

instance (email : Text) : Decidable (ValidAddress email) :=
  inferInstanceAs (Decidable (_ ∧ _))

/-- An accepted set of credentials has a valid address. -/
theorem MailAccountTestRequest.Accepted.validAddress {r : MailAccountTestRequest}
    (h : r.Accepted) : ValidAddress r.email := by
  obtain ⟨hlength, -, -, -, -, -, -, -, -, haddress⟩ := h
  exact ⟨hlength, haddress⟩

/-- The probe of an update has checked the address that is written. -/
theorem MailAccountService.validAddress_of_probe {servers : MailServers}
    {payload : MailAccountUpdateRequest} {acc : MailAccount}
    (h : probe servers payload acc = .ok ()) : ValidAddress (resolve payload acc).email := by
  unfold probe at h
  split at h
  · cases h
  · next passwords _ =>
    simp only at h
    split_ifs at h with haccepted
    exact haccepted.validAddress

namespace Addresses

/-! ## The writers -/

/-- The steps, with the requests and claims that the schemas and the callback let through. -/
inductive StoredLabel where
  | look (userId : ℕ) (email : Text)
  | create (userId : ℕ) (payload : MailAccountCreateRequest) (now : Instant)
  | link (userId : ℕ) (claimed : Text) (hclaimed : '@' ∈ claimed) (tokens : TokenResponse)
    (refreshToken : Text) (now : Instant)
  | relink (accountId : ℕ) (tokens : TokenResponse) (refreshToken : Text) (now : Instant)
  | read (accountId : ℕ)
  | patch (env : ExternalMailboxService.Env) (payload : ExternalMailboxUpdateRequest)
    (snapshot : MailAccount)
  | delete (accountId : ℕ)

/-- The step of the table. -/
def StoredLabel.toAddressLabel : StoredLabel → AddressLabel
  | look userId email => .look userId email
  | create userId payload now =>
    .create userId payload.toMailAccountTestRequest payload.displayName now
  | link userId claimed _ tokens refreshToken now => .link userId claimed tokens refreshToken now
  | relink accountId tokens refreshToken now => .relink accountId tokens refreshToken now
  | read accountId => .read accountId
  | patch env payload snapshot => .patch env payload snapshot
  | delete accountId => .delete accountId

variable (pyLower dbLower : Text → Text)

/-- Creates, links, re-links, updates and deletes, from an empty table. -/
def storedSystem : System AddressState StoredLabel where
  init := (addressSystem pyLower dbLower).init
  next s label := (addressSystem pyLower dbLower).next s label.toAddressLabel

/-- **Every stored address is valid.** -/
def ValidAddresses (s : AddressState) : Prop := ∀ a ∈ s.accounts, ValidAddress a.email

/-- **The condition on a write.** An update of a password account without new credentials submits no
other than a valid address, and a link has got one. -/
def AddressChecked : StoredLabel → Prop
  | .link _ claimed _ _ _ _ => ValidAddress (linkedAddress pyLower claimed)
  | .patch _ payload snapshot =>
    snapshot.authType = .password → ¬ CredsChanged (.ofExternal payload) →
      Submitted payload.email → ∀ email ∈ payload.email, ValidAddress email
  | _ => True

instance (label : StoredLabel) : Decidable (AddressChecked pyLower label) :=
  match label with
  | .link _ claimed _ _ _ _ =>
    inferInstanceAs (Decidable (ValidAddress (linkedAddress pyLower claimed)))
  | .patch _ payload snapshot =>
    inferInstanceAs (Decidable (snapshot.authType = .password →
      ¬ CredsChanged (.ofExternal payload) → Submitted payload.email →
        ∀ email ∈ payload.email, ValidAddress email))
  | .look _ _ | .create _ _ _ | .relink _ _ _ _ | .read _ | .delete _ =>
    inferInstanceAs (Decidable True)

/-! ## The proof -/

section Step

variable {pyLower dbLower} {s s' : AddressState}

/-- The rows that updates have read have valid addresses. -/
def ValidSnapshots (s : AddressState) : Prop := ∀ a ∈ s.snapshots, ValidAddress a.email

/-- A row is inserted with a valid address or not. -/
theorem validAddresses_insert_iff (hvalid : ValidAddresses s) {a : MailAccount}
    (h : insertRow s a = some s') : ValidAddresses s' ↔ ValidAddress a.email := by
  obtain ⟨hrows, -, -⟩ := insertRow_eq_some h
  rw [ValidAddresses, hrows]
  constructor
  · intro hall
    exact hall a (by simp)
  · intro ha b hb
    rcases List.mem_append.mp hb with hb | hb
    · exact hvalid b hb
    · obtain rfl := List.mem_singleton.mp hb
      exact ha

/-- An update that is committed has read its row, and has succeeded on it. -/
theorem snapshot_of_patchRow {env : ExternalMailboxService.Env}
    {payload : ExternalMailboxUpdateRequest} {snapshot : MailAccount}
    (h : patchRow s env payload snapshot = some s') :
    snapshot ∈ s.snapshots ∧ ∃ accounts' after,
      ExternalMailboxService.update env [snapshot] snapshot.id payload =
        .ok (accounts', after) := by
  unfold patchRow at h
  split_ifs at h with hcond
  obtain ⟨hread, -, hok⟩ := hcond
  refine ⟨hread, ?_⟩
  cases hupdate : ExternalMailboxService.update env [snapshot] snapshot.id payload with
  | error e =>
    rw [hupdate] at hok
    cases hok
  | ok result => exact ⟨result.1, result.2, rfl⟩

/-- **The address that an update writes** is valid if the condition is met. -/
theorem validAddress_patchedEmail {env : ExternalMailboxService.Env}
    {payload : ExternalMailboxUpdateRequest} {snapshot a : MailAccount}
    (h : patchRow s env payload snapshot = some s') (hsnapshots : ValidSnapshots s)
    (ha : ValidAddress a.email) (hchecked : AddressChecked pyLower (.patch env payload snapshot)) :
    ValidAddress (patchedEmail payload snapshot a) := by
  obtain ⟨hread, accounts', after, hupdate⟩ := snapshot_of_patchRow h
  rw [patchedEmail]
  split_ifs with hfields
  · by_cases hcreds : CredsChanged (.ofExternal payload)
    · exact validAddress_of_probe
        (probe_of_update (by simp [getById]) hfields.2 hcreds hupdate)
    · cases hemail : payload.email with
      | none => exact hsnapshots snapshot hread
      | some email =>
        cases email with
        | nil => exact hsnapshots snapshot hread
        | cons c rest =>
          refine hchecked hfields.2 hcreds ?_ (c :: rest) hemail
          simp [Submitted, hemail]
  · exact ha

/-- **A step keeps the addresses valid** exactly when it meets the condition.

**Proof sketch.** By cases on the label. A create has an address that its schema has accepted, a
link writes its claim, and a re-link and a deletion change no address. An update writes an address
to its row alone: the submitted one if it is a password account, else the one of the row; the lemma
about what it writes gives one direction, and the row that is written gives the other. -/
theorem validAddresses_next_iff (hvalid : ValidAddresses s) (hsnapshots : ValidSnapshots s)
    {label : StoredLabel} (h : (storedSystem pyLower dbLower).next s label = some s') :
    ValidAddresses s' ↔ AddressChecked pyLower label := by
  cases label with
  | look userId email =>
    simp only [storedSystem, StoredLabel.toAddressLabel, addressSystem] at h
    split at h
    · obtain rfl := Option.some.inj h
      exact iff_of_true hvalid trivial
    · cases h
  | create userId payload now =>
    rw [validAddresses_insert_iff hvalid h]
    exact iff_of_true payload.accepted.validAddress trivial
  | link userId claimed hclaimed tokens refreshToken now => exact validAddresses_insert_iff hvalid h
  | relink accountId tokens refreshToken now =>
    obtain rfl := Option.some.inj h
    refine iff_of_true ?_ trivial
    intro b hb
    obtain ⟨a, ha, rfl⟩ := List.mem_map.mp hb
    split_ifs <;> exact hvalid a ha
  | read accountId =>
    obtain ⟨a, -, rfl⟩ := Option.map_eq_some_iff.mp h
    exact iff_of_true hvalid trivial
  | patch env payload snapshot =>
    obtain ⟨a, hget, -, rfl⟩ := patchRow_eq_some h
    have ha : a ∈ s.accounts := mem_of_getById hget
    constructor
    · intro hall hauth hcreds hsubmitted email hemail
      have hhas : payload.HasAccountFields := Or.inl hsubmitted.1
      have hwritten := hall (ExternalMailboxService.rowWrites env payload snapshot a)
        (List.mem_map.mpr ⟨a, ha, if_pos (id_of_getById hget)⟩)
      rw [(rowWrites_address env payload snapshot a).2, patchedEmail, if_pos ⟨hhas, hauth⟩,
        hemail] at hwritten
      cases email with
      | nil => exact absurd hemail hsubmitted.2
      | cons c rest => exact hwritten
    · intro hchecked b hb
      obtain ⟨c, hc, rfl⟩ := List.mem_map.mp hb
      split_ifs
      · rw [(rowWrites_address env payload snapshot c).2]
        exact validAddress_patchedEmail h hsnapshots (hvalid c hc) hchecked
      · exact hvalid c hc
  | delete accountId =>
    obtain rfl := Option.some.inj h
    exact iff_of_true (fun a ha => hvalid a (List.mem_of_mem_filter ha)) trivial

/-- The rows that updates read are rows of the table.

**Proof sketch.** Only a read adds a snapshot, and it is a row of the table, whose address is valid.
Every other step leaves the snapshots as they are. -/
theorem validSnapshots_next (hvalid : ValidAddresses s) (hsnapshots : ValidSnapshots s)
    {label : StoredLabel} (h : (storedSystem pyLower dbLower).next s label = some s') :
    ValidSnapshots s' := by
  have hinsert {a : MailAccount} (hrow : insertRow s a = some s') : ValidSnapshots s' := by
    unfold insertRow at hrow
    split_ifs at hrow
    split at hrow
    · cases hrow
    · obtain rfl := Option.some.inj hrow
      exact hsnapshots
  cases label with
  | look userId email =>
    simp only [storedSystem, StoredLabel.toAddressLabel, addressSystem] at h
    split at h
    · obtain rfl := Option.some.inj h
      exact hsnapshots
    · cases h
  | create userId payload now => exact hinsert h
  | link userId claimed hclaimed tokens refreshToken now => exact hinsert h
  | relink accountId tokens refreshToken now =>
    obtain rfl := Option.some.inj h
    exact hsnapshots
  | read accountId =>
    obtain ⟨a, hget, rfl⟩ := Option.map_eq_some_iff.mp h
    intro b hb
    rcases List.mem_cons.mp hb with rfl | hb
    · exact hvalid b (mem_of_getById hget)
    · exact hsnapshots b hb
  | patch env payload snapshot =>
    obtain ⟨a, -, -, rfl⟩ := patchRow_eq_some h
    exact hsnapshots
  | delete accountId =>
    obtain rfl := Option.some.inj h
    exact hsnapshots

end Step

/-- **When stored addresses are valid.** A run from an empty table has valid addresses only in all
its states exactly when each of its writes meets the condition.

**Proof sketch.** A create has been checked by its schema, and the probe of an update with new
credentials checks the address that the update writes, submitted or read before. Without new
credentials the update writes the submitted address, or the one of the row that it has read, which
is valid if all rows have been. A link writes its claim. -/
theorem validAddresses_iff {s t : AddressState} {labels : List StoredLabel}
    (hinit : (storedSystem pyLower dbLower).init s)
    (hrun : (storedSystem pyLower dbLower).run s labels = some t) :
    (storedSystem pyLower dbLower).Along ValidAddresses s labels ↔
      (storedSystem pyLower dbLower).Meets (fun _ label => AddressChecked pyLower label) s
        labels := by
  obtain ⟨haccounts, -, hsnapshots⟩ := hinit
  have hvalid : ValidAddresses s := by simp [ValidAddresses, haccounts]
  have hread : ValidSnapshots s := by simp [ValidSnapshots, hsnapshots]
  rw [System.along_and_iff (fun s label s' hv hs hn => validSnapshots_next hv hs hn) hread]
  refine System.along_iff_meets (I := fun _ => True) (fun _ _ _ _ _ => trivial)
    (fun s label s' _ hboth hn => ?_) trivial ⟨hvalid, hread⟩ hrun
  rw [← validAddresses_next_iff hboth.1 hboth.2 hn]
  exact and_iff_left (validSnapshots_next hboth.1 hboth.2 hn)

/-! ## A text that is no address -/

/-- A create with an address. -/
def firstMailbox : MailAccountCreateRequest :=
  { loginRequest "a@example.com".toList with
    displayName := none
    targetUserId := none
    accepted := by decide
    scrubbed := rfl
    displayName_ok := nofun }

/-- The claim of an identity token, in capital letters and with blanks around it. -/
def claimedAddress : Text := " B@outlook.com ".toList

theorem at_mem_claimedAddress : '@' ∈ claimedAddress := by decide

/-- A mailbox is created and a second one is linked, and the first one gets another address. -/
def createdLinkedRenamed : List StoredLabel :=
  [.look 1 "a@example.com".toList, .create 1 firstMailbox 0, .look 1 "b@outlook.com".toList,
    .link 1 claimedAddress at_mem_claimedAddress
      { accessToken := "access".toList, refreshToken := some "refresh".toList }
      "refresh".toList 0,
    .read 1, .patch ExternalMailboxService.openEnv thirdAddress
      (createdRow 1 1 firstMailbox.toMailAccountTestRequest none 0)]

/-- **Valid addresses**: the run has valid addresses only in all its states, and ends with the
submitted address and the claim in lower case. -/
theorem validAddresses_renamed :
    (storedSystem lower lower).Along ValidAddresses emptyTable createdLinkedRenamed ∧
      ((storedSystem lower lower).run emptyTable createdLinkedRenamed).map
        (fun t => t.accounts.map MailAccount.email) =
          some ["c@example.com".toList, "b@outlook.com".toList] := by
  obtain ⟨t, hrun, hmeets⟩ : ∃ t,
      (storedSystem lower lower).run emptyTable createdLinkedRenamed = some t ∧
        ((storedSystem lower lower).restrict fun _ label => AddressChecked lower label).run
          emptyTable createdLinkedRenamed = some t := ⟨_, rfl, rfl⟩
  exact ⟨(validAddresses_iff lower lower ⟨rfl, rfl, rfl⟩ hrun).mpr
    (System.meets_of_restrict hmeets), rfl⟩

/-- **An unchecked address**: the update commits, and its text is stored. -/
theorem address_unchecked :
    ¬ ∀ (s t : AddressState) (labels : List StoredLabel), (storedSystem lower lower).init s →
      (storedSystem lower lower).run s labels = some t → ValidAddresses t := by
  intro h
  obtain ⟨t, hrun, hstored⟩ : ∃ t, (storedSystem lower lower).run emptyTable
      [.look 1 "a@example.com".toList, .create 1 firstMailbox 0, .read 1,
        .patch ExternalMailboxService.openEnv (renameTo "nonsense".toList (by decide))
          (createdRow 1 1 firstMailbox.toMailAccountTestRequest none 0)] = some t ∧
      t.accounts.map MailAccount.email = ["nonsense".toList] := ⟨_, rfl, rfl⟩
  have hvalid := h emptyTable t _ ⟨rfl, rfl, rfl⟩ hrun
  have hmem : "nonsense".toList ∈ t.accounts.map MailAccount.email := by
    rw [hstored]
    exact List.mem_singleton.mpr rfl
  obtain ⟨a, ha, hemail⟩ := List.mem_map.mp hmem
  have hbad := hvalid a ha
  rw [hemail] at hbad
  exact absurd hbad (by decide)

end Addresses

end MailAggregator
