import MailAggregator.Worker.ImapFetcher

set_option relaxedAutoImplicit false
set_option autoImplicit false

/-!
# The server's INBOX

What a sync sees of an IMAP server: the messages of the INBOX, its UIDVALIDITY and its UIDNEXT.

## Main definitions

* `MailAggregator.ImapServer` — an INBOX whose UIDs lie below its UIDNEXT.
* `MailAggregator.ImapServer.arrive`, `expunge`, `changeUidvalidity` — what happens to it.
* `MailAggregator.ImapServer.sinceUids`, `uidRange` — the answers to the two searches.
* `MailAggregator.ImapServer.Evolves` — what a later INBOX can be.
-/

namespace MailAggregator

open PyText ImapFetcher

/-- A message of the INBOX. `internalDay` is the day that `SINCE` compares. -/
structure ServerMessage where
  uid : ℕ
  internalDay : ℤ
  content : MailMessage
  deriving DecidableEq, Repr

/-- The message as `imap-tools` returns it. -/
def ServerMessage.toMail (m : ServerMessage) : MailMessage := { m.content with uid := some m.uid }

/-- An INBOX. -/
structure ImapServer where
  uidvalidity : ℕ
  /-- The UIDVALIDITY values the INBOX has had before. -/
  pastUidvalidities : List ℕ := []
  uidnext : ℕ
  inbox : List ServerMessage
  uid_lt_uidnext : ∀ m ∈ inbox, m.uid < uidnext

namespace ImapServer

/-- The UIDVALIDITY values up to now. -/
def usedUidvalidities (S : ImapServer) : List ℕ := S.uidvalidity :: S.pastUidvalidities

/-- A message arrives, with a UID that is at least UIDNEXT. -/
def arrive (S : ImapServer) (gap : ℕ) (internalDay : ℤ) (content : MailMessage) : ImapServer :=
  { S with
    uidnext := S.uidnext + gap + 1
    inbox := S.inbox ++ [{ uid := S.uidnext + gap, internalDay, content }]
    uid_lt_uidnext := by
      intro m hm
      rcases List.mem_append.mp hm with hm | hm
      · have := S.uid_lt_uidnext m hm
        omega
      · obtain rfl := List.mem_singleton.mp hm
        exact Nat.lt_succ_self _ }

/-- A message is expunged. -/
def expunge (S : ImapServer) (uid : ℕ) : ImapServer :=
  { S with
    inbox := S.inbox.filter fun m => m.uid ≠ uid
    uid_lt_uidnext := fun m hm => S.uid_lt_uidnext m (List.mem_of_mem_filter hm) }

/-- The INBOX gets a UIDVALIDITY it has not had before, and with it new UIDs. -/
def changeUidvalidity (S : ImapServer) (uidvalidity uidnext : ℕ) (inbox : List ServerMessage) :
    Option ImapServer :=
  if h : uidvalidity ∉ S.usedUidvalidities ∧ ∀ m ∈ inbox, m.uid < uidnext then
    some
      { uidvalidity, uidnext, inbox
        pastUidvalidities := S.usedUidvalidities
        uid_lt_uidnext := h.2 }
  else none

/-- `UID SEARCH SINCE day`. -/
def sinceUids (S : ImapServer) (day : ℤ) : List ℕ :=
  (S.inbox.filter fun m => day ≤ m.internalDay).map ServerMessage.uid

/-- `UID SEARCH UID n:*`. The range also covers the last message when its UID is below `n`. -/
def uidRange (S : ImapServer) (n : ℕ) (withLast : Bool) : List ℕ :=
  let uids := (S.inbox.filter fun m => n ≤ m.uid).map ServerMessage.uid
  if withLast then uids ++ ((S.inbox.map ServerMessage.uid).getLast?.toList) else uids

/-- `UID FETCH` of some UIDs; a UID that is not in the INBOX any more has no reply. -/
def fetch (S : ImapServer) (uids : List ℕ) : List ServerMessage :=
  S.inbox.filter fun m => m.uid ∈ uids

theorem uid_mem_sinceUids {S : ImapServer} {day : ℤ} {m : ServerMessage} (hm : m ∈ S.inbox)
    (h : day ≤ m.internalDay) : m.uid ∈ S.sinceUids day :=
  List.mem_map_of_mem (List.mem_filter.mpr ⟨hm, decide_eq_true h⟩)

theorem lt_uidnext_of_mem_sinceUids {S : ImapServer} {day : ℤ} {u : ℕ}
    (h : u ∈ S.sinceUids day) : u < S.uidnext := by
  obtain ⟨m, hm, rfl⟩ := List.mem_map.mp h
  exact S.uid_lt_uidnext m (List.mem_of_mem_filter hm)

/-- The UIDs an incremental search keeps include the messages from the watermark on. -/
theorem uid_mem_incrementalUids {S : ImapServer} {n : ℕ} {withLast : Bool} {m : ServerMessage}
    (hm : m ∈ S.inbox) (h : n ≤ m.uid) :
    m.uid ∈ incrementalUids n (S.uidRange n withLast) := by
  have hrange : m.uid ∈ (S.inbox.filter fun m => n ≤ m.uid).map ServerMessage.uid :=
    List.mem_map_of_mem (List.mem_filter.mpr ⟨hm, decide_eq_true h⟩)
  rw [incrementalUids, List.mem_filter, decide_eq_true_eq]
  refine ⟨?_, h⟩
  unfold uidRange
  cases withLast with
  | true => exact List.mem_append_left _ hrange
  | false => exact hrange

theorem lt_uidnext_of_mem_incrementalUids {S : ImapServer} {n : ℕ} {withLast : Bool} {u : ℕ}
    (h : u ∈ incrementalUids n (S.uidRange n withLast)) : u < S.uidnext := by
  have huids : ∀ w ∈ S.inbox.map ServerMessage.uid, w < S.uidnext := by
    intro w hw
    obtain ⟨m, hm, rfl⟩ := List.mem_map.mp hw
    exact S.uid_lt_uidnext m hm
  have hrange : ∀ w ∈ (S.inbox.filter fun m => n ≤ m.uid).map ServerMessage.uid,
      w < S.uidnext :=
    fun w hw => huids w (List.map_subset _ (List.filter_subset_self _) hw)
  have hu : u ∈ S.uidRange n withLast := List.mem_of_mem_filter h
  unfold uidRange at hu
  cases withLast with
  | true =>
    rcases List.mem_append.mp hu with hu | hu
    · exact hrange u hu
    · exact huids u (List.mem_of_getLast? (Option.mem_toList.mp hu))
  | false => exact hrange u hu

/-! ## Later states of the INBOX -/

/-- **What a later INBOX can be.** A UIDVALIDITY that was used is not used again after another
one, and as long as it stays, UIDNEXT does not fall and new messages have UIDs from UIDNEXT
on. -/
structure Evolves (S T : ImapServer) : Prop where
  used : S.usedUidvalidities ⊆ T.usedUidvalidities
  uidvalidity : ∀ v ∈ S.usedUidvalidities, T.uidvalidity = v → S.uidvalidity = v
  uidnext : T.uidvalidity = S.uidvalidity → S.uidnext ≤ T.uidnext
  inbox : T.uidvalidity = S.uidvalidity → ∀ m ∈ T.inbox, m ∈ S.inbox ∨ S.uidnext ≤ m.uid

theorem Evolves.refl (S : ImapServer) : Evolves S S where
  used := List.Subset.refl _
  uidvalidity _ _ h := h
  uidnext _ := le_rfl
  inbox _ _ hm := Or.inl hm

theorem evolves_arrive (S : ImapServer) (gap : ℕ) (internalDay : ℤ) (content : MailMessage) :
    Evolves S (S.arrive gap internalDay content) where
  used := List.Subset.refl _
  uidvalidity _ _ h := h
  uidnext _ := by
    show S.uidnext ≤ S.uidnext + gap + 1
    omega
  inbox _ m hm := by
    rcases List.mem_append.mp hm with hm | hm
    · exact Or.inl hm
    · obtain rfl := List.mem_singleton.mp hm
      exact Or.inr (Nat.le_add_right _ _)

theorem evolves_expunge (S : ImapServer) (uid : ℕ) : Evolves S (S.expunge uid) where
  used := List.Subset.refl _
  uidvalidity _ _ h := h
  uidnext _ := le_rfl
  inbox _ _ hm := Or.inl (List.mem_of_mem_filter hm)

theorem evolves_changeUidvalidity {S T : ImapServer} {uidvalidity uidnext : ℕ}
    {inbox : List ServerMessage} (h : S.changeUidvalidity uidvalidity uidnext inbox = some T) :
    Evolves S T := by
  unfold changeUidvalidity at h
  split_ifs at h with hnew
  obtain rfl := Option.some.inj h
  have hne : uidvalidity ≠ S.uidvalidity := fun h => hnew.1 (h ▸ List.mem_cons_self)
  refine ⟨List.subset_cons_self _ _, fun v hv hT => ?_, fun hT => absurd hT hne,
    fun hT => absurd hT hne⟩
  exact absurd hv (hT ▸ hnew.1)

end ImapServer

end MailAggregator
