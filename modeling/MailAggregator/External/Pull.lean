import MailAggregator.External.Service
import MailAggregator.Lib.Transition
import Mathlib.Logic.Function.Basic

set_option relaxedAutoImplicit false
set_option autoImplicit false

/-!
# Forward pulls against concurrent inserts

A consumer walks the messages by repeated forward requests while insert transactions of several
mailboxes are open. An id is drawn from one shared sequence when its row is inserted, the row
becomes visible when its transaction commits, and transactions commit in any order. So a page can
carry the cursor past the id of a row that is not visible yet, and the row is never returned.

## Main definitions

* `MailAggregator.PullSetup.system` — the transactions, deletions and pulls as a transition
  system.
* `MailAggregator.PullSetup.ExactlyOnce` — every visible message up to the cursor has been
  returned exactly once.
* `MailAggregator.PullSetup.PassesNoOpenRow` — the page of a pull passes no uncommitted row.

## Main results

* `MailAggregator.PullSetup.exactlyOnce_of_passesNoOpenRow` — pulls that pass no uncommitted row
  leave no gap and repeat nothing.
* `MailAggregator.PullSetup.pull_gap` — other pulls can leave a gap.

## Design

The forward page is the one of `ExternalMessagesService.listMessages`, applied to the committed
rows. The invariant `PullInv` keeps every uncommitted row of an effective mailbox beyond the
cursor; the pull is the only step that can break it.
-/

namespace MailAggregator

open PyText Transition

/-- What stays fixed while the consumer walks: the database's `lower`, the mailboxes, and the
mailbox filter of the consumer. -/
structure PullSetup where
  lower : Text → Text
  accounts : List MailAccount
  /-- `id` is the primary key. -/
  accounts_nodup : (accounts.map MailAccount.id).Nodup
  mailAccountIds : Option (List ℕ)

/-- The committed rows, the id sequence, the open insert transactions and the consumer. -/
structure PullState where
  messages : List Message
  /-- The next value of the id sequence. -/
  nextId : ℕ
  /-- The rows of the open insert transaction of a mailbox, if it has one. -/
  openTx : ℕ → Option (List Message)
  /-- The `since_id` of the consumer's next request. -/
  cursor : ℕ
  /-- What the consumer has been returned so far. -/
  received : List ExternalMessageDTO

/-- The uncommitted rows of a mailbox. -/
def PullState.rows (s : PullState) (a : ℕ) : List Message := (s.openTx a).getD []

/-- The steps of the transactions, of deletion and of the consumer. -/
inductive PullLabel where
  | begin (mailAccountId : ℕ)
  | insert (mailAccountId : ℕ) (now : Instant) (v : MessageValues)
  | commit (mailAccountId : ℕ)
  | abort (mailAccountId : ℕ)
  | delete (ids : List ℕ)
  | pull (limit : ℕ)

namespace PullSetup

variable (P : PullSetup)

/-- The effective mailboxes of the consumer. -/
def effective : List ℕ :=
  ExternalMessagesService.resolveAccountIds P.lower P.accounts P.mailAccountIds

/-- One insert of the open transaction of a mailbox. A refused row aborts the transaction. -/
def insertRow (s : PullState) (a : ℕ) (now : Instant) (v : MessageValues)
    (rows : List Message) : PullState :=
  match MessagesRepo.insertMessageIdempotent (s.messages ++ rows) s.nextId now
      { v with mailAccountId := a } with
  | .error _ => { s with nextId := s.nextId + 1, openTx := Function.update s.openTx a none }
  | .ok none => { s with nextId := s.nextId + 1 }
  | .ok (some m) =>
    { s with
      nextId := s.nextId + 1
      openTx := Function.update s.openTx a (some (rows ++ [m])) }

/-- One forward request with the cursor of the last one. -/
def pullPage (s : PullState) (limit : ℕ) : Option PullState :=
  match ExternalMessagesService.listMessages P.lower s.messages P.accounts "asc".toList s.cursor
      none limit P.mailAccountIds with
  | .ok (.inl page) =>
    some { s with cursor := page.nextSinceId, received := s.received ++ page.messages }
  | _ => none

/-- The state after a step, where it is enabled. -/
def next (s : PullState) : PullLabel → Option PullState
  | .begin a =>
    if a ∈ P.accounts.map MailAccount.id ∧ s.openTx a = none then
      some { s with openTx := Function.update s.openTx a (some []) }
    else none
  | .insert a now v =>
    match s.openTx a with
    | some rows => some (insertRow s a now v rows)
    | none => none
  | .commit a =>
    match s.openTx a with
    | some rows =>
      some { s with
        messages := s.messages ++ rows
        openTx := Function.update s.openTx a none }
    | none => none
  | .abort a =>
    match s.openTx a with
    | some _ => some { s with openTx := Function.update s.openTx a none }
    | none => none
  | .delete ids => some { s with messages := MessagesRepo.deleteMessages s.messages ids }
  | .pull limit => P.pullPage s limit

/-- No transaction is open, the stored ids come from the sequence, and the consumer starts before
the first id. -/
def Init (s : PullState) : Prop :=
  (s.messages.map Message.id).Nodup ∧ (∀ m ∈ s.messages, 0 < m.id ∧ m.id < s.nextId) ∧
    0 < s.nextId ∧ s.openTx = (fun _ => none) ∧ s.cursor = 0 ∧ s.received = []

/-- The transactions, deletions and pulls. -/
def system : System PullState PullLabel where
  init := Init
  next := P.next

/-- Every visible message of an effective mailbox up to the cursor has been returned to the
consumer exactly once. -/
def ExactlyOnce (s : PullState) : Prop :=
  ∀ m ∈ s.messages, m.mailAccountId ∈ P.effective → m.id ≤ s.cursor →
    (s.received.map ExternalMessageDTO.id).count m.id = 1

instance (s : PullState) : Decidable (P.ExactlyOnce s) :=
  inferInstanceAs (Decidable (∀ m ∈ s.messages, m.mailAccountId ∈ P.effective → m.id ≤ s.cursor →
    (s.received.map ExternalMessageDTO.id).count m.id = 1))

/-- The page of a pull passes no uncommitted row: above the id of an uncommitted row of an
effective mailbox, every visible message of an effective mailbox has a full page of visible ones
between the cursor and it, so it is not on the page. -/
def PassesNoOpenRow (s : PullState) : PullLabel → Prop
  | .pull limit => ∀ a ∈ P.effective, ∀ u ∈ s.rows a,
      ∀ m ∈ MessagesRepo.ofMailboxes P.effective s.messages, u.id < m.id →
        limit ≤ (MessagesRepo.ofMailboxes P.effective s.messages).countP
          fun v => s.cursor < v.id ∧ v.id < m.id
  | _ => True

instance (s : PullState) (l : PullLabel) : Decidable (P.PassesNoOpenRow s l) :=
  match l with
  | .pull limit =>
    inferInstanceAs (Decidable (∀ a ∈ P.effective, ∀ u ∈ s.rows a,
      ∀ m ∈ MessagesRepo.ofMailboxes P.effective s.messages, u.id < m.id →
        limit ≤ (MessagesRepo.ofMailboxes P.effective s.messages).countP
          fun v => s.cursor < v.id ∧ v.id < m.id))
  | .begin _ | .insert _ _ _ | .commit _ | .abort _ | .delete _ =>
    inferInstanceAs (Decidable True)

/-! ## The invariant -/

/-- What every step keeps: each id is drawn once, and a transaction inserts rows of its own
mailbox. -/
structure IdsInv (s : PullState) : Prop where
  nodup : (s.messages.map Message.id).Nodup
  lt_nextId : ∀ m ∈ s.messages, m.id < s.nextId
  rows_nodup : ∀ a, ((s.rows a).map Message.id).Nodup
  rows_lt_nextId : ∀ a, ∀ u ∈ s.rows a, u.id < s.nextId
  rows_account : ∀ a, ∀ u ∈ s.rows a, u.mailAccountId = a
  rows_fresh : ∀ a, ∀ u ∈ s.rows a, ∀ m ∈ s.messages, u.id ≠ m.id
  rows_disjoint : ∀ a b, a ≠ b → ∀ u ∈ s.rows a, ∀ v ∈ s.rows b, u.id ≠ v.id

/-- What the guarded steps keep: the consumer has every visible message up to the cursor once,
and every uncommitted row of its mailboxes is still ahead of it. -/
structure PullInv (s : PullState) : Prop extends IdsInv s where
  cursor_lt : s.cursor < s.nextId
  received_nodup : (s.received.map ExternalMessageDTO.id).Nodup
  received_le : ∀ i ∈ s.received.map ExternalMessageDTO.id, i ≤ s.cursor
  received_of_le : ∀ m ∈ s.messages, m.mailAccountId ∈ P.effective → m.id ≤ s.cursor →
    m.id ∈ s.received.map ExternalMessageDTO.id
  cursor_lt_rows : ∀ a ∈ P.effective, ∀ u ∈ s.rows a, s.cursor < u.id

variable {P}

theorem PullInv.of_init {s : PullState} (h : Init s) : P.PullInv s := by
  obtain ⟨hn, hlt, hpos, hopen, hcur, hrec⟩ := h
  have hrows : ∀ a, s.rows a = [] := fun a => by rw [PullState.rows, hopen]; rfl
  constructor
  case toIdsInv =>
    exact ⟨hn, fun m hm => (hlt m hm).2, by simp [hrows], by simp [hrows], by simp [hrows],
      by simp [hrows], by simp [hrows]⟩
  case cursor_lt => omega
  case received_nodup => simp [hrec]
  case received_le => simp [hrec]
  case received_of_le =>
    intro m hm _ hle
    have := (hlt m hm).1
    omega
  case cursor_lt_rows => simp [hrows]

/-- A step that only takes rows away, or draws ids it does not use, keeps the invariant.

**Proof sketch.** Each clause of the invariant is about all rows of the table or of a transaction,
about pairs of them, or bounds their ids from above. A sublist has no other rows, and the bound only
grows. -/
theorem PullInv.shrink {s t : PullState} (h : P.PullInv s)
    (hm : t.messages.Sublist s.messages) (hr : ∀ a, (t.rows a).Sublist (s.rows a))
    (hn : s.nextId ≤ t.nextId) (hc : t.cursor = s.cursor) (hrec : t.received = s.received) :
    P.PullInv t := by
  constructor
  case toIdsInv =>
    constructor
    case nodup => exact h.nodup.sublist (hm.map _)
    case lt_nextId => exact fun m hmem => (h.lt_nextId m (hm.subset hmem)).trans_le hn
    case rows_nodup => exact fun a => (h.rows_nodup a).sublist ((hr a).map _)
    case rows_lt_nextId =>
      exact fun a u hu => (h.rows_lt_nextId a u ((hr a).subset hu)).trans_le hn
    case rows_account => exact fun a u hu => h.rows_account a u ((hr a).subset hu)
    case rows_fresh =>
      exact fun a u hu m hmem => h.rows_fresh a u ((hr a).subset hu) m (hm.subset hmem)
    case rows_disjoint =>
      exact fun a b hab u hu v hv =>
        h.rows_disjoint a b hab u ((hr a).subset hu) v ((hr b).subset hv)
  case cursor_lt => exact hc ▸ h.cursor_lt.trans_le hn
  case received_nodup => exact hrec ▸ h.received_nodup
  case received_le => rw [hrec, hc]; exact h.received_le
  case received_of_le =>
    intro m hmem heff hle
    rw [hrec]
    exact h.received_of_le m (hm.subset hmem) heff (hc ▸ hle)
  case cursor_lt_rows =>
    intro a ha u hu
    rw [hc]
    exact h.cursor_lt_rows a ha u ((hr a).subset hu)

/-- The rows after a change of one transaction. -/
theorem rows_update {s t : PullState} {a : ℕ} {o : Option (List Message)}
    (h : t.openTx = Function.update s.openTx a o) (b : ℕ) :
    t.rows b = if b = a then o.getD [] else s.rows b := by
  rw [PullState.rows, h, PullState.rows, Function.update_apply]
  split_ifs <;> rfl

/-- Inserting a row with the drawn id keeps the invariant: the id is new, and beyond the
cursor.

**Proof sketch.** The transaction of the account is the only one that changes, and its new row has
the id that was drawn just now. This id is above all others, committed or open, and above the
cursor; hence the ids stay distinct within a transaction and between two of them, and what the
consumer has received does not change. -/
theorem PullInv.insert {s : PullState} {a : ℕ} {m : Message} (h : P.PullInv s)
    (hid : m.id = s.nextId) (hacc : m.mailAccountId = a) :
    P.PullInv { s with
      nextId := s.nextId + 1
      openTx := Function.update s.openTx a (some (s.rows a ++ [m])) } := by
  set t : PullState := { s with
    nextId := s.nextId + 1
    openTx := Function.update s.openTx a (some (s.rows a ++ [m])) } with ht
  have hrows : ∀ b, t.rows b = if b = a then s.rows a ++ [m] else s.rows b :=
    fun b => rows_update (o := some (s.rows a ++ [m])) rfl b
  have hmem : ∀ b u, u ∈ t.rows b → u ∈ s.rows b ∨ (b = a ∧ u = m) := by
    intro b u hu
    rw [hrows] at hu
    split_ifs at hu with hb
    · subst hb
      rcases List.mem_append.mp hu with hu | hu
      · exact Or.inl hu
      · exact Or.inr ⟨rfl, List.mem_singleton.mp hu⟩
    · exact Or.inl hu
  constructor
  case toIdsInv =>
    constructor
    case nodup => exact h.nodup
    case lt_nextId => exact fun x hx => (h.lt_nextId x hx).trans (Nat.lt_succ_self _)
    case rows_nodup =>
      intro b
      rw [hrows]
      split_ifs
      · rw [List.map_append, List.nodup_append]
        refine ⟨h.rows_nodup a, by simp, fun i hi j hj => ?_⟩
        obtain ⟨u, hu, rfl⟩ := List.mem_map.mp hi
        have hlt := h.rows_lt_nextId a u hu
        simp only [List.map_cons, List.map_nil, List.mem_singleton] at hj
        omega
      · exact h.rows_nodup b
    case rows_lt_nextId =>
      intro b u hu
      rcases hmem b u hu with hu | ⟨_, rfl⟩
      · exact (h.rows_lt_nextId b u hu).trans (Nat.lt_succ_self _)
      · exact hid ▸ Nat.lt_succ_self _
    case rows_account =>
      intro b u hu
      rcases hmem b u hu with hu | ⟨rfl, rfl⟩
      · exact h.rows_account b u hu
      · exact hacc
    case rows_fresh =>
      intro b u hu x hx
      rcases hmem b u hu with hu | ⟨_, rfl⟩
      · exact h.rows_fresh b u hu x hx
      · have := h.lt_nextId x hx
        omega
    case rows_disjoint =>
      intro b c hbc u hu v hv
      rcases hmem b u hu with hu' | ⟨hb, hum⟩ <;> rcases hmem c v hv with hv' | ⟨hc, hvm⟩
      · exact h.rows_disjoint b c hbc u hu' v hv'
      · have := h.rows_lt_nextId b u hu'
        rw [hvm]
        omega
      · have := h.rows_lt_nextId c v hv'
        rw [hum]
        omega
      · exact absurd (hb.trans hc.symm) hbc
  case cursor_lt => exact h.cursor_lt.trans (Nat.lt_succ_self _)
  case received_nodup => exact h.received_nodup
  case received_le => exact h.received_le
  case received_of_le => exact h.received_of_le
  case cursor_lt_rows =>
    intro b hb u hu
    rcases hmem b u hu with hu | ⟨_, rfl⟩
    · exact h.cursor_lt_rows b hb u hu
    · exact hid ▸ h.cursor_lt

/-- A commit keeps the invariant: the rows it makes visible are beyond the cursor.

**Proof sketch.** The rows of one transaction become visible and the transaction is empty. Their ids
differ from the visible ones by the invariant, and lie above the cursor, so that none of them counts
as one that the consumer should have received. The other transactions keep their rows, which differ
from these. -/
theorem PullInv.commit {s : PullState} {a : ℕ} (h : P.PullInv s) :
    P.PullInv { s with
      messages := s.messages ++ s.rows a
      openTx := Function.update s.openTx a none } := by
  set t : PullState := { s with
    messages := s.messages ++ s.rows a
    openTx := Function.update s.openTx a none } with ht
  have hrows : ∀ b, t.rows b = if b = a then [] else s.rows b :=
    fun b => rows_update (o := none) rfl b
  have hmem : ∀ b u, u ∈ t.rows b → b ≠ a ∧ u ∈ s.rows b := by
    intro b u hu
    rw [hrows] at hu
    split_ifs at hu with hb
    · cases hu
    · exact ⟨hb, hu⟩
  have hmsg : ∀ x ∈ t.messages, x ∈ s.messages ∨ x ∈ s.rows a := fun x hx => List.mem_append.mp hx
  constructor
  case toIdsInv =>
    constructor
    case nodup =>
      rw [ht, List.map_append, List.nodup_append]
      refine ⟨h.nodup, h.rows_nodup a, fun i hi j hj => ?_⟩
      obtain ⟨x, hx, rfl⟩ := List.mem_map.mp hi
      obtain ⟨u, hu, rfl⟩ := List.mem_map.mp hj
      exact (h.rows_fresh a u hu x hx).symm
    case lt_nextId =>
      intro x hx
      rcases hmsg x hx with hx | hx
      · exact h.lt_nextId x hx
      · exact h.rows_lt_nextId a x hx
    case rows_nodup =>
      intro b
      rw [hrows]
      split_ifs
      · exact List.nodup_nil
      · exact h.rows_nodup b
    case rows_lt_nextId => exact fun b u hu => h.rows_lt_nextId b u (hmem b u hu).2
    case rows_account => exact fun b u hu => h.rows_account b u (hmem b u hu).2
    case rows_fresh =>
      intro b u hu x hx
      obtain ⟨hb, hu⟩ := hmem b u hu
      rcases hmsg x hx with hx | hx
      · exact h.rows_fresh b u hu x hx
      · exact h.rows_disjoint b a hb u hu x hx
    case rows_disjoint =>
      exact fun b c hbc u hu v hv => h.rows_disjoint b c hbc u (hmem b u hu).2 v (hmem c v hv).2
  case cursor_lt => exact h.cursor_lt
  case received_nodup => exact h.received_nodup
  case received_le => exact h.received_le
  case received_of_le =>
    intro x hx heff hle
    rcases hmsg x hx with hx | hx
    · exact h.received_of_le x hx heff hle
    · have hlt := h.cursor_lt_rows a (h.rows_account a x hx ▸ heff) x hx
      exact absurd hle (by show ¬ x.id ≤ s.cursor; omega)
  case cursor_lt_rows => exact fun b hb u hu => h.cursor_lt_rows b hb u (hmem b u hu).2

/-! ## The page of a pull -/

variable (P) in
/-- The visible messages a forward request with the current cursor returns. -/
def page (s : PullState) (limit : ℕ) : List Message :=
  Keyset.page Message.id (some s.cursor) limit (MessagesRepo.ofMailboxes P.effective s.messages)

/-- **A pull** returns the keyset page after the cursor and moves the cursor to its last id. -/
theorem pullPage_eq_some {s t : PullState} {limit : ℕ} (h : P.pullPage s limit = some t) :
    t.messages = s.messages ∧ t.openTx = s.openTx ∧ t.nextId = s.nextId ∧
      t.received.map ExternalMessageDTO.id =
        s.received.map ExternalMessageDTO.id ++ (P.page s limit).map Message.id ∧
      some t.cursor = Keyset.nextCursor Message.id (some s.cursor) (P.page s limit) := by
  rw [pullPage, ExternalMessagesService.listMessages_asc] at h
  obtain rfl := Option.some.inj h
  have hpage : (MessagesRepo.listSinceId s.messages P.accounts P.effective s.cursor limit).map
      Prod.fst = P.page s limit :=
    MessagesRepo.map_fst_listSinceId P.accounts_nodup
      (fun i hi => ExternalMessagesService.resolveAccountIds_subset hi) _ _
  refine ⟨rfl, rfl, rfl, ?_, ?_⟩
  · rw [List.map_append, ExternalMessagesService.listForward_ids, ← hpage, List.map_map]
    rfl
  · rw [← hpage, Keyset.nextCursor, List.getLast?_map, ExternalMessagesService.listForward]
    rw [show ExternalMessagesService.resolveAccountIds P.lower P.accounts P.mailAccountIds =
      P.effective from rfl]
    cases (MessagesRepo.listSinceId s.messages P.accounts P.effective s.cursor limit).getLast? <;>
      rfl

/-- The rows of a page are visible messages of effective mailboxes after the cursor. -/
theorem mem_page {s : PullState} {limit : ℕ} {m : Message} (h : m ∈ P.page s limit) :
    m ∈ s.messages ∧ m.mailAccountId ∈ P.effective ∧ s.cursor < m.id := by
  obtain ⟨hm, hb⟩ := Keyset.mem_of_mem_page h
  rw [MessagesRepo.mem_ofMailboxes] at hm
  exact ⟨hm.1, hm.2, (Keyset.beyond_some _ _).mp hb⟩

theorem IdsInv.visible_nodup {s : PullState} (h : IdsInv s) :
    ((MessagesRepo.ofMailboxes P.effective s.messages).map Message.id).Nodup :=
  h.nodup.sublist (List.filter_sublist.map _)

/-- A visible message is on the page exactly when fewer than `limit` visible ones lie between
the cursor and it. -/
theorem IdsInv.mem_page_iff {s : PullState} (h : IdsInv s) {limit : ℕ} {m : Message} :
    m ∈ P.page s limit ↔
      m ∈ MessagesRepo.ofMailboxes P.effective s.messages ∧ s.cursor < m.id ∧
        (MessagesRepo.ofMailboxes P.effective s.messages).countP
          (fun v => s.cursor < v.id ∧ v.id < m.id) < limit := by
  rw [page, Keyset.mem_page_iff h.visible_nodup]
  simp only [Keyset.beyond_some]

/-- The cursor after a pull: unmoved if the page is empty, else the largest id of the page. -/
theorem cursor_of_pullPage {s t : PullState} {limit : ℕ} (h : P.pullPage s limit = some t) :
    (P.page s limit = [] ∧ t.cursor = s.cursor) ∨
      ∃ r ∈ P.page s limit, t.cursor = r.id ∧ ∀ m ∈ P.page s limit, m.id ≤ r.id := by
  obtain ⟨_, _, _, _, hcur⟩ := pullPage_eq_some h
  by_cases hnil : P.page s limit = []
  · rw [hnil] at hcur
    exact Or.inl ⟨hnil, Option.some.inj hcur⟩
  · obtain ⟨r, hr, hnext, hmax⟩ := Keyset.exists_nextCursor hnil
    exact Or.inr ⟨r, hr, Option.some.inj (hcur.trans hnext), hmax⟩

/-- **A pull that passes no uncommitted row** keeps the invariant.

**Proof sketch.** The new cursor is the id of a row `r` of the page. A visible message between
the two cursors is on the page, so it is returned now and was not before. An uncommitted row
below `r` would make the guard bound the rank of `r` by `limit` from below, but `r` is on the
page. -/
theorem PullInv.pull {s t : PullState} {limit : ℕ} (h : P.PullInv s)
    (hg : P.PassesNoOpenRow s (.pull limit)) (ht : P.pullPage s limit = some t) :
    P.PullInv t := by
  obtain ⟨hmsg, hopen, hnext, hrec, _⟩ := pullPage_eq_some ht
  have hrows : ∀ a, t.rows a = s.rows a := fun a => by rw [PullState.rows, hopen]; rfl
  have hids : IdsInv t := by
    constructor
    case nodup => exact hmsg ▸ h.nodup
    case lt_nextId => rw [hmsg, hnext]; exact h.lt_nextId
    case rows_nodup => simpa only [hrows] using h.rows_nodup
    case rows_lt_nextId => simpa only [hrows, hnext] using h.rows_lt_nextId
    case rows_account => simpa only [hrows] using h.rows_account
    case rows_fresh => simpa only [hrows, hmsg] using h.rows_fresh
    case rows_disjoint => simpa only [hrows] using h.rows_disjoint
  -- every id of the page is new to the consumer
  have hnew : ∀ i ∈ (P.page s limit).map Message.id,
      i ∉ s.received.map ExternalMessageDTO.id := by
    intro i hi hold
    obtain ⟨m, hm, rfl⟩ := List.mem_map.mp hi
    have := h.received_le _ hold
    have := (mem_page hm).2.2
    omega
  have hnodup : (t.received.map ExternalMessageDTO.id).Nodup := by
    rw [hrec, List.nodup_append]
    refine ⟨h.received_nodup, Keyset.page_key_nodup h.visible_nodup, fun i hi j hj => ?_⟩
    exact fun hij => hnew j hj (hij ▸ hi)
  rcases cursor_of_pullPage ht with ⟨hnil, hcur⟩ | ⟨r, hr, hcur, hmax⟩
  · rw [hnil, List.map_nil, List.append_nil] at hrec
    constructor
    case toIdsInv => exact hids
    case cursor_lt => rw [hcur, hnext]; exact h.cursor_lt
    case received_nodup => exact hnodup
    case received_le => rw [hrec, hcur]; exact h.received_le
    case received_of_le => rw [hmsg, hcur, hrec]; exact h.received_of_le
    case cursor_lt_rows => simpa only [hrows, hcur] using h.cursor_lt_rows
  · obtain ⟨hrmem, hreff, hrgt⟩ := mem_page hr
    constructor
    case toIdsInv => exact hids
    case cursor_lt => rw [hcur, hnext]; exact h.lt_nextId r hrmem
    case received_nodup => exact hnodup
    case received_le =>
      intro i hi
      rw [hrec, List.mem_append] at hi
      rcases hi with hi | hi
      · have := h.received_le i hi
        omega
      · obtain ⟨m, hm, rfl⟩ := List.mem_map.mp hi
        exact hcur ▸ hmax m hm
    case received_of_le =>
      intro m hm heff hle
      rw [hmsg] at hm
      rw [hrec, List.mem_append]
      by_cases hold : m.id ≤ s.cursor
      · exact Or.inl (h.received_of_le m hm heff hold)
      · have hpage : m ∈ P.page s limit :=
          Keyset.mem_page_of_le h.visible_nodup hr (MessagesRepo.mem_ofMailboxes.mpr ⟨hm, heff⟩)
            ((Keyset.beyond_some _ _).mpr (by omega)) (hcur ▸ hle)
        exact Or.inr (List.mem_map_of_mem hpage)
    case cursor_lt_rows =>
      intro a ha u hu
      rw [hrows] at hu
      by_contra hle
      have hne := h.rows_fresh a u hu r hrmem
      have hrank := (h.toIdsInv.mem_page_iff.mp hr)
      have := hg a ha u hu r hrank.1 (by omega)
      omega

/-! ## Every step -/

/-- An insert keeps the invariant, whether it adds a row, meets a conflict or is refused. -/
theorem PullInv.insertRow {s : PullState} {a : ℕ} (now : Instant) (v : MessageValues)
    (h : P.PullInv s) : P.PullInv (insertRow s a now v (s.rows a)) := by
  rw [PullSetup.insertRow]
  cases hi : MessagesRepo.insertMessageIdempotent (s.messages ++ s.rows a) s.nextId now
      { v with mailAccountId := a } with
  | error e =>
    refine h.shrink (List.Sublist.refl _) (fun b => ?_) (Nat.le_succ _) rfl rfl
    rw [rows_update (s := s) (o := none) rfl b]
    split_ifs
    · exact List.nil_sublist _
    · exact List.Sublist.refl _
  | ok r =>
    obtain ⟨_, ⟨_, rfl⟩ | ⟨_, rfl⟩⟩ := MessagesRepo.insertMessageIdempotent_eq_ok hi
    · exact h.shrink (List.Sublist.refl _) (fun b => List.Sublist.refl _) (Nat.le_succ _) rfl rfl
    · exact h.insert rfl rfl

/-- **Every guarded step keeps the invariant.**

**Proof sketch.** By cases on the step. An insert and a commit have lemmas of their own; a begin and
a rollback leave an empty transaction, which only takes rows away. A deletion takes rows away as
well. A pull moves the cursor to the last row that it returns: by the condition no open row is
passed, so that all rows up to the new cursor are among those received. -/
theorem PullInv.next {s t : PullState} {l : PullLabel} (h : P.PullInv s)
    (hg : P.PassesNoOpenRow s l) (ht : P.next s l = some t) : P.PullInv t := by
  have hclose : ∀ a (o : Option (List Message)), o.getD [] = [] →
      P.PullInv { s with openTx := Function.update s.openTx a o } := by
    intro a o ho
    refine h.shrink (List.Sublist.refl _) (fun b => ?_) le_rfl rfl rfl
    rw [rows_update (s := s) (o := o) rfl b, ho]
    split_ifs
    · exact List.nil_sublist _
    · exact List.Sublist.refl _
  cases l with
  | begin a =>
    simp only [PullSetup.next] at ht
    split_ifs at ht
    obtain rfl := Option.some.inj ht
    exact hclose a (some []) rfl
  | insert a now v =>
    simp only [PullSetup.next] at ht
    cases ho : s.openTx a with
    | none => rw [ho] at ht; cases ht
    | some rows =>
      rw [ho] at ht
      obtain rfl := Option.some.inj ht
      have hr : rows = s.rows a := by rw [PullState.rows, ho]; rfl
      exact hr ▸ h.insertRow now v
  | commit a =>
    simp only [PullSetup.next] at ht
    cases ho : s.openTx a with
    | none => rw [ho] at ht; cases ht
    | some rows =>
      rw [ho] at ht
      obtain rfl := Option.some.inj ht
      have hr : rows = s.rows a := by rw [PullState.rows, ho]; rfl
      exact hr ▸ h.commit
  | abort a =>
    simp only [PullSetup.next] at ht
    cases ho : s.openTx a with
    | none => rw [ho] at ht; cases ht
    | some rows =>
      rw [ho] at ht
      obtain rfl := Option.some.inj ht
      exact hclose a none rfl
  | delete ids =>
    obtain rfl := Option.some.inj ht
    exact h.shrink List.filter_sublist (fun b => List.Sublist.refl _) le_rfl rfl rfl
  | pull limit => exact h.pull hg ht

/-- The invariant holds in every state that guarded steps reach. -/
theorem PullInv.of_reachableWhen {s : PullState}
    (h : P.system.ReachableWhen P.PassesNoOpenRow s) : P.PullInv s :=
  h.invariant (fun _ => PullInv.of_init) fun _ _ _ hs hg hn => hs.next hg hn

/-- The invariant gives the property of the consumer. -/
theorem PullInv.exactlyOnce {s : PullState} (h : P.PullInv s) : P.ExactlyOnce s :=
  fun m hm heff hle => List.count_eq_one_of_mem h.received_nodup (h.received_of_le m hm heff hle)

/-- **A pull that passes an uncommitted row** leaves a gap as soon as that row's transaction
commits: the row is then visible behind the cursor, and has not been returned.

**Proof sketch.** The pull passes an open row: a row with a larger id is returned, so that the
cursor is at the open row or behind it afterwards. The consumer does not have that row, as its ids
so far are those up to the old cursor and those of visible rows. When the transaction of the row
commits, it is visible below the cursor and has been received zero times. -/
theorem PullInv.gap_of_passes {s t : PullState} {limit : ℕ} (h : P.PullInv s)
    (ht : P.next s (.pull limit) = some t) (hg : ¬ P.PassesNoOpenRow s (.pull limit)) :
    ∃ a t', P.next t (.commit a) = some t' ∧ ¬ P.ExactlyOnce t' := by
  obtain ⟨hmsg, hopen, _, hrec, _⟩ := pullPage_eq_some ht
  simp only [PassesNoOpenRow, not_forall, not_le] at hg
  obtain ⟨a, ha, u, hu, m, hm, hlt, hcount⟩ := hg
  have hgt := h.cursor_lt_rows a ha u hu
  have hpage : m ∈ P.page s limit := h.toIdsInv.mem_page_iff.mpr ⟨hm, by omega, hcount⟩
  have hcur : u.id ≤ t.cursor := by
    rcases cursor_of_pullPage ht with ⟨hnil, _⟩ | ⟨r, _, hc, hmax⟩
    · rw [hnil] at hpage; cases hpage
    · have := hmax m hpage
      omega
  obtain ⟨rows, hrows⟩ : ∃ rows, s.openTx a = some rows := by
    cases ho : s.openTx a with
    | none => rw [PullState.rows, ho] at hu; cases hu
    | some rows => exact ⟨rows, rfl⟩
  refine ⟨a, { t with
    messages := t.messages ++ rows
    openTx := Function.update t.openTx a none }, by simp [PullSetup.next, hopen, hrows], ?_⟩
  intro hex
  have hur : u ∈ rows := by rw [PullState.rows, hrows] at hu; exact hu
  have hone := hex u (List.mem_append_right _ hur) (h.rows_account a u hu ▸ ha) hcur
  -- the consumer has ids up to the old cursor and ids of visible messages
  have hnot : u.id ∉ t.received.map ExternalMessageDTO.id := by
    rw [hrec, List.mem_append]
    rintro (hold | hnew)
    · have := h.received_le _ hold
      omega
    · obtain ⟨v, hv, hid⟩ := List.mem_map.mp hnew
      exact h.rows_fresh a u hu v (mem_page hv).1 hid.symm
  have hzero := List.count_eq_zero_of_not_mem hnot
  simp only at hone
  omega

/-! ## The property of the consumer -/

/-- **Forward pull without gaps or duplicates.** In every run whose pulls pass no uncommitted
row, every visible message of an effective mailbox up to the cursor has been returned exactly
once; and a pull that does pass one leaves a gap as soon as that row's transaction commits. -/
theorem exactlyOnce_of_passesNoOpenRow {s : PullState}
    (h : P.system.ReachableWhen P.PassesNoOpenRow s) :
    P.ExactlyOnce s ∧
      ∀ limit t, P.next s (.pull limit) = some t → ¬ P.PassesNoOpenRow s (.pull limit) →
        ∃ a t', P.next t (.commit a) = some t' ∧ ¬ P.ExactlyOnce t' :=
  have hinv := PullInv.of_reachableWhen h
  ⟨hinv.exactlyOnce, fun _ _ ht hg => hinv.gap_of_passes ht hg⟩

/-! ## Two mailboxes -/

/-- Two mailboxes and a consumer of both. -/
def twoMailboxes : PullSetup where
  lower := PyText.lower
  accounts :=
    [{ id := 1, userId := 1, email := "a@example.com".toList },
      { id := 2, userId := 1, email := "b@example.com".toList }]
  accounts_nodup := by decide
  mailAccountIds := none

/-- An empty table. -/
def emptyTable : PullState where
  messages := []
  nextId := 1
  openTx := fun _ => none
  cursor := 0
  received := []

theorem emptyTable_init : Init emptyTable := by
  refine ⟨List.nodup_nil, ?_, Nat.one_pos, rfl, rfl, rfl⟩
  simp [emptyTable]

/-- The values of a message with a given UID. -/
def mailOf (uid : ℕ) : MessageValues := { mailAccountId := 0, uid, uidvalidity := 1 }

/-- Mailbox 1 draws id 1, mailbox 2 draws id 2 and commits first, and a pull comes between the
two commits. -/
def lateCommit : List PullLabel :=
  [.begin 1, .insert 1 0 (mailOf 10), .begin 2, .insert 2 0 (mailOf 20), .commit 2, .pull 100,
    .commit 1]

/-- The same inserts, with a pull after each commit, in the order of the ids. -/
def commitsInOrder : List PullLabel :=
  [.begin 1, .insert 1 0 (mailOf 10), .begin 2, .insert 2 0 (mailOf 20), .commit 1, .pull 100,
    .commit 2, .pull 1]

/-- The message of the transaction that commits behind the cursor is never returned. -/
theorem pull_gap :
    ¬ ∀ (P : PullSetup) (s : PullState), P.system.Reachable s → P.ExactlyOnce s := by
  intro h
  obtain ⟨s, hrun, hs⟩ : ∃ s, twoMailboxes.system.run emptyTable lateCommit = some s ∧
      ¬ twoMailboxes.ExactlyOnce s := ⟨_, rfl, by decide⟩
  exact hs (h _ _ (System.Reachable.run (.init emptyTable_init) hrun))

/-- In the other order both messages are returned once, and the pulls pass no uncommitted
row. -/
theorem exactlyOnce_commitsInOrder :
    ∃ s, (twoMailboxes.system.restrict twoMailboxes.PassesNoOpenRow).run emptyTable
      commitsInOrder = some s ∧ s.cursor = 2 ∧ twoMailboxes.ExactlyOnce s := by
  obtain ⟨s, hrun, hcur⟩ : ∃ s, (twoMailboxes.system.restrict
      twoMailboxes.PassesNoOpenRow).run emptyTable commitsInOrder = some s ∧ s.cursor = 2 :=
    ⟨_, rfl, by decide⟩
  have hreach := System.ReachableWhen.run (.init emptyTable_init) hrun
  exact ⟨s, hrun, hcur, (exactlyOnce_of_passesNoOpenRow hreach).1⟩

end PullSetup

end MailAggregator
