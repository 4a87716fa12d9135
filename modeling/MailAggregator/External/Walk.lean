import MailAggregator.External.Pull
import MailAggregator.Lib.KeysetWalk

set_option relaxedAutoImplicit false
set_option autoImplicit false

/-!
# Complete walks over the messages

A consumer follows the returned cursor until `has_more` is false: forward from the cursor 0, or
backward from the latest message. Messages may be deleted between the requests. Each walk ends,
returns no message twice, and returns every message that stays; over a fixed table the two walks are
reverses of each other.

## Main definitions

* `MailAggregator.MessageHistory` — a table of messages and the deletions between the requests.
* `MailAggregator.PullSetup.forwardWalk`, `MailAggregator.PullSetup.backwardWalk` — the pages of a
  walk.
* `MailAggregator.PullSetup.Complete` — what a walk returns.

## Main results

* `MailAggregator.PullSetup.forwardWalk_ids`, `PullSetup.backwardWalk_ids` — a walk by requests is a
  walk by keyset pages.
* `MailAggregator.PullSetup.walks_exact` — both walks are exact.
-/

namespace MailAggregator

open PyText

/-- A table of messages, and the ids that are deleted after each request. -/
structure MessageHistory where
  messages : List Message
  /-- `id` is the primary key, and the sequence starts at 1. -/
  nodup : (messages.map Message.id).Nodup
  positive : ∀ m ∈ messages, 0 < m.id
  deletions : ℕ → List ℕ := fun _ => []

namespace MessageHistory

/-- The table that a request sees, by its number. -/
def table (H : MessageHistory) : ℕ → List Message
  | 0 => H.messages
  | i + 1 => MessagesRepo.deleteMessages (H.table i) (H.deletions i)

variable (H : MessageHistory)

theorem table_subset (i : ℕ) : H.table (i + 1) ⊆ H.table i :=
  fun _ hm => (MessagesRepo.mem_deleteMessages.mp hm).1

/-- A request sees messages of the first table only. -/
theorem mem_messages_of_mem_table {m : Message} (i : ℕ) (h : m ∈ H.table i) : m ∈ H.messages := by
  induction i with
  | zero => exact h
  | succ i ih => exact ih (H.table_subset i h)

theorem nodup_table (i : ℕ) : ((H.table i).map Message.id).Nodup := by
  induction i with
  | zero => exact H.nodup
  | succ i ih => exact ih.sublist (List.filter_sublist.map Message.id)

/-- Without deletions each request sees the same table. -/
theorem table_eq_messages (h : ∀ i, H.deletions i = []) (i : ℕ) : H.table i = H.messages := by
  induction i with
  | zero => rfl
  | succ i ih =>
    rw [table, ih, h, MessagesRepo.deleteMessages]
    exact List.filter_eq_self.mpr fun m _ => by simp

end MessageHistory

namespace PullSetup

variable (P : PullSetup) (H : MessageHistory) (limit : ℕ)

/-! ## The walks -/

/-- The pages of the forward requests from a cursor on: the first one is request `i`. `none` if more
requests than `fuel` are needed, or one is refused. -/
def forwardWalk : ℕ → ℕ → ℕ → Option (List (List ExternalMessageDTO))
  | 0, _, _ => none
  | fuel + 1, i, sinceId =>
    match ExternalMessagesService.listMessages P.lower (H.table i) P.accounts "asc".toList sinceId
      none limit P.mailAccountIds with
    | .ok (.inl page) =>
      if page.hasMore then
        (forwardWalk fuel (i + 1) page.nextSinceId).map fun pages => page.messages :: pages
      else some [page.messages]
    | _ => none

/-- The pages of the backward requests from a cursor on. -/
def backwardWalk : ℕ → ℕ → Option ℕ → Option (List (List ExternalMessageDTO))
  | 0, _, _ => none
  | fuel + 1, i, beforeId =>
    match ExternalMessagesService.listMessages P.lower (H.table i) P.accounts "desc".toList 0
      (beforeId.map Int.ofNat) limit P.mailAccountIds with
    | .ok (.inr page) =>
      if page.hasMore then
        (backwardWalk fuel (i + 1) page.nextBeforeId).map fun pages => page.messages :: pages
      else some [page.messages]
    | _ => none

/-- The messages that a walk may return at its request `i`. -/
def visible (i : ℕ) : List Message := MessagesRepo.ofMailboxes P.effective (H.table i)

/-- The ids of the pages of a walk. -/
def pageIds (pages : List (List ExternalMessageDTO)) : List (List ℕ) :=
  pages.map fun page => page.map ExternalMessageDTO.id

/-- **What a walk returns**: the messages of the effective mailboxes that stay until it ends, each
of them once, none twice, and none that has never been there. -/
structure Complete (pages : List (List ExternalMessageDTO)) : Prop where
  once : ∀ m, (∀ i < pages.length, m ∈ H.table i) → m.mailAccountId ∈ P.effective →
    (pageIds pages).flatten.count m.id = 1
  nodup : (pageIds pages).flatten.Nodup
  sound : ∀ id ∈ (pageIds pages).flatten, ∃ m ∈ H.messages, m.mailAccountId ∈ P.effective ∧
    m.id = id

/-! ## Requests and keyset pages -/

section Requests

variable {P H limit} {i sinceId : ℕ} {beforeId : Option ℕ}

/-- The rows of a forward request are a keyset page, and so are its ids, its flag and its cursor. -/
theorem listForward_eq (i sinceId : ℕ) :
    ∃ page, ExternalMessagesService.listMessages P.lower (H.table i) P.accounts "asc".toList
        sinceId none limit P.mailAccountIds = .ok (.inl page) ∧
      page.messages.map ExternalMessageDTO.id =
        (Keyset.page Message.id (some sinceId) limit (P.visible H i)).map Message.id ∧
      (page.hasMore = true ↔
        (Keyset.page Message.id (some sinceId) limit (P.visible H i)).length = limit) ∧
      some page.nextSinceId = Keyset.nextCursor Message.id (some sinceId)
        (Keyset.page Message.id (some sinceId) limit (P.visible H i)) := by
  have hpage : (MessagesRepo.listSinceId (H.table i) P.accounts P.effective sinceId limit).map
      Prod.fst = Keyset.page Message.id (some sinceId) limit (P.visible H i) :=
    MessagesRepo.map_fst_listSinceId P.accounts_nodup
      (fun j hj => ExternalMessagesService.resolveAccountIds_subset hj) _ _
  refine ⟨_, ExternalMessagesService.listMessages_asc _ _ _ _ _ _, ?_, ?_, ?_⟩
  · rw [ExternalMessagesService.listForward_ids, ← hpage, List.map_map]
    rfl
  · rw [← hpage, List.length_map]
    exact decide_eq_true_iff
  · rw [← hpage, Keyset.nextCursor, List.getLast?_map, ExternalMessagesService.listForward]
    simp only [PullSetup.effective]
    cases hlast : (MessagesRepo.listSinceId (H.table i) P.accounts
        (ExternalMessagesService.resolveAccountIds P.lower P.accounts P.mailAccountIds) sinceId
        limit).getLast? with
    | none => simp
    | some row => simp

/-- A backward request with a positive cursor passes the checks. -/
theorem validateMode_desc (h : ∀ b ∈ beforeId, 0 < b) :
    ExternalMessagesService.validateMode "desc".toList 0 (beforeId.map Int.ofNat) = .ok () := by
  have hlow : ¬ ∃ b ∈ beforeId.map Int.ofNat, b < 1 := by
    rintro ⟨b, hb, hlt⟩
    obtain ⟨n, hn, rfl⟩ := Option.map_eq_some_iff.mp hb
    have hpos := h n hn
    have hcast : (Int.ofNat n : ℤ) = (n : ℤ) := rfl
    omega
  have hdesc : ¬ "desc".toList = "asc".toList := by decide
  simp only [ExternalMessagesService.validateMode, hdesc, hlow, not_false_eq_true, ne_eq,
    not_true_eq_false, and_false, false_and, if_false]

/-- The rows of a backward request are a keyset page in the dual order.

**Proof sketch.** The request passes the checks of its parameters, and the query behind it gives the
rows below the cursor in falling order, which are a keyset page in the dual order. The page has more
exactly if it is full, and its cursor is the id of its last row. -/
theorem listBackward_eq (i : ℕ) (h : ∀ b ∈ beforeId, 0 < b) :
    ∃ page, ExternalMessagesService.listMessages P.lower (H.table i) P.accounts "desc".toList 0
        (beforeId.map Int.ofNat) limit P.mailAccountIds = .ok (.inr page) ∧
      page.messages.map ExternalMessageDTO.id =
        (Keyset.page (fun m : Message => OrderDual.toDual m.id) (beforeId.map OrderDual.toDual)
          limit (P.visible H i)).map Message.id ∧
      (page.hasMore = true ↔
        (Keyset.page (fun m : Message => OrderDual.toDual m.id) (beforeId.map OrderDual.toDual)
          limit (P.visible H i)).length = limit) ∧
      page.nextBeforeId =
        ((Keyset.page (fun m : Message => OrderDual.toDual m.id) (beforeId.map OrderDual.toDual)
          limit (P.visible H i)).getLast?).map Message.id := by
  have hpage : (MessagesRepo.listBeforeId (H.table i) P.accounts P.effective beforeId limit).map
      Prod.fst = Keyset.page (fun m : Message => OrderDual.toDual m.id)
        (beforeId.map OrderDual.toDual) limit (P.visible H i) :=
    MessagesRepo.map_fst_listBeforeId P.accounts_nodup
      (fun j hj => ExternalMessagesService.resolveAccountIds_subset hj) _ _
  have hdesc : ¬ "desc".toList = "asc".toList := by decide
  have hcursor : (beforeId.map Int.ofNat).map Int.toNat = beforeId := by
    cases beforeId <;> rfl
  have hlist : ExternalMessagesService.listMessages P.lower (H.table i) P.accounts "desc".toList 0
      (beforeId.map Int.ofNat) limit P.mailAccountIds =
        .ok (.inr (ExternalMessagesService.listBackward (H.table i) P.accounts P.effective beforeId
          limit)) := by
    rw [ExternalMessagesService.listMessages, validateMode_desc h]
    simp only [hdesc, if_false, hcursor]
    rfl
  refine ⟨_, hlist, ?_, ?_, ?_⟩
  · rw [← hpage, ExternalMessagesService.listBackward, List.map_map, List.map_map]
    rfl
  · rw [← hpage, List.length_map]
    exact decide_eq_true_iff
  · rw [← hpage, List.getLast?_map, ExternalMessagesService.listBackward, Option.map_map]
    rfl

/-- **A forward walk by requests is a walk by keyset pages.** -/
theorem forwardWalk_ids (fuel i sinceId : ℕ) :
    (P.forwardWalk H limit fuel i sinceId).map pageIds =
      (Keyset.walk Message.id limit (P.visible H) fuel i (some sinceId)).map
        (List.map (List.map Message.id)) := by
  induction fuel generalizing i sinceId with
  | zero => rfl
  | succ fuel ih =>
    obtain ⟨page, hlist, hids, hmore, hnext⟩ := listForward_eq (P := P) (H := H) i sinceId
    rw [forwardWalk, hlist, Keyset.walk]
    by_cases hfull : page.hasMore = true
    · simp only [if_pos hfull, if_pos (hmore.mp hfull), ← hnext, Option.map_map]
      have hrest := ih (i + 1) page.nextSinceId
      cases hwalk : P.forwardWalk H limit fuel (i + 1) page.nextSinceId with
      | none =>
        rw [hwalk, Option.map_none, eq_comm, Option.map_eq_none_iff] at hrest
        rw [hrest]
        rfl
      | some pages =>
        rw [hwalk, Option.map_some, eq_comm, Option.map_eq_some_iff] at hrest
        obtain ⟨keyset, hkeyset, hsame⟩ := hrest
        rw [hkeyset]
        simp only [Option.map_some, Function.comp, pageIds, List.map_cons, hids, hsame]
    · simp only [if_neg hfull, if_neg (mt hmore.mpr hfull), Option.map_some, pageIds, List.map_cons,
        List.map_nil, hids]

/-- **A backward walk by requests is a walk by keyset pages in the dual order.**

**Proof sketch.** Induction over the fuel. A page of the requests and a page of the keyset have the
same ids, and there is more after both or after neither. If there is, the last row of the page is
the cursor of both walks, and the induction hypothesis compares the rest. -/
theorem backwardWalk_ids (hlimit : 0 < limit) (fuel i : ℕ) (beforeId : Option ℕ)
    (h : ∀ b ∈ beforeId, 0 < b) :
    (P.backwardWalk H limit fuel i beforeId).map pageIds =
      (Keyset.walk (fun m : Message => OrderDual.toDual m.id) limit (P.visible H) fuel i
        (beforeId.map OrderDual.toDual)).map (List.map (List.map Message.id)) := by
  induction fuel generalizing i beforeId with
  | zero => rfl
  | succ fuel ih =>
    obtain ⟨page, hlist, hids, hmore, hnext⟩ := listBackward_eq (P := P) (H := H) i h
    rw [backwardWalk, hlist, Keyset.walk]
    by_cases hfull : page.hasMore = true
    · -- a full page has a last row, whose id is the next cursor of both walks
      have hlength := hmore.mp hfull
      simp only [if_pos hfull, if_pos hlength, Option.map_map]
      obtain ⟨m, hm⟩ : ∃ m, (Keyset.page (fun m : Message => OrderDual.toDual m.id)
          (beforeId.map OrderDual.toDual) limit (P.visible H i)).getLast? = some m :=
        ⟨_, List.getLast?_eq_some_getLast (List.ne_nil_of_length_pos (by omega))⟩
      have hmem := (Keyset.mem_of_mem_page (List.mem_of_getLast? hm)).1
      have hpos : 0 < m.id := H.positive m
        (H.mem_messages_of_mem_table i (MessagesRepo.mem_ofMailboxes.mp hmem).1)
      rw [hm, Option.map_some] at hnext
      have hrest := ih (i + 1) page.nextBeforeId (by simpa [hnext] using hpos)
      rw [hnext] at hrest ⊢
      rw [Keyset.nextCursor, hm]
      cases hwalk : P.backwardWalk H limit fuel (i + 1) (some m.id) with
      | none =>
        rw [hwalk, Option.map_none, eq_comm, Option.map_eq_none_iff] at hrest
        simp only [Option.map_some] at hrest
        rw [hrest]
        rfl
      | some pages =>
        rw [hwalk, Option.map_some, eq_comm, Option.map_eq_some_iff] at hrest
        obtain ⟨keyset, hkeyset, hsame⟩ := hrest
        simp only [Option.map_some] at hkeyset
        rw [hkeyset]
        simp only [Option.map_some, Function.comp, pageIds, List.map_cons, hids, hsame]
    · simp only [if_neg hfull, if_neg (mt hmore.mpr hfull), Option.map_some, pageIds, List.map_cons,
        List.map_nil, hids]

end Requests

/-! ## Exact walks -/

section Exact

variable {P H limit} {fuel : ℕ} {pages : List (List ExternalMessageDTO)}
  {keyset : List (List Message)} {κ : Type*} {key : Message → κ} {cursor : Option κ}

theorem visible_subset (i : ℕ) : P.visible H (i + 1) ⊆ P.visible H i := by
  intro m hm
  obtain ⟨htable, heffective⟩ := MessagesRepo.mem_ofMailboxes.mp hm
  exact MessagesRepo.mem_ofMailboxes.mpr ⟨H.table_subset i htable, heffective⟩

/-- Tables with a key that tells messages apart as their ids do. -/
theorem shrinking_visible (hkey : ∀ m m', key m = key m' → m.id = m'.id) :
    Keyset.Shrinking key (P.visible H) := by
  refine ⟨visible_subset, fun i => ?_⟩
  have hids : ((P.visible H i).map Message.id).Nodup :=
    (H.nodup_table i).sublist (List.filter_sublist.map Message.id)
  rw [List.Nodup, List.pairwise_map] at hids ⊢
  exact hids.imp fun hne hsame => hne (hkey _ _ hsame)

/-- The ids of a walk are those of its rows. -/
theorem flatten_pageIds (hids : pageIds pages = keyset.map (List.map Message.id)) :
    (pageIds pages).flatten = keyset.flatten.map Message.id := by
  rw [hids, List.map_flatten]

variable [LinearOrder κ]

/-- **A walk by keyset pages that repeats nothing is complete.**

**Proof sketch.** The pages of the walk have the ids of the keyset pages. A row that stays is in the
table at every page, and a keyset walk does not miss such a row; it is returned once, as nothing is
repeated. What is returned is a row of the table at that time. -/
theorem complete_of_walk (hlimit : 0 < limit) (hshrink : Keyset.Shrinking key (P.visible H))
    (hwalk : Keyset.walk key limit (P.visible H) fuel 0 cursor = some keyset)
    (hids : pageIds pages = keyset.map (List.map Message.id))
    (hbeyond : ∀ m ∈ H.messages, Keyset.Beyond cursor (key m))
    (hnodup : (pageIds pages).flatten.Nodup) : P.Complete H pages := by
  have hflatten := flatten_pageIds hids
  have hlength : pages.length = keyset.length := by
    simpa [pageIds] using congrArg List.length hids
  refine ⟨fun m hstays heffective => ?_, hnodup, fun id hid => ?_⟩
  · have hpositive : 0 < pages.length := by
      -- a walk has at least one page
      obtain ⟨_, _, ⟨rfl, -⟩ | ⟨_, _, _, _, _, rfl⟩⟩ := Keyset.walk_cases hlimit hwalk
      · rw [hlength]; exact Nat.zero_lt_one
      · rw [hlength]; exact Nat.succ_pos _
    have hmem : m ∈ keyset.flatten := by
      refine Keyset.mem_flatten_of_walk hlimit hshrink hwalk (fun j hj => ?_)
        (hbeyond m (hstays 0 hpositive))
      rw [Nat.zero_add]
      exact MessagesRepo.mem_ofMailboxes.mpr ⟨hstays j (hlength.symm ▸ hj), heffective⟩
    refine List.count_eq_one_of_mem hnodup ?_
    rw [hflatten]
    exact List.mem_map_of_mem hmem
  · rw [hflatten] at hid
    obtain ⟨m, hm, rfl⟩ := List.mem_map.mp hid
    obtain ⟨j, -, hvisible⟩ := Keyset.mem_of_walk hlimit hwalk hm
    obtain ⟨htable, heffective⟩ := MessagesRepo.mem_ofMailboxes.mp hvisible
    exact ⟨m, H.mem_messages_of_mem_table _ htable, heffective, rfl⟩

/-- A walk from any cursor ends within one request more than there are messages. -/
theorem walk_isSome_of_length (cursor : Option κ) (hlimit : 0 < limit)
    (hshrink : Keyset.Shrinking key (P.visible H)) :
    (Keyset.walk key limit (P.visible H) (H.messages.length + 1) 0 cursor).isSome := by
  refine Keyset.walk_isSome hlimit hshrink (Nat.lt_succ_of_le ?_)
  exact List.countP_le_length.trans (List.length_filter_le _ _)

/-- The ids of a complete walk over a table without deletions. -/
theorem mem_flatten_iff_of_complete (hstatic : ∀ i, H.deletions i = [])
    (h : P.Complete H pages) (id : ℕ) :
    id ∈ (pageIds pages).flatten ↔
      ∃ m ∈ H.messages, m.mailAccountId ∈ P.effective ∧ m.id = id := by
  constructor
  · exact h.sound id
  · rintro ⟨m, hm, heffective, rfl⟩
    refine List.count_pos_iff.mp ?_
    rw [h.once m (fun i _ => by rw [H.table_eq_messages hstatic]; exact hm) heffective]
    exact Nat.zero_lt_one

end Exact

/-- **Keyset pagination is exact.** Whatever is deleted between the requests, both walks end, return
every message of an effective mailbox that stays until their end exactly once and none twice, in
strictly ascending and in strictly descending order of the ids; without deletions they are reverses
of each other.

**Proof sketch.** A walk by requests is a walk by keyset pages, forwards or backwards in the dual
order. A keyset walk returns each row that is there throughout exactly once and in order, whatever
is deleted between its pages, and it ends because each page moves the cursor on. -/
theorem walks_exact (P : PullSetup) (H : MessageHistory) {limit : ℕ} (hlimit : 0 < limit) :
    ∃ forward backward,
      P.forwardWalk H limit (H.messages.length + 1) 0 0 = some forward ∧
      P.backwardWalk H limit (H.messages.length + 1) 0 none = some backward ∧
      P.Complete H forward ∧ P.Complete H backward ∧
      (pageIds forward).flatten.SortedLT ∧ (pageIds backward).flatten.SortedGT ∧
      ((∀ i, H.deletions i = []) →
        (pageIds forward).flatten = (pageIds backward).flatten.reverse) := by
  have hshrink : Keyset.Shrinking Message.id (P.visible H) := shrinking_visible fun _ _ h => h
  have hdual : Keyset.Shrinking (fun m : Message => OrderDual.toDual m.id) (P.visible H) :=
    shrinking_visible fun _ _ h => h
  obtain ⟨ascending, hascending⟩ := Option.isSome_iff_exists.mp
    (walk_isSome_of_length (some 0) hlimit hshrink)
  obtain ⟨descending, hdescending⟩ := Option.isSome_iff_exists.mp
    (walk_isSome_of_length none hlimit hdual)
  have hforward : (P.forwardWalk H limit (H.messages.length + 1) 0 0).map pageIds = _ :=
    forwardWalk_ids (H.messages.length + 1) 0 0
  have hbackward : (P.backwardWalk H limit (H.messages.length + 1) 0 none).map pageIds = _ :=
    backwardWalk_ids hlimit (H.messages.length + 1) 0 none fun b hb => by cases hb
  rw [hascending, Option.map_some, Option.map_eq_some_iff] at hforward
  rw [Option.map_none, hdescending, Option.map_some, Option.map_eq_some_iff] at hbackward
  obtain ⟨forward, hrun, hids⟩ := hforward
  obtain ⟨backward, hrun', hids'⟩ := hbackward
  have hlt : (pageIds forward).flatten.SortedLT := by
    rw [flatten_pageIds hids, List.sortedLT_iff_pairwise, List.pairwise_map]
    exact Keyset.walk_pairwise_lt hlimit hshrink hascending
  have hgt : (pageIds backward).flatten.SortedGT := by
    rw [flatten_pageIds hids', List.sortedGT_iff_pairwise, List.pairwise_map]
    exact (Keyset.walk_pairwise_lt hlimit hdual hdescending).imp fun h => h
  have hcomplete : P.Complete H forward := by
    refine complete_of_walk hlimit hshrink hascending hids (fun m hm => ?_) hlt.nodup
    simpa using H.positive m hm
  have hcomplete' : P.Complete H backward :=
    complete_of_walk hlimit hdual hdescending hids' (fun _ _ => Keyset.beyond_none _) hgt.nodup
  refine ⟨forward, backward, hrun, hrun', hcomplete, hcomplete', hlt, hgt, fun hstatic => ?_⟩
  refine List.SortedLT.eq_reverse_of_mem_iff_of_sortedGT (fun id => ?_) hlt hgt
  rw [mem_flatten_iff_of_complete hstatic hcomplete, mem_flatten_iff_of_complete hstatic hcomplete']

/-- Two messages of one mailbox. -/
def twoMessages : MessageHistory where
  messages := [{ mailOf 1 with mailAccountId := 1, id := 1, fetchedAt := 0 },
    { mailOf 2 with mailAccountId := 1, id := 2, fetchedAt := 0 }]
  nodup := by decide
  positive := by decide

/-- With a limit of two, the page with both messages is full, and an empty page follows it. -/
theorem walks_exact_full :
    (∃ forward, twoMailboxes.forwardWalk twoMessages 2 3 0 0 = some forward ∧
        twoMailboxes.Complete twoMessages forward ∧ pageIds forward = [[1, 2], []]) ∧
      ∃ backward, twoMailboxes.backwardWalk twoMessages 2 3 0 none = some backward ∧
        twoMailboxes.Complete twoMessages backward ∧ pageIds backward = [[2, 1], []] := by
  obtain ⟨forward, backward, hforward, hbackward, hcomplete, hcomplete', -⟩ :=
    walks_exact twoMailboxes twoMessages (Nat.succ_pos 1)
  have hids : (twoMailboxes.forwardWalk twoMessages 2 3 0 0).map pageIds = some [[1, 2], []] := by
    decide
  have hids' : (twoMailboxes.backwardWalk twoMessages 2 3 0 none).map pageIds =
      some [[2, 1], []] := by
    decide
  have hsame : twoMailboxes.forwardWalk twoMessages 2 3 0 0 = some forward := hforward
  have hsame' : twoMailboxes.backwardWalk twoMessages 2 3 0 none = some backward := hbackward
  rw [hsame, Option.map_some] at hids
  rw [hsame', Option.map_some] at hids'
  exact ⟨⟨forward, hsame, hcomplete, Option.some.inj hids⟩,
    backward, hsame', hcomplete', Option.some.inj hids'⟩

end PullSetup

end MailAggregator
