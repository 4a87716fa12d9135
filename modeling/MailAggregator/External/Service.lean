import MailAggregator.Repositories.MailAccounts
import MailAggregator.Repositories.Messages

set_option relaxedAutoImplicit false
set_option autoImplicit false

/-!
# The external pull service

One page of the external contract, in either direction: the mode checks in their order, the
mailboxes a page is restricted to, and the page with its cursor.

## Main definitions

* `MailAggregator.ExternalMessagesService.validateMode` — the checks of the query arguments.
* `MailAggregator.ExternalMessagesService.resolveAccountIds` — the effective mailbox set.
* `MailAggregator.ExternalMessagesService.listMessages` — one page.

## Main results

* `MailAggregator.ExternalMessagesService.listMessages_asc` — a forward request gets the forward
  page of the effective mailboxes.
* `MailAggregator.ExternalMessagesService.validateMode_error_names_field` — a rejected request
  names the argument it is rejected for.
-/

namespace MailAggregator

open PyText

/-- The mailbox of a message, as the external contract shows it. -/
structure ExternalMailAccountDTO where
  id : ℕ
  email : Text
  displayName : Option Text
  deriving DecidableEq, Repr

/-- One message of a page. -/
structure ExternalMessageDTO where
  id : ℕ
  subject : Option Text
  internalDate : Instant
  fromAddr : Text
  fromName : Option Text
  toAddrs : Text
  ccAddrs : Option Text
  mailAccount : ExternalMailAccountDTO
  bodyText : Text
  bodyHtml : Option Text
  bodyPresent : Bool
  bodyTruncated : Bool
  deriving DecidableEq, Repr

/-- The page of a forward request. -/
structure ExternalMessagesResponse where
  messages : List ExternalMessageDTO
  nextSinceId : ℕ
  hasMore : Bool
  deriving DecidableEq, Repr

/-- The page of a backward request. -/
structure ExternalMessagesResponseDesc where
  messages : List ExternalMessageDTO
  nextBeforeId : Option ℕ
  hasMore : Bool
  deriving DecidableEq, Repr

/-- A rejected request: the message and the argument it is about. -/
structure ValidationError where
  message : Text
  field : Text
  deriving DecidableEq, Repr

namespace ExternalMessagesService

/-! ## The checks -/

/-- `_validate_mode`: the checks in their order; the first one that fails decides. -/
def validateMode (order : Text) (sinceId : ℕ) (beforeId : Option ℤ) :
    Except ValidationError Unit :=
  if order ≠ "asc".toList ∧ order ≠ "desc".toList then
    .error ⟨"order must be 'asc' or 'desc'".toList, "order".toList⟩
  else if order = "asc".toList ∧ beforeId.isSome then
    .error ⟨"before_id допустим только при order=desc".toList, "before_id".toList⟩
  else if order = "desc".toList ∧ sinceId ≠ 0 then
    .error ⟨"since_id допустим только при order=asc".toList, "since_id".toList⟩
  else if sinceId ≠ 0 ∧ beforeId.isSome then
    .error ⟨"since_id и before_id взаимоисключающи".toList, "cursor".toList⟩
  else if ∃ b ∈ beforeId, b < 1 then
    .error ⟨"before_id must be >= 1".toList, "before_id".toList⟩
  else .ok ()

/-- A forward request without `before_id` passes the checks. -/
theorem validateMode_asc (sinceId : ℕ) : validateMode "asc".toList sinceId none = .ok () := by
  simp [validateMode]

/-- **The fields a rejection can name.** No request reaches the check of the two cursors
together, so none is rejected with the field `cursor`. -/
theorem validateMode_error_names_field {order : Text} {sinceId : ℕ} {beforeId : Option ℤ}
    {e : ValidationError} (h : validateMode order sinceId beforeId = .error e) :
    (e.field = "order".toList ∧ order ≠ "asc".toList ∧ order ≠ "desc".toList) ∨
      (e.field = "before_id".toList ∧ beforeId.isSome) ∨
        (e.field = "since_id".toList ∧ order = "desc".toList ∧ sinceId ≠ 0) := by
  unfold validateMode at h
  split_ifs at h with h₁ h₂ h₃ h₄ h₅
  · obtain rfl := Except.error.inj h
    exact Or.inl ⟨rfl, h₁⟩
  · obtain rfl := Except.error.inj h
    exact Or.inr (Or.inl ⟨rfl, h₂.2⟩)
  · obtain rfl := Except.error.inj h
    exact Or.inr (Or.inr ⟨rfl, h₃⟩)
  · -- both cursors together: the mode checks have already rejected either direction
    exfalso
    by_cases hasc : order = "asc".toList
    · exact h₂ ⟨hasc, h₄.2⟩
    · exact h₃ ⟨by tauto, h₄.1⟩
  · obtain rfl := Except.error.inj h
    obtain ⟨b, hb, _⟩ := h₅
    exact Or.inr (Or.inl ⟨rfl, by simp [Option.mem_def.mp hb]⟩)

/-! ## The pages -/

/-- `_resolve_account_ids`: the canonical mailboxes, narrowed to the requested ones if any are
requested. -/
def resolveAccountIds (lower : Text → Text) (accounts : List MailAccount)
    (mailAccountIds : Option (List ℕ)) : List ℕ :=
  let effective := MailAccountsRepo.listCanonicalAccountIds lower accounts
  match mailAccountIds with
  | none | some [] => effective
  | some ids => effective.filter fun i => i ∈ ids

/-- `_build_dtos` on one row. -/
def buildDto (row : Message × MailAccount) : ExternalMessageDTO where
  id := row.1.id
  subject := row.1.subject
  internalDate := row.1.internalDate
  fromAddr := row.1.fromAddr
  fromName := row.1.fromName
  toAddrs := row.1.toAddrs
  ccAddrs := row.1.ccAddrs
  mailAccount := { id := row.2.id, email := row.2.email, displayName := row.2.displayName }
  bodyText := row.1.bodyText
  bodyHtml := row.1.bodyHtml
  bodyPresent := row.1.bodyPresent
  bodyTruncated := row.1.bodyTruncated

/-- `_list_forward`. -/
def listForward (messages : List Message) (accounts : List MailAccount)
    (mailAccountIds : List ℕ) (sinceId limit : ℕ) : ExternalMessagesResponse :=
  let rows := MessagesRepo.listSinceId messages accounts mailAccountIds sinceId limit
  { messages := rows.map buildDto
    nextSinceId := match rows.getLast? with
      | some row => row.1.id
      | none => sinceId
    hasMore := rows.length = limit }

/-- `_list_backward`. -/
def listBackward (messages : List Message) (accounts : List MailAccount)
    (mailAccountIds : List ℕ) (beforeId : Option ℕ) (limit : ℕ) : ExternalMessagesResponseDesc :=
  let rows := MessagesRepo.listBeforeId messages accounts mailAccountIds beforeId limit
  { messages := rows.map buildDto
    nextBeforeId := rows.getLast?.map fun row => row.1.id
    hasMore := rows.length = limit }

/-- `list_messages`: the checks, then the page of the requested direction. -/
def listMessages (lower : Text → Text) (messages : List Message) (accounts : List MailAccount)
    (order : Text) (sinceId : ℕ) (beforeId : Option ℤ) (limit : ℕ)
    (mailAccountIds : Option (List ℕ)) :
    Except ValidationError (ExternalMessagesResponse ⊕ ExternalMessagesResponseDesc) :=
  match validateMode order sinceId beforeId with
  | .error e => .error e
  | .ok () =>
    let accountIds := resolveAccountIds lower accounts mailAccountIds
    if order = "asc".toList then
      .ok (.inl (listForward messages accounts accountIds sinceId limit))
    else
      .ok (.inr (listBackward messages accounts accountIds (beforeId.map Int.toNat) limit))

/-- **A forward request** gets the forward page of the effective mailboxes. -/
theorem listMessages_asc (lower : Text → Text) (messages : List Message)
    (accounts : List MailAccount) (sinceId limit : ℕ) (mailAccountIds : Option (List ℕ)) :
    listMessages lower messages accounts "asc".toList sinceId none limit mailAccountIds =
      .ok (.inl (listForward messages accounts (resolveAccountIds lower accounts mailAccountIds)
        sinceId limit)) := by
  rw [listMessages, validateMode_asc]
  rfl

/-- The effective mailboxes exist. -/
theorem resolveAccountIds_subset {lower : Text → Text} {accounts : List MailAccount}
    {mailAccountIds : Option (List ℕ)} {i : ℕ}
    (h : i ∈ resolveAccountIds lower accounts mailAccountIds) :
    i ∈ accounts.map MailAccount.id := by
  have hcanon : ∀ j ∈ MailAccountsRepo.listCanonicalAccountIds lower accounts,
      j ∈ accounts.map MailAccount.id := fun j hj => by
    obtain ⟨a, ha, rfl⟩ := List.mem_map.mp hj
    exact List.mem_map_of_mem (List.mem_filter.mp ha).1
  unfold resolveAccountIds at h
  split at h
  · exact hcanon _ h
  · exact hcanon _ h
  · exact hcanon _ (List.mem_filter.mp h).1

/-- The ids and the cursor of a forward page. -/
theorem listForward_ids (messages : List Message) (accounts : List MailAccount)
    (mailAccountIds : List ℕ) (sinceId limit : ℕ) :
    (listForward messages accounts mailAccountIds sinceId limit).messages.map
        ExternalMessageDTO.id =
      (MessagesRepo.listSinceId messages accounts mailAccountIds sinceId limit).map
        fun row => row.1.id := by
  rw [listForward, List.map_map]
  rfl

end ExternalMessagesService

end MailAggregator
