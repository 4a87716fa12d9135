import MailAggregator.Accounts.UpdateFrame
import MailAggregator.Lib.LostUpdate
import MailAggregator.Lib.Transition

set_option relaxedAutoImplicit false
set_option autoImplicit false

/-!
# Concurrent mailbox updates

An update reads its row, may probe the new credentials for a while, and then writes nine columns
that it has built from what it read, whether or not its body names them. A request that commits in
between loses what it asked for, unless the other one happens to write the same values.

## Main definitions

* `MailAggregator.ExternalMailboxService.Column` — the columns that a request can ask for.
* `MailAggregator.ExternalMailboxService.asked`, `ExternalMailboxService.written` — what a request
  asks for, and what it writes.
* `MailAggregator.ExternalMailboxService.Race.system` — requests on one password account.
* `MailAggregator.ExternalMailboxService.Race.Fresh` — the condition on a commit.

## Main results

* `MailAggregator.ExternalMailboxService.read_rowWrites` — the writes of the service, by column.
* `MailAggregator.ExternalMailboxService.concurrentPatches_iff` — which runs undo nothing.
* `MailAggregator.ExternalMailboxService.concurrentPatch_undone` — a host that is written back.
-/

namespace MailAggregator

open PyText Credentials MailAccountsRepo MailAccountService Transition

namespace ExternalMailboxService

/-! ## Columns -/

/-- A column that a request can ask for. -/
inductive Column where
  | email
  | encryptedPassword
  | displayName
  | imapHost
  | imapPort
  | imapSsl
  | smtpHost
  | smtpPort
  | smtpSsl
  | smtpStarttls
  | smtpUsername
  | smtpEncryptedPassword
  | isActive
  deriving DecidableEq, Repr

/-- The value of a column. -/
inductive ColumnValue where
  | text (value : Text)
  | optionalText (value : Option Text)
  | number (value : ℕ)
  | flag (value : Bool)
  | blob (value : Option Blob)
  deriving DecidableEq, Repr

/-- The value of a column in a row. -/
def Column.read (a : MailAccount) : Column → ColumnValue
  | email => .text a.email
  | encryptedPassword => .blob a.encryptedPassword
  | displayName => .optionalText a.displayName
  | imapHost => .text a.imapHost
  | imapPort => .number a.imapPort
  | imapSsl => .flag a.imapSsl
  | smtpHost => .text a.smtpHost
  | smtpPort => .number a.smtpPort
  | smtpSsl => .flag a.smtpSsl
  | smtpStarttls => .flag a.smtpStarttls
  | smtpUsername => .optionalText a.smtpUsername
  | smtpEncryptedPassword => .blob a.smtpEncryptedPassword
  | isActive => .flag a.isActive

/-- A text that is submitted and not empty. -/
def submitted (value : Option Text) : Option ColumnValue :=
  if Submitted value then value.map .text else none

/-- **What a request asks for**: the values of the fields that its body names. An empty text and an
absent login or secret name nothing. -/
def asked (payload : ExternalMailboxUpdateRequest) (accountId : ℕ) : Column → Option ColumnValue :=
  let p := MailAccountUpdateRequest.ofExternal payload
  fun
  | .email => submitted p.email
  | .encryptedPassword => (sealed p.password accountId).map fun b => .blob (some b)
  | .displayName => p.displayName.map fun v => .optionalText (some v)
  | .imapHost => submitted p.imapHost
  | .imapPort => p.imapPort.map .number
  | .imapSsl => p.imapSsl.map .flag
  | .smtpHost => submitted p.smtpHost
  | .smtpPort => p.smtpPort.map .number
  | .smtpSsl => p.smtpSsl.map .flag
  | .smtpStarttls => p.smtpStarttls.map .flag
  | .smtpUsername => p.smtpUsername.map fun v => .optionalText (some v)
  | .smtpEncryptedPassword => (sealed p.smtpPassword accountId).map fun b => .blob (some b)
  | .isActive => if payload.setIsActive then payload.isActive.map .flag else none

/-- **What a request writes** to a password account, from the row that it has read: nine columns
always, and the others when they are asked for or reset. -/
def written (payload : ExternalMailboxUpdateRequest) (acc : MailAccount) :
    Column → Option ColumnValue :=
  let p := MailAccountUpdateRequest.ofExternal payload
  let v := resolve p acc
  let field := fun value : ColumnValue => if payload.HasAccountFields then some value else none
  fun
  | .email => field (.text v.email)
  | .encryptedPassword => v.encryptedPassword.map fun b => .blob (some b)
  | .displayName => v.displayName.map .optionalText
  | .imapHost => field (.text v.imapHost)
  | .imapPort => field (.number v.imapPort)
  | .imapSsl => field (.flag v.imapSsl)
  | .smtpHost => field (.text v.smtpHost)
  | .smtpPort => field (.number v.smtpPort)
  | .smtpSsl => field (.flag v.smtpSsl)
  | .smtpStarttls => field (.flag v.smtpStarttls)
  | .smtpUsername => field (.optionalText v.smtpUsername)
  | .smtpEncryptedPassword => v.smtpEncryptedPassword.map fun b => .blob (some b)
  | .isActive =>
    if payload.setIsActive then some (.flag (payload.isActive.getD false))
    else if CredsChanged p then some (.flag true)
    else none

/-- **A column that a request writes unasked holds what it writes**: the row has the value that the
request has read, the login is trimmed, and the flag has the value that the request resets it to. -/
def Current (payload : ExternalMailboxUpdateRequest) (acc row : MailAccount) : Column → Prop
  | .encryptedPassword | .smtpEncryptedPassword | .displayName => True
  | .isActive =>
    (payload.setIsActive → payload.isActive = none → row.isActive = false) ∧
      (payload.setIsActive = false → CredsChanged (.ofExternal payload) → row.isActive = true)
  | .smtpUsername =>
    payload.HasAccountFields → row.smtpUsername = normalizeOptionalLogin acc.smtpUsername
  | c => payload.HasAccountFields → c.read row = c.read acc

section Writes

variable {env : Env} {payload : ExternalMailboxUpdateRequest} {acc a row : MailAccount}

/-- The switch changes no column but the flag. -/
theorem read_setActive (isActive : Bool) (now : Instant) (c : Column) :
    c.read (setActive isActive now a) =
      if c = .isActive then .flag isActive else c.read a := by
  rw [setActive_eq]
  cases c <;> rfl

/-- A request without account fields hands on none. -/
theorem fields_eq_none (h : ¬ payload.HasAccountFields) :
    (MailAccountUpdateRequest.ofExternal payload).toAccountFields = {} := by
  simp only [AccountFields.HasAccountFields, not_or, not_not] at h
  obtain ⟨hemail, hpassword, hname, hhost, hport, hssl, hsmtp, hsmtpPort, hsmtpSsl, htls, huser,
    hsecret⟩ := h
  simp [MailAccountUpdateRequest.ofExternal, AccountFields.scrub, trimDisplayName,
    normalizeOptionalLogin, normalizeOptionalSecret, hemail, hpassword, hname, hhost, hport, hssl,
    hsmtp, hsmtpPort, hsmtpSsl, htls, huser, hsecret]

/-- No request of the service clears the name. -/
@[simp] theorem clearDisplayName_ofExternal :
    (MailAccountUpdateRequest.ofExternal payload).clearDisplayName = false :=
  rfl

/-- The settings of an update, by column. -/
theorem read_updateSettings (hhas : payload.HasAccountFields) (now : Instant) {c : Column}
    (hc : c ≠ .isActive) :
    c.read (updateSettings (resolve (.ofExternal payload) acc) now a) =
      LostUpdate.write (fun c => c.read a) (written payload acc) c := by
  cases c with
  | isActive => exact absurd rfl hc
  | encryptedPassword =>
    simp only [LostUpdate.write, written, Column.read, updateSettings]
    cases (resolve (.ofExternal payload) acc).encryptedPassword <;> rfl
  | smtpEncryptedPassword =>
    simp only [LostUpdate.write, written, Column.read, updateSettings]
    cases (resolve (.ofExternal payload) acc).smtpEncryptedPassword <;> rfl
  | displayName =>
    simp only [LostUpdate.write, written, Column.read, updateSettings]
    cases (resolve (.ofExternal payload) acc).displayName <;> rfl
  | _ =>
    simp only [LostUpdate.write, written, if_pos hhas, Option.getD_some]
    rfl

/-- Without account fields no column but the flag is written. -/
theorem written_of_no_fields (h : ¬ payload.HasAccountFields) {c : Column} (hc : c ≠ .isActive) :
    written payload acc c = none := by
  cases c with
  | isActive => exact absurd rfl hc
  | _ => simp [written, h, resolve, sealed, fields_eq_none h]

/-- New credentials are account fields. -/
theorem hasAccountFields_of_credsChanged (h : CredsChanged (.ofExternal payload)) :
    payload.HasAccountFields := by
  by_contra hno
  simp [CredsChanged, Submitted, fields_eq_none hno] at h

/-- The row before the switch, by column. -/
theorem read_accountFields (hauth : acc.authType = .password) (c : Column) :
    c.read (if payload.HasAccountFields then
        accountWrites (.ofExternal payload) acc env.now a else a) =
      if c = .isActive then .flag (if CredsChanged (.ofExternal payload) then true else a.isActive)
      else LostUpdate.write (fun c => c.read a) (written payload acc) c := by
  by_cases hhas : payload.HasAccountFields
  · rw [if_pos hhas, accountWrites_eq, fieldWrites, hauth]
    by_cases hc : c = .isActive
    · subst hc
      by_cases hcreds : CredsChanged (.ofExternal payload)
      · simp [hcreds, read_setActive]
      · simp only [hcreds, and_false, if_false, if_true]
        rfl
    · rw [if_neg hc, ← read_updateSettings hhas env.now hc]
      split_ifs
      · rw [read_setActive, if_neg hc]
      · rfl
  · rw [if_neg hhas]
    by_cases hc : c = .isActive
    · subst hc
      simp [mt hasAccountFields_of_credsChanged hhas, Column.read]
    · rw [if_neg hc, LostUpdate.write, written_of_no_fields hhas hc, Option.getD_none]

/-- **The writes of the service, by column.** -/
theorem read_rowWrites (hauth : acc.authType = .password) (c : Column) :
    c.read (rowWrites env payload acc a) =
      LostUpdate.write (fun c => c.read a) (written payload acc) c := by
  simp only [rowWrites]
  by_cases hc : c = .isActive
  · subst hc
    by_cases hswitch : payload.setIsActive
    · simp [hswitch, read_setActive, LostUpdate.write, written]
    · rw [if_neg hswitch, read_accountFields hauth, if_pos rfl]
      by_cases hcreds : CredsChanged (.ofExternal payload)
      · simp [LostUpdate.write, written, hswitch, hcreds]
      · simp [LostUpdate.write, written, hswitch, hcreds, Column.read]
  · by_cases hswitch : payload.setIsActive
    · rw [if_pos hswitch, read_setActive, if_neg hc, read_accountFields hauth, if_neg hc]
    · rw [if_neg hswitch, read_accountFields hauth, if_neg hc]

/-- A text is asked for, or the stored one is written back. -/
theorem text_orStored (value : Option Text) (stored : Text) :
    some (.text (orStored value stored)) = (submitted value <|> some (.text stored)) := by
  rcases value with _ | _ | ⟨x, xs⟩ <;> rfl

/-- A value is asked for, or the stored one is written back. -/
theorem value_getD {α : Type*} (f : α → ColumnValue) (value : Option α) (stored : α) :
    some (f (value.getD stored)) = (value.map f <|> some (f stored)) := by
  cases value <;> rfl

/-- A login is asked for, or the stored one is written back. -/
theorem login_resolved :
    some (.optionalText (resolve (.ofExternal payload) acc).smtpUsername) =
      (asked payload acc.id .smtpUsername <|>
        some (.optionalText (normalizeOptionalLogin acc.smtpUsername))) := by
  have hnormal : normalizeOptionalLogin (MailAccountUpdateRequest.ofExternal payload).smtpUsername =
      (MailAccountUpdateRequest.ofExternal payload).smtpUsername := by
    simp [MailAccountUpdateRequest.ofExternal, AccountFields.scrub]
  cases hlogin : (MailAccountUpdateRequest.ofExternal payload).smtpUsername with
  | none => simp [asked, resolve, hlogin]
  | some v =>
    rw [hlogin] at hnormal
    simp [asked, resolve, hlogin, hnormal]

/-- What an update writes to the columns that it is not asked for: it writes back what it has
read. -/
def writtenBack (acc : MailAccount) : Column → Option ColumnValue
  | .encryptedPassword | .smtpEncryptedPassword | .displayName | .isActive => none
  | .smtpUsername => some (.optionalText (normalizeOptionalLogin acc.smtpUsername))
  | c => some (c.read acc)

/-- An update writes what it is asked for, and writes back the rest. -/
theorem written_eq (hhas : payload.HasAccountFields) {c : Column} (hc : c ≠ .isActive) :
    written payload acc c = (asked payload acc.id c <|> writtenBack acc c) := by
  cases c with
  | isActive => exact absurd rfl hc
  | email | imapHost | smtpHost => 
    simp only [written, if_pos hhas]
    exact text_orStored _ _
  | imapPort | imapSsl | smtpPort | smtpSsl | smtpStarttls =>
    simp only [written, if_pos hhas]
    exact value_getD _ _ _
  | smtpUsername =>
    simp only [written, if_pos hhas]
    exact login_resolved
  | displayName => simp [written, asked, writtenBack, resolve, Function.comp_def]
  | encryptedPassword | smtpEncryptedPassword => simp [written, asked, writtenBack, resolve]

/-- A request without account fields asks for none. -/
theorem asked_of_no_fields (h : ¬ payload.HasAccountFields) (accountId : ℕ) {c : Column}
    (hc : c ≠ .isActive) : asked payload accountId c = none := by
  cases c with
  | isActive => exact absurd rfl hc
  | _ => simp [asked, sealed, submitted, Submitted, fields_eq_none h]

/-- A request writes what it asks for. -/
theorem written_of_asked {c : Column} {v : ColumnValue} (h : asked payload acc.id c = some v) :
    written payload acc c = some v := by
  by_cases hc : c = .isActive
  · subst hc
    simp only [asked] at h
    split_ifs at h with hswitch
    obtain ⟨b, hb, rfl⟩ := Option.map_eq_some_iff.mp h
    simp [written, hswitch, hb]
  · by_cases hhas : payload.HasAccountFields
    · rw [written_eq hhas hc, h]
      rfl
    · rw [asked_of_no_fields hhas _ hc] at h
      cases h

/-- What a request writes unasked. -/
theorem written_eq_read_iff {c : Column} (h : asked payload acc.id c = none) :
    (∀ v, written payload acc c = some v → c.read row = v) ↔ Current payload acc row c := by
  by_cases hc : c = .isActive
  · subst hc
    simp only [asked] at h
    simp only [written, Current, Column.read]
    by_cases hswitch : payload.setIsActive
    · rw [if_pos hswitch, Option.map_eq_none_iff] at h
      simp [hswitch, h]
    · by_cases hcreds : CredsChanged (.ofExternal payload)
      · simp [hswitch, hcreds]
      · simp [hswitch, hcreds]
  · by_cases hhas : payload.HasAccountFields
    · rw [written_eq hhas hc, h]
      cases c with
      | isActive => exact absurd rfl hc
      | _ => simp [writtenBack, Current, hhas, Column.read]
    · rw [written_of_no_fields hhas hc]
      cases c with
      | isActive => exact absurd rfl hc
      | _ => simp [Current, hhas]

end Writes

/-! ## The race -/

/-- The requests that race: what each one meets, and what it sends. -/
structure Race (ι : Type*) where
  accountId : ℕ
  env : ι → Env
  payload : ι → ExternalMailboxUpdateRequest

/-- The row, what the requests have read of it, and the requests that have committed. -/
structure RaceState (ι : Type*) where
  row : MailAccount
  snapshots : ι → Option MailAccount
  committed : List ι

/-- The steps of a request. It probes new credentials between the two. -/
inductive RaceLabel (ι : Type*) where
  /-- The request reads the row, without a lock. -/
  | read (i : ι)
  /-- The request writes and commits. -/
  | commit (i : ι)

namespace Race

variable {ι : Type*} (r : Race ι)

/-- What a request asks for. -/
def asked (i : ι) : Column → Option ColumnValue :=
  ExternalMailboxService.asked (r.payload i) r.accountId

/-- A request passes its checks and its probe on the row that it has read. -/
def Succeeds (i : ι) (snapshot : MailAccount) : Prop :=
  (update (r.env i) [snapshot] r.accountId (r.payload i)).toOption.isSome

instance (i : ι) (snapshot : MailAccount) : Decidable (r.Succeeds i snapshot) :=
  inferInstanceAs (Decidable (_ = true))

/-- The requests name disjoint sets of fields. -/
def Disjoint : Prop := ∀ i j, i ≠ j → ∀ c, r.asked i c = none ∨ r.asked j c = none

/-- **The commits undo nothing**: every column that a committed request asked for holds the value
that it asked for. -/
def Kept (s : RaceState ι) : Prop := LostUpdate.Kept r.asked s.committed (Column.read s.row)

/-- **The condition on a commit.** What the request writes unasked to a column that a committed
request has asked for is what the row holds. -/
def Fresh (s : RaceState ι) : RaceLabel ι → Prop
  | .read _ => True
  | .commit i =>
    ∀ snapshot ∈ s.snapshots i, ∀ c, (∃ j ∈ s.committed, r.asked j c ≠ none) →
      Current (r.payload i) snapshot s.row c

variable [DecidableEq ι]

/-- Requests on one password account. -/
def system : System (RaceState ι) (RaceLabel ι) where
  init s :=
    s.row.id = r.accountId ∧ s.row.authType = .password ∧ s.snapshots = (fun _ => none) ∧
      s.committed = []
  next s
    | .read i =>
      if s.snapshots i = none then
        some { s with snapshots := Function.update s.snapshots i (some s.row) }
      else none
    | .commit i =>
      match s.snapshots i with
      | none => none
      | some snapshot =>
        if i ∈ s.committed ∨ ¬ r.Succeeds i snapshot then none
        else
          some
            { s with
              row := rowWrites (r.env i) (r.payload i) snapshot s.row
              committed := i :: s.committed }

/-- The row and what has been read of it belong to the password account. -/
structure Inv (s : RaceState ι) : Prop where
  row : s.row.id = r.accountId ∧ s.row.authType = .password
  snapshots : ∀ i, ∀ snapshot ∈ s.snapshots i,
    snapshot.id = r.accountId ∧ snapshot.authType = .password

variable {r} {s s' t : RaceState ι}

/-- What a request does when it commits. -/
theorem next_commit {i : ι} (h : r.system.next s (.commit i) = some s') :
    ∃ snapshot, s.snapshots i = some snapshot ∧ i ∉ s.committed ∧
      s' = { s with
        row := rowWrites (r.env i) (r.payload i) snapshot s.row
        committed := i :: s.committed } := by
  simp only [system] at h
  split at h
  · cases h
  · next snapshot hsnapshot =>
    split_ifs at h with hdone
    exact ⟨snapshot, hsnapshot, fun h => hdone (Or.inl h), (Option.some.inj h).symm⟩

/-- What a request does when it reads. -/
theorem next_read {i : ι} (h : r.system.next s (.read i) = some s') :
    s' = { s with snapshots := Function.update s.snapshots i (some s.row) } := by
  simp only [system] at h
  split_ifs at h
  exact (Option.some.inj h).symm

/-- The writes of a request leave the kind of the account alone. -/
theorem rowWrites_authType (env : Env) (payload : ExternalMailboxUpdateRequest)
    (snapshot row : MailAccount) :
    (rowWrites env payload snapshot row).authType = row.authType := by
  rw [rowWrites_get MailAccount.authType (fun _ _ _ => by rw [setActive_eq])]
  split_ifs
  · cases hauth : snapshot.authType with
    | oauthOutlook =>
      rw [fieldWrites, hauth]
      rcases accountWrites_oauth (.ofExternal payload) hauth env.now row with hsame | ⟨_, -, hnamed⟩
      · rw [hsame]
      · rw [hnamed]
    | password =>
      rw [fieldWrites, hauth]
      rfl
  · rfl

/-- A step keeps the invariant. -/
theorem inv_next {label : RaceLabel ι} (hinv : r.Inv s) (h : r.system.next s label = some s') :
    r.Inv s' := by
  cases label with
  | read i =>
    obtain rfl := next_read h
    refine ⟨hinv.row, fun j snapshot hsnapshot => ?_⟩
    simp only [Function.update_apply] at hsnapshot
    split_ifs at hsnapshot
    · obtain rfl := Option.some.inj hsnapshot
      exact hinv.row
    · exact hinv.snapshots j snapshot hsnapshot
  | commit i =>
    obtain ⟨snapshot, -, -, rfl⟩ := next_commit h
    refine ⟨⟨?_, ?_⟩, hinv.snapshots⟩
    · simpa using hinv.row.1
    · simpa [rowWrites_authType] using hinv.row.2

/-- **One step undoes nothing exactly when it meets the condition.**

**Proof sketch.** A read changes no column. A commit writes to the row the columns of its request
and the stale ones of its snapshot. What it asked for is kept, and a column that another request has
asked for is, since the two are disjoint, written from the snapshot; it is kept exactly if the
snapshot has what the row has. -/
theorem kept_next_iff (hdisjoint : r.Disjoint) {label : RaceLabel ι} (hinv : r.Inv s)
    (hkept : r.Kept s) (h : r.system.next s label = some s') :
    r.Kept s' ↔ r.Fresh s label := by
  cases label with
  | read i =>
    obtain rfl := next_read h
    exact ⟨fun _ => trivial, fun _ => hkept⟩
  | commit i =>
    obtain ⟨snapshot, hsnapshot, hnew, rfl⟩ := next_commit h
    obtain ⟨hid, hauth⟩ := hinv.snapshots i snapshot hsnapshot
    have hrow : Column.read (rowWrites (r.env i) (r.payload i) snapshot s.row) =
        LostUpdate.write (Column.read s.row) (written (r.payload i) snapshot) :=
      funext fun c => read_rowWrites hauth c
    have hwritten : ∀ c v, r.asked i c = some v → written (r.payload i) snapshot c = some v := by
      intro c v hv
      rw [asked, ← hid] at hv
      exact written_of_asked hv
    have hiff := LostUpdate.kept_write_iff hkept hwritten
    rw [Kept, hrow, hiff]
    simp only [Fresh, hsnapshot, Option.mem_def, Option.some.injEq, forall_eq']
    -- another request has asked for the column, so that this one has not
    have hunasked : ∀ c, (∃ j ∈ s.committed, r.asked j c ≠ none) →
        ExternalMailboxService.asked (r.payload i) snapshot.id c = none := by
      rintro c ⟨j, hj, hasked⟩
      have hne : i ≠ j := fun heq => hnew (heq ▸ hj)
      rw [hid]
      exact (hdisjoint i j hne c).resolve_right hasked
    constructor
    · intro hharmless c hc
      exact (written_eq_read_iff (hunasked c hc)).mp fun v hv => hharmless c v hv hc
    · intro hfresh c v hv hc
      exact (written_eq_read_iff (hunasked c hc)).mpr (hfresh c hc) v hv

end Race

/-- **When concurrent requests undo nothing.** A run of requests that name disjoint fields keeps in
each of its states what the committed requests have asked for, exactly when every commit meets the
condition.

**Proof sketch.** A request writes what it asks for, and writes back what it has read of the other
columns. The columns that a committed request asked for hold what it asked for, so a commit keeps
them exactly when it writes to them what they hold. Each state of a run has the row and the
snapshots of the one password account. -/
theorem concurrentPatches_iff {ι : Type*} [DecidableEq ι] (r : Race ι) (hdisjoint : r.Disjoint)
    {s t : RaceState ι} {labels : List (RaceLabel ι)} (hinit : r.system.init s)
    (hrun : r.system.run s labels = some t) :
    r.system.Along r.Kept s labels ↔ r.system.Meets r.Fresh s labels := by
  obtain ⟨hid, hauth, hsnapshots, hcommitted⟩ := hinit
  refine System.along_iff_meets (I := r.Inv) (fun s label s' => Race.inv_next)
    (fun s label s' => Race.kept_next_iff hdisjoint) ⟨⟨hid, hauth⟩, ?_⟩ ?_ hrun
  · rw [hsnapshots]
    intro i snapshot hsnapshot
    cases hsnapshot
  · rw [Race.Kept, hcommitted]
    intro i hi
    cases hi

/-! ## Two requests -/

/-- One request names the host, the other one the port. -/
def hostAndPort : Race Bool where
  accountId := 1
  env := fun _ => openEnv
  payload
    | true =>
      { imapHost := some "mail.example.com".toList
        isActive := none
        setIsActive := false
        inBounds := by decide }
    | false =>
      { imapPort := some 1993
        isActive := none
        setIsActive := false
        inBounds := by decide }

/-- They race on an active mailbox. -/
def hostAndPortStart : RaceState Bool where
  row := activeMailbox
  snapshots := fun _ => none
  committed := []

/-- The first request asks for the host only. -/
theorem asked_host {c : Column} (hc : c ≠ .imapHost) : hostAndPort.asked true c = none := by
  cases c with
  | imapHost => exact absurd rfl hc
  | _ => rfl

/-- The two name different columns. -/
theorem hostAndPort_disjoint : hostAndPort.Disjoint := by
  have hport (c : Column) (hc : c ≠ .imapPort) : hostAndPort.asked false c = none := by
    cases c with
    | imapPort => exact absurd rfl hc
    | _ => rfl
  intro i j hij c
  by_cases hc : c = .imapHost
  · subst hc
    cases i with
    | true =>
      cases j with
      | true => exact absurd rfl hij
      | false => exact Or.inr (hport _ (by decide))
    | false => exact Or.inl (hport _ (by decide))
  · cases i with
    | true => exact Or.inl (asked_host hc)
    | false =>
      cases j with
      | true => exact Or.inr (asked_host hc)
      | false => exact absurd rfl hij

/-- One after the other they undo nothing. -/
theorem concurrentPatches_serial :
    hostAndPort.system.Along hostAndPort.Kept hostAndPortStart
      [.read true, .commit true, .read false, .commit false] := by
  obtain ⟨t, hrun⟩ : ∃ t, hostAndPort.system.run hostAndPortStart
      [.read true, .commit true, .read false, .commit false] = some t := ⟨_, rfl⟩
  refine (concurrentPatches_iff hostAndPort hostAndPort_disjoint ⟨rfl, rfl, rfl, rfl⟩ hrun).mpr ?_
  refine ⟨trivial, fun s₁ h₁ => ?_⟩
  obtain rfl := Race.next_read h₁
  refine ⟨?_, fun s₂ h₂ => ?_⟩
  · rintro snapshot - c ⟨j, hj, -⟩
    cases hj
  obtain ⟨snapshot, -, -, rfl⟩ := Race.next_commit h₂
  refine ⟨trivial, fun s₃ h₃ => ?_⟩
  obtain rfl := Race.next_read h₃
  refine ⟨?_, fun s₄ h₄ => trivial⟩
  -- the second request has read what the first one has committed
  rintro snapshot' hsnapshot c ⟨j, hj, hasked⟩
  obtain rfl := List.mem_singleton.mp hj
  have hc : c = .imapHost := by
    by_contra hc
    exact hasked (asked_host hc)
  subst hc
  obtain rfl := Option.some.inj hsnapshot
  exact fun _ => rfl

/-- **A host that is written back**: both requests read the row before either commits, and the one
for the port comes last. -/
theorem concurrentPatch_undone :
    ¬ ∀ (r : Race Bool) (s t : RaceState Bool) (labels : List (RaceLabel Bool)), r.Disjoint →
      r.system.init s → r.system.run s labels = some t → (∀ i, i ∈ t.committed) → r.Kept t := by
  intro h
  obtain ⟨t, hrun, hcommitted, hrow⟩ : ∃ t, hostAndPort.system.run hostAndPortStart
      [.read true, .read false, .commit true, .commit false] = some t ∧
      t.committed = [false, true] ∧ t.row.imapHost = "imap.example.com".toList :=
    ⟨_, rfl, rfl, rfl⟩
  have hkept := h hostAndPort hostAndPortStart t _ hostAndPort_disjoint ⟨rfl, rfl, rfl, rfl⟩ hrun
    (by rw [hcommitted]; decide)
  have hhost := hkept true (by rw [hcommitted]; decide) .imapHost
    (.text "mail.example.com".toList) rfl
  rw [Column.read, hrow] at hhost
  exact absurd hhost (by decide)

end ExternalMailboxService

end MailAggregator
