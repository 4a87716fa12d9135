import Mathlib.Data.List.Nodup
import MailAggregator.Lib.Transition
import MailAggregator.Repositories.Users

set_option relaxedAutoImplicit false
set_option autoImplicit false

/-!
# The seeds of the technical user

Every start of the API seeds the row of `crm-service`, and the migration of the owners does so too.
Several of them may run at once. A seed looks for the row, and inserts it in a savepoint if there is
none; the unique key of the usernames lets one of two inserts wait for the transaction of the other.
A seed that finds the row without its role updates it, and holds the lock of the row until its
transaction ends. The migration goes on behind its insert, with statements that are no business of
the row.

The rest of the migration waits for table locks that are not modelled here. Without them more
interleavings are possible, so that safety covers the migration as well; that a seed can end is
shown of the starts alone, since a migration and a start may wait for each other.

## Main definitions

* `MailAggregator.CrmServiceSeed.SeedState` — the committed rows, the insert that is not committed,
  the lock of the row, and the transactions.
* `MailAggregator.CrmServiceSeed.seedSystem` — the seeds, in any interleaving.
* `MailAggregator.CrmServiceSeed.Seeded` — the invariant.

## Main results

* `MailAggregator.CrmServiceSeed.seeded_next` — a step keeps the invariant.
* `MailAggregator.CrmServiceSeed.seed_safe` — there is at most one row, a seed that has ended has
  left it with its role, and one seed at most has created it.
* `MailAggregator.CrmServiceSeed.seed_can_end` — among starts, no seed waits forever.
-/

namespace MailAggregator

open PyText Transition

namespace CrmServiceSeed

/-- What `seed_crm_service_user` returns. -/
inductive SeedResult where
  | created
  | updated
  | unchanged
  deriving DecidableEq, Repr

/-- The transaction of a seed. The `INSERT … ON CONFLICT DO NOTHING` of the migration has no
result. -/
inductive Process where
  | start
  /-- `get_by_username` has found no row. -/
  | absent
  /-- It has found a row with another role. -/
  | stale
  /-- The `INSERT` of the migration is done, and the rest of its `upgrade` is ahead. -/
  | upgrading
  /-- The statements are done. -/
  | settled (result : Option SeedResult)
  /-- The transaction is committed. -/
  | ended (result : Option SeedResult)
  /-- The transaction is rolled back. -/
  | failed
  deriving DecidableEq, Repr

/-- A seed that is neither committed nor rolled back. -/
def Process.Running : Process → Prop
  | .ended _ | .failed => False
  | _ => True

instance (p : Process) : Decidable p.Running :=
  match p with
  | .ended _ | .failed => inferInstanceAs (Decidable False)
  | .start | .absent | .stale | .upgrading | .settled _ => inferInstanceAs (Decidable True)

/-- The table, and the transactions by their numbers. -/
structure SeedState where
  /-- The committed rows. -/
  users : List User
  nextUserId : ℕ
  /-- The transaction with an insert that is not committed, and its row. -/
  pending : Option (ℕ × User) := none
  /-- The transaction that has updated the row and is not committed: it holds the lock of the row.
  -/
  locked : Option ℕ := none
  process : ℕ → Process := fun _ => .start

/-- The steps of the transactions. -/
inductive SeedLabel where
  /-- `get_by_username`. -/
  | read (p : ℕ)
  /-- The `INSERT` of `UsersRepo.create`, in its savepoint. -/
  | insert (p : ℕ)
  /-- The `UPDATE` of the role. -/
  | update (p : ℕ)
  /-- The statement of the migration. -/
  | insertOnConflict (p : ℕ)
  /-- The statements of the migration behind it. -/
  | upgrade (p : ℕ)
  | commit (p : ℕ)
  /-- A crash, or an error of the database. -/
  | rollback (p : ℕ)
  deriving DecidableEq, Repr

/-- There is a committed row. -/
def Exists (users : List User) : Prop := crmServiceUsername ∈ users.map User.username

instance (users : List User) : Decidable (Exists users) :=
  inferInstanceAs (Decidable (_ ∈ users.map User.username))

/-- The committed row has its role. -/
def HasRole (users : List User) : Prop :=
  ∀ u ∈ users, u.username = crmServiceUsername → u.role = roleSuperAdmin

/-- `existing.role = ROLE_SUPER_ADMIN`. -/
def setRole (users : List User) : List User :=
  users.map fun u =>
    if u.username = crmServiceUsername then { u with role := roleSuperAdmin } else u

/-- An insert draws an id. It waits for the insert of another transaction and for the update of the
row, and then it conflicts with a committed row, or its row is pending. -/
def insertRow (s : SeedState) (p : ℕ) (inserted conflict : Process) : Option SeedState :=
  if s.pending.isSome ∨ s.locked.isSome then none
  else if Exists s.users then
    some
      { s with
        nextUserId := s.nextUserId + 1
        process := Function.update s.process p conflict }
  else
    some
      { s with
        nextUserId := s.nextUserId + 1
        pending := some (p, UsersRepo.crmService s.nextUserId)
        process := Function.update s.process p inserted }

/-- The state after a step, where it is enabled. -/
def seedNext (s : SeedState) : SeedLabel → Option SeedState
  | .read p =>
    if s.process p = .start then
      let found : Process :=
        match UsersRepo.getByUsername s.users crmServiceUsername with
        | none => .absent
        | some existing =>
          if existing.role ≠ roleSuperAdmin then .stale else .settled (some .unchanged)
      some { s with process := Function.update s.process p found }
    else none
  | .insert p =>
    if s.process p = .absent then
      insertRow s p (.settled (some .created)) (.settled (some .unchanged))
    else none
  | .update p =>
    if s.process p = .stale ∧ s.locked = none then
      some
        { s with
          locked := some p
          process := Function.update s.process p (.settled (some .updated)) }
    else none
  | .insertOnConflict p =>
    if s.process p = .start then insertRow s p .upgrading .upgrading else none
  | .upgrade p =>
    if s.process p = .upgrading then
      some { s with process := Function.update s.process p (.settled none) }
    else none
  | .commit p =>
    match s.process p with
    | .settled result =>
      let users :=
        match s.pending with
        | some (q, row) => if q = p then s.users ++ [row] else s.users
        | none => s.users
      some
        { s with
          users := if result = some .updated then setRole users else users
          pending := s.pending.filter fun row => row.1 ≠ p
          locked := s.locked.filter (· ≠ p)
          process := Function.update s.process p (.ended result) }
    | _ => none
  | .rollback p =>
    if (s.process p).Running then
      some
        { s with
          pending := s.pending.filter fun row => row.1 ≠ p
          locked := s.locked.filter (· ≠ p)
          process := Function.update s.process p .failed }
    else none

/-- The seeds, from any table with unique usernames before the first of them starts. -/
def seedSystem : System SeedState SeedLabel where
  init s := (s.users.map User.username).Nodup ∧ s.pending = none ∧ s.locked = none ∧
    ∀ p, s.process p = .start
  next := seedNext

/-! ## The invariant -/

/-- What a transaction knows of the table. -/
def Knows (s : SeedState) (p : ℕ) : Process → Prop
  | .start | .failed => True
  | .absent => HasRole s.users
  | .stale | .settled (some .updated) | .ended none => Exists s.users
  | .settled (some .created) => ∃ row, s.pending = some (p, row)
  | .upgrading | .settled none => Exists s.users ∨ ∃ row, s.pending = some (p, row)
  | .settled (some .unchanged) | .ended (some _) => Exists s.users ∧ HasRole s.users

/-- A transaction has inserted the row, or met it. -/
def Inserted (x : Process) : Prop :=
  x = .settled (some .created) ∨ x = .upgrading ∨ x = .settled none

/-- **The invariant.** A pending row is the only one; the lock is held for an update; every
transaction knows what it has seen; and one has created the row at most. -/
structure Seeded (s : SeedState) : Prop where
  unique : (s.users.map User.username).Nodup
  pending : ∀ p row, s.pending = some (p, row) → row.username = crmServiceUsername ∧
    row.role = roleSuperAdmin ∧ ¬ Exists s.users ∧ Inserted (s.process p)
  locked : ∀ p, s.locked = some p → s.process p = .settled (some .updated)
  knows : ∀ p, Knows s p (s.process p)
  created : ∀ p q, s.process p = .ended (some .created) →
    s.process q = .ended (some .created) → p = q

/-! ## What a step can do -/

section Table

variable {users : List User}

theorem map_username_setRole (users : List User) :
    (setRole users).map User.username = users.map User.username := by
  rw [setRole, List.map_map]
  refine List.map_congr_left fun u _ => ?_
  by_cases h : u.username = crmServiceUsername <;> simp [h]

theorem exists_setRole : Exists (setRole users) ↔ Exists users := by
  rw [Exists, Exists, map_username_setRole]

theorem hasRole_setRole (users : List User) : HasRole (setRole users) := by
  intro u hu hname
  obtain ⟨v, -, rfl⟩ := List.mem_map.mp hu
  by_cases h : v.username = crmServiceUsername
  · simp [h]
  · simp [h] at hname

theorem exists_append {row : User} (hrow : row.username = crmServiceUsername) :
    Exists (users ++ [row]) := by
  simp [Exists, hrow]

theorem hasRole_append {row : User} (hrow : row.role = roleSuperAdmin) (h : HasRole users) :
    HasRole (users ++ [row]) := by
  intro u hu hname
  rcases List.mem_append.mp hu with hu | hu
  · exact h u hu hname
  · rw [List.mem_singleton.mp hu, hrow]

/-- No row is a row without the role. -/
theorem hasRole_of_not_exists (h : ¬ Exists users) : HasRole users :=
  fun _ hu hname => absurd (List.mem_map.mpr ⟨_, hu, hname⟩) h

theorem nodup_append {row : User} (hrow : row.username = crmServiceUsername)
    (h : ¬ Exists users) (hunique : (users.map User.username).Nodup) :
    ((users ++ [row]).map User.username).Nodup := by
  rw [List.map_append, List.map_singleton, hrow]
  refine List.nodup_append.mpr ⟨hunique, by simp, fun a ha b hb hab => ?_⟩
  rw [hab, List.mem_singleton.mp hb] at ha
  exact h ha

end Table

/-- What the steps of `p` leave alone: the row stays, and so does its role, and the other
transactions and their pending row are as before. -/
structure Frame (s t : SeedState) (p : ℕ) : Prop where
  exists_mono : Exists s.users → Exists t.users
  hasRole_mono : HasRole s.users → HasRole t.users
  pending : ∀ q, q ≠ p → ∀ row, s.pending = some (q, row) → t.pending = some (q, row)
  locked : ∀ q, t.locked = some q → s.locked = some q ∧ q ≠ p ∨
    q = p ∧ t.process p = .settled (some .updated)
  process : ∀ q, q ≠ p → t.process q = s.process q

section Steps

variable {s t : SeedState} {p : ℕ}

/-- What a transaction knows survives the steps of the others. -/
theorem Frame.knows (h : Frame s t p) {q : ℕ} (hq : q ≠ p) (hk : Knows s q (s.process q)) :
    Knows t q (t.process q) := by
  rw [h.process q hq]
  have hpending := h.pending q hq
  match hx : s.process q, hk with
  | .start, _ => trivial
  | .failed, _ => trivial
  | .absent, hk => exact h.hasRole_mono hk
  | .stale, hk => exact h.exists_mono hk
  | .upgrading, hk | .settled none, hk =>
    exact hk.imp h.exists_mono fun ⟨row, hrow⟩ => ⟨row, hpending row hrow⟩
  | .settled (some .created), ⟨row, hrow⟩ => exact ⟨row, hpending row hrow⟩
  | .settled (some .updated), hk => exact h.exists_mono hk
  | .settled (some .unchanged), hk => exact ⟨h.exists_mono hk.1, h.hasRole_mono hk.2⟩
  | .ended none, hk => exact h.exists_mono hk
  | .ended (some _), hk => exact ⟨h.exists_mono hk.1, h.hasRole_mono hk.2⟩

/-- A step that changes the table, the pending row and its own transaction only. -/
theorem frame_process (x : Process) {users : List User} {n : ℕ} {pending : Option (ℕ × User)}
    {locked : Option ℕ} (hexists : Exists s.users → Exists users)
    (hrole : HasRole s.users → HasRole users)
    (hpending : ∀ q, q ≠ p → ∀ row, s.pending = some (q, row) → pending = some (q, row))
    (hlocked : ∀ q, locked = some q → s.locked = some q ∧ q ≠ p ∨
      q = p ∧ x = .settled (some .updated)) :
    Frame s ⟨users, n, pending, locked, Function.update s.process p x⟩ p where
  exists_mono := hexists
  hasRole_mono := hrole
  pending := hpending
  locked q hq := by simpa only [Function.update_self] using hlocked q hq
  process _ hq := Function.update_of_ne hq _ _

/-- The lock of another transaction survives the end of `p`, and no other lock is there then. -/
theorem locked_of_filter {locked : Option ℕ} {q : ℕ} (h : locked.filter (· ≠ p) = some q) :
    locked = some q ∧ q ≠ p := by
  rw [Option.filter_eq_some_iff] at h
  simpa using h

/-- Only the transaction that holds the lock has updated the row, so that another one has it still.
-/
theorem Seeded.locked_ne (h : Seeded s) {x : Process} (hx : s.process p = x)
    (hupdated : x ≠ .settled (some .updated)) {q : ℕ} (hq : s.locked = some q) : q ≠ p := by
  rintro rfl
  exact hupdated (hx.symm.trans (h.locked q hq))

/-- The pending row of another transaction survives the end of `p`. -/
theorem filter_pending (pending : Option (ℕ × User)) {q : ℕ} (hq : q ≠ p) {row : User}
    (h : pending = some (q, row)) :
    (pending.filter fun row => row.1 ≠ p) = some (q, row) := by
  simp [h, Option.filter, hq]

/-- The pending row after the end of `p` is another transaction's. -/
theorem pending_of_filter {pending : Option (ℕ × User)} {q : ℕ} {row : User}
    (h : (pending.filter fun row => row.1 ≠ p) = some (q, row)) :
    pending = some (q, row) ∧ q ≠ p := by
  rw [Option.filter_eq_some_iff] at h
  simpa using h

/-! ## The step lemma -/

/-- A step of `p` that does not insert a row keeps the invariant if `p` knows what it has seen.

**Proof sketch.** The frame says that the other transactions stay where they are, and what they know
of the table stays true: the user that exists goes on to exist, and a role that was set stays. The
transaction itself knows what the hypothesis says. A result is about the transaction that ends with
it. -/
theorem Seeded.of_frame (h : Seeded s) (hf : Frame s t p)
    (hunique : (t.users.map User.username).Nodup)
    (hpending : ∀ q row, t.pending = some (q, row) →
      s.pending = some (q, row) ∧ q ≠ p ∧ (Exists t.users → Exists s.users))
    (hknows : Knows t p (t.process p))
    (hcreated : t.process p = .ended (some .created) → ¬ Exists s.users) : Seeded t where
  unique := hunique
  pending q row hrow := by
    obtain ⟨hrow', hq, hback⟩ := hpending q row hrow
    obtain ⟨hname, hrole, hnone, hprocess⟩ := h.pending q row hrow'
    exact ⟨hname, hrole, fun hex => hnone (hback hex), by rwa [hf.process q hq]⟩
  locked q hq := by
    rcases hf.locked q hq with ⟨hlocked, hne⟩ | ⟨rfl, hupdated⟩
    · rw [hf.process q hne]
      exact h.locked q hlocked
    · exact hupdated
  knows q := by
    by_cases hq : q = p
    · exact hq ▸ hknows
    · exact hf.knows hq (h.knows q)
  created q r hqe hre := by
    -- A seed that has ended has seen the row, so that no other one creates it.
    have hsees : ∀ q, q ≠ p → t.process q = .ended (some .created) → Exists s.users := by
      intro q hq hqe
      have hk := h.knows q
      rw [← hf.process q hq, hqe] at hk
      exact hk.1
    by_cases hq : q = p <;> by_cases hr : r = p
    · rw [hq, hr]
    · exact absurd (hsees r hr hre) (hcreated (hq ▸ hqe))
    · exact absurd (hsees q hq hqe) (hcreated (hr ▸ hre))
    · rw [hf.process q hq] at hqe
      rw [hf.process r hr] at hre
      exact h.created q r hqe hre

/-- The pending row is not of a transaction before its insert. -/
theorem Seeded.pending_ne (h : Seeded s) {x : Process} (hx : s.process p = x)
    (hnot : ¬ Inserted x) {q : ℕ} {row : User} (hrow : s.pending = some (q, row)) : q ≠ p := by
  rintro rfl
  exact hnot (hx ▸ (h.pending q row hrow).2.2.2)

/-- With unique usernames, the row that is found is the one whose role matters. -/
theorem hasRole_of_get (hunique : (s.users.map User.username).Nodup) {u : User}
    (hu : UsersRepo.getByUsername s.users crmServiceUsername = some u)
    (hrole : u.role = roleSuperAdmin) : HasRole s.users := by
  obtain ⟨hmem, hname⟩ := UsersRepo.mem_of_getByUsername hu
  intro v hv hvname
  rw [List.inj_on_of_nodup_map hunique hv hmem (hvname.trans hname.symm), hrole]

theorem Seeded.read (h : Seeded s) (hn : seedNext s (.read p) = some t) : Seeded t := by
  simp only [seedNext, Option.ite_none_right_eq_some, Option.some.injEq] at hn
  obtain ⟨hstart, rfl⟩ := hn
  refine h.of_frame (p := p) (frame_process _ id id (fun q _ row hrow => hrow)
      fun q hq => Or.inl ⟨hq, h.locked_ne hstart (by simp) hq⟩) h.unique
    (fun q row hrow => ⟨hrow, h.pending_ne hstart (by simp [Inserted]) hrow, id⟩) ?_ ?_
  · simp only [Function.update_self]
    cases hu : UsersRepo.getByUsername s.users crmServiceUsername with
    | none => exact hasRole_of_not_exists (UsersRepo.getByUsername_eq_none.mp hu)
    | some u =>
      have hex : Exists s.users := by
        obtain ⟨hmem, hname⟩ := UsersRepo.mem_of_getByUsername hu
        exact List.mem_map.mpr ⟨u, hmem, hname⟩
      by_cases hrole : u.role = roleSuperAdmin
      · simp only [hrole, ne_eq, not_true_eq_false, if_false]
        exact ⟨hex, hasRole_of_get h.unique hu hrole⟩
      · simp only [ne_eq, hrole, not_false_eq_true, if_true]
        exact hex
  · simp only [Function.update_self]
    split
    · simp
    · split <;> simp

/-- An insert keeps the invariant: it conflicts with the row, or the row is pending.

**Proof sketch.** An insert runs only while no other transaction has a pending row or the lock. If
the user exists it conflicts: nothing changes but where the transaction stands, and it knows that
the user is there. Otherwise the row with the technical name and role is pending, and the
transaction is the one that has inserted it. -/
theorem Seeded.insertRow (h : Seeded s) {inserted conflict : Process}
    (hinserted : Inserted inserted)
    (hconflict : conflict = .upgrading ∨
      conflict = .settled (some .unchanged) ∧ HasRole s.users)
    (hn : CrmServiceSeed.insertRow s p inserted conflict = some t) : Seeded t := by
  simp only [CrmServiceSeed.insertRow, Option.ite_none_left_eq_some, not_or] at hn
  obtain ⟨⟨hfree, hunlocked⟩, hn⟩ := hn
  have hpending : s.pending = none := by simpa using hfree
  have hlocked : s.locked = none := by simpa using hunlocked
  have hnot : ∀ q row, s.pending ≠ some (q, row) := by simp [hpending]
  have hopen {x : Process} : ∀ q, s.locked = some q → s.locked = some q ∧ q ≠ p ∨
      q = p ∧ x = .settled (some .updated) := by simp [hlocked]
  split_ifs at hn with hex
  · obtain rfl := Option.some.inj hn
    refine h.of_frame (p := p) (frame_process _ id id (fun q _ row hrow => hrow) hopen) h.unique
      (fun q row hrow => absurd hrow (hnot q row)) ?_ ?_
    · simp only [Function.update_self]
      rcases hconflict with rfl | ⟨rfl, hrole⟩
      · exact Or.inl hex
      · exact ⟨hex, hrole⟩
    · rcases hconflict with rfl | ⟨rfl, -⟩
      · simp
      · simp
  · obtain rfl := Option.some.inj hn
    have hf : Frame s ⟨s.users, s.nextUserId + 1,
        some (p, UsersRepo.crmService s.nextUserId), s.locked,
        Function.update s.process p inserted⟩ p :=
      frame_process _ id id (fun q _ row hrow => absurd hrow (hnot q row)) hopen
    refine ⟨h.unique, ?_, ?_, fun q => ?_, fun q r hq hr => ?_⟩
    · rintro q row hrow
      obtain ⟨rfl, rfl⟩ := Prod.mk.inj (Option.some.inj hrow)
      refine ⟨rfl, rfl, hex, ?_⟩
      simpa only [Function.update_self] using hinserted
    · simp [hlocked]
    · by_cases hq : q = p
      · subst hq
        simp only [Function.update_self]
        rcases hinserted with rfl | rfl | rfl
        · exact ⟨_, rfl⟩
        · exact Or.inr ⟨_, rfl⟩
        · exact Or.inr ⟨_, rfl⟩
      · exact hf.knows hq (h.knows q)
    · have hne : ∀ q, Function.update s.process p inserted q = .ended (some .created) → q ≠ p := by
        rintro q hq rfl
        rw [Function.update_self] at hq
        subst hq
        simp [Inserted] at hinserted
      have hq' := hne q hq
      have hr' := hne r hr
      rw [hf.process q hq'] at hq
      rw [hf.process r hr'] at hr
      exact h.created q r hq hr

theorem Seeded.update (h : Seeded s) (hn : seedNext s (.update p) = some t) : Seeded t := by
  simp only [seedNext, Option.ite_none_right_eq_some, Option.some.injEq] at hn
  obtain ⟨⟨hstale, -⟩, rfl⟩ := hn
  have hex := h.knows p
  rw [hstale] at hex
  refine h.of_frame (p := p) (frame_process _ id id (fun q _ row hrow => hrow)
      fun q hq => Or.inr ⟨(Option.some.inj hq).symm, rfl⟩) h.unique
    (fun q row hrow => ⟨hrow, h.pending_ne hstale (by simp [Inserted]) hrow, id⟩) ?_ (by simp)
  simp only [Function.update_self]
  exact hex

/-- The rest of the migration keeps the invariant.

**Proof sketch.** The rest of the migration ends its work and commits nothing yet: only where the
transaction stands changes. A pending row is still its own, and it still knows that the user is
there. -/
theorem Seeded.upgrade (h : Seeded s) (hn : seedNext s (.upgrade p) = some t) : Seeded t := by
  simp only [seedNext, Option.ite_none_right_eq_some, Option.some.injEq] at hn
  obtain ⟨hupgrading, rfl⟩ := hn
  have hk := h.knows p
  rw [hupgrading] at hk
  have hf : Frame s { s with process := Function.update s.process p (.settled none) } p :=
    frame_process _ id id (fun q _ row hrow => hrow)
      fun q hq => Or.inl ⟨hq, h.locked_ne hupgrading (by simp) hq⟩
  refine ⟨h.unique, fun q row hrow => ?_, fun q hq => ?_, fun q => ?_, fun q r hq hr => ?_⟩
  · obtain ⟨hname, hrole, hnot, hinserted⟩ := h.pending q row hrow
    refine ⟨hname, hrole, hnot, ?_⟩
    by_cases hqp : q = p
    · subst hqp
      simp [Inserted]
    · rwa [hf.process q hqp]
  · rw [hf.process q (h.locked_ne hupgrading (by simp) hq)]
    exact h.locked q hq
  · by_cases hqp : q = p
    · subst hqp
      simp only [Function.update_self]
      exact hk
    · exact hf.knows hqp (h.knows q)
  · have hne : ∀ q, Function.update s.process p (.settled none) q = .ended (some .created) →
        q ≠ p := by
      rintro q hq rfl
      simp at hq
    have hq' := hne q hq
    have hr' := hne r hr
    rw [hf.process q hq'] at hq
    rw [hf.process r hr'] at hr
    exact h.created q r hq hr

theorem Seeded.rollback (h : Seeded s) (hn : seedNext s (.rollback p) = some t) : Seeded t := by
  simp only [seedNext, Option.ite_none_right_eq_some, Option.some.injEq] at hn
  obtain ⟨-, rfl⟩ := hn
  refine h.of_frame (p := p)
    (frame_process _ id id (fun q hq row hrow => filter_pending _ hq hrow)
      fun q hq => Or.inl (locked_of_filter hq)) h.unique
    (fun q row hrow => ⟨(pending_of_filter hrow).1, (pending_of_filter hrow).2, id⟩) ?_ (by simp)
  simp only [Function.update_self]
  trivial

/-- A commit keeps the invariant.

**Proof sketch.** Three kinds of transactions end. One that has inserted commits its pending row:
the name was free, so that the users stay distinct and now have the technical one. One that has
updated sets the role of the row that it has locked. Any other changes nothing. Its lock and its
pending row go with it, and what the other transactions know stays true. -/
theorem Seeded.commit (h : Seeded s) (hn : seedNext s (.commit p) = some t) : Seeded t := by
  simp only [seedNext] at hn
  split at hn
  case h_2 => cases hn
  case h_1 result hp =>
  have hk := h.knows p
  rw [hp] at hk
  have hfilter : ∀ q, q ≠ p → ∀ row, s.pending = some (q, row) →
      (s.pending.filter fun row => row.1 ≠ p) = some (q, row) :=
    fun q hq row hrow => filter_pending _ hq hrow
  have hback : ∀ q row, (s.pending.filter fun row => row.1 ≠ p) = some (q, row) →
      s.pending = some (q, row) ∧ q ≠ p := fun q row hrow => pending_of_filter hrow
  have hunlock {x : Process} : ∀ q, s.locked.filter (· ≠ p) = some q →
      s.locked = some q ∧ q ≠ p ∨ q = p ∧ x = .settled (some .updated) :=
    fun q hq => Or.inl (locked_of_filter hq)
  by_cases hmine : ∃ row, s.pending = some (p, row)
  · -- Its row is committed with it.
    obtain ⟨row, hrow⟩ := hmine
    obtain ⟨hname, hrole, hnot, hresult⟩ := h.pending p row hrow
    have hne : result ≠ some .updated := by
      rintro rfl
      rw [hp] at hresult
      simp [Inserted] at hresult
    simp only [hrow, if_true, hne, if_false, Option.some.injEq] at hn
    subst hn
    have hroles := hasRole_append hrole (hasRole_of_not_exists hnot)
    refine h.of_frame (p := p)
      (frame_process _ (fun hex => absurd hex hnot) (fun _ => hroles) ?_ hunlock)
      (nodup_append hname hnot h.unique) ?_ ?_ (fun _ => hnot)
    · intro q hq row' hrow'
      exact hrow ▸ hfilter q hq row' hrow'
    · intro q row' hrow'
      obtain ⟨hrow'', hq⟩ := hback q row' (hrow.symm ▸ hrow')
      rw [hrow] at hrow''
      cases hrow''
      exact absurd rfl hq
    · simp only [Function.update_self]
      cases result with
      | none => exact exists_append hname
      | some _ => exact ⟨exists_append hname, hroles⟩
  · -- The table keeps its rows.
    have husers : (match s.pending with
        | some (q, row) => if q = p then s.users ++ [row] else s.users
        | none => s.users) = s.users := by
      split
      · next q row hrow =>
        by_cases hq : q = p
        · exact absurd ⟨row, hq ▸ hrow⟩ hmine
        · rw [if_neg hq]
      · rfl
    rw [husers, Option.some.injEq] at hn
    subst hn
    have hex : Exists s.users := by
      match result, hk with
      | none, hk => exact hk.resolve_right hmine
      | some .created, hk => exact absurd hk hmine
      | some .updated, hk => exact hk
      | some .unchanged, hk => exact hk.1
    have hcreated : result ≠ some .created := by
      rintro rfl
      exact hmine hk
    by_cases hupdated : result = some .updated
    · subst hupdated
      refine h.of_frame (p := p) (frame_process _ exists_setRole.mpr
        (fun _ => hasRole_setRole _) hfilter hunlock) ?_ ?_ ?_ (by simp)
      · simpa only [if_true, map_username_setRole] using h.unique
      · intro q row hrow
        exact ⟨(hback q row hrow).1, (hback q row hrow).2, exists_setRole.mp⟩
      · simp only [Function.update_self]
        exact ⟨exists_setRole.mpr hex, hasRole_setRole _⟩
    · simp only [if_neg hupdated]
      refine h.of_frame (p := p) (frame_process _ id id hfilter hunlock) h.unique
        (fun q row hrow => ⟨(hback q row hrow).1, (hback q row hrow).2, id⟩) ?_ (by simp [hcreated])
      simp only [Function.update_self]
      match result, hk, hcreated, hupdated with
      | none, _, _, _ => exact hex
      | some .unchanged, hk, _, _ => exact hk
      | some .created, _, hc, _ => exact absurd rfl hc
      | some .updated, _, _, hu => exact absurd rfl hu

/-- **A step keeps the invariant.** -/
theorem seeded_next {l : SeedLabel} (h : Seeded s) (hn : seedNext s l = some t) : Seeded t := by
  cases l with
  | read p => exact h.read hn
  | insert p =>
    simp only [seedNext, Option.ite_none_right_eq_some] at hn
    obtain ⟨habsent, hn⟩ := hn
    have hrole := h.knows p
    rw [habsent] at hrole
    exact h.insertRow (Or.inl rfl) (Or.inr ⟨rfl, hrole⟩) hn
  | update p => exact h.update hn
  | upgrade p => exact h.upgrade hn
  | insertOnConflict p =>
    simp only [seedNext, Option.ite_none_right_eq_some] at hn
    exact h.insertRow (Or.inr (Or.inl rfl)) (Or.inl rfl) hn.2
  | commit p => exact h.commit hn
  | rollback p => exact h.rollback hn

/-- The invariant holds at the start. -/
theorem seeded_init (h : seedSystem.init s) : Seeded s := by
  obtain ⟨hunique, hpending, hlocked, hstart⟩ := h
  refine ⟨hunique, ?_, ?_, fun p => ?_, fun p q hp => ?_⟩
  · simp [hpending]
  · simp [hlocked]
  · rw [hstart p]
    trivial
  · rw [hstart p] at hp
    cases hp

theorem seeded_of_reachable (h : seedSystem.Reachable s) : Seeded s :=
  h.invariant (fun _ => seeded_init) fun _ _ _ hs _ hn => seeded_next hs hn

/-! ## Safety -/

/-- The rows of the other users. -/
def others (users : List User) : List User :=
  users.filter fun u => u.username ≠ crmServiceUsername

theorem others_setRole (users : List User) : others (setRole users) = others users := by
  induction users with
  | nil => rfl
  | cons u users ih =>
    rw [others, setRole] at ih ⊢
    by_cases hu : u.username = crmServiceUsername
    · simpa [others, setRole, hu] using ih
    · simpa [others, hu] using ih

/-- No step changes the other users.

**Proof sketch.** Only a commit changes the users. It appends a row with the technical name, sets
the role of the users with that name, or does nothing, so that the users with other names stay the
same. -/
theorem Seeded.others_next (h : Seeded s) {l : SeedLabel} (hn : seedNext s l = some t) :
    others t.users = others s.users := by
  have hinsert : ∀ p inserted conflict, CrmServiceSeed.insertRow s p inserted conflict = some t →
      t.users = s.users := by
    intro p inserted conflict hn
    simp only [CrmServiceSeed.insertRow, Option.ite_none_left_eq_some] at hn
    obtain ⟨-, hn⟩ := hn
    split_ifs at hn <;> cases hn <;> rfl
  cases l with
  | read p | update p | upgrade p | rollback p =>
    simp only [seedNext, Option.ite_none_right_eq_some, Option.some.injEq] at hn
    obtain ⟨-, rfl⟩ := hn
    rfl
  | insert p | insertOnConflict p =>
    simp only [seedNext, Option.ite_none_right_eq_some] at hn
    rw [hinsert _ _ _ hn.2]
  | commit p =>
    simp only [seedNext] at hn
    split at hn
    case h_2 => cases hn
    case h_1 result hp =>
    obtain rfl := Option.some.inj hn
    have husers : others (match s.pending with
        | some (q, row) => if q = p then s.users ++ [row] else s.users
        | none => s.users) = others s.users := by
      split
      · next q row hrow =>
        split
        · simp [others, (h.pending q row hrow).1]
        · rfl
      · rfl
    dsimp only
    split
    · rw [others_setRole, husers]
    · exact husers

/-- A run leaves the other rows as they are. -/
theorem others_run {ls : List SeedLabel} (hs : Seeded s) (hr : seedSystem.run s ls = some t) :
    others t.users = others s.users := by
  induction ls generalizing s with
  | nil =>
    cases hr
    rfl
  | cons l ls ih =>
    rw [System.run] at hr
    cases hn : seedSystem.next s l with
    | none =>
      rw [hn] at hr
      cases hr
    | some s' =>
      rw [hn] at hr
      rw [ih (seeded_next hs hn) hr, hs.others_next hn]

/-- **Safety of the seeds**, in every interleaving of those of the API processes and of the
migration, with crashes. The usernames stay unique, and the other rows stay as they are. A seed
whose transaction is committed leaves the row, and one of the API leaves its role as well; and at
most one of the processes has created the row. -/
theorem seed_safe {ls : List SeedLabel} (hs : seedSystem.init s)
    (hr : seedSystem.run s ls = some t) :
    (t.users.map User.username).Nodup ∧ others t.users = others s.users ∧
      (∀ p result, t.process p = .ended result →
        Exists t.users ∧ (result ≠ none → HasRole t.users)) ∧
      ∀ p q, t.process p = .ended (some .created) → t.process q = .ended (some .created) →
        p = q := by
  have ht := seeded_of_reachable (System.Reachable.run (.init hs) hr)
  refine ⟨ht.unique, ?_, fun p result hp => ?_, ht.created⟩
  · exact others_run (seeded_init hs) hr
  · have hk := ht.knows p
    rw [hp] at hk
    match result, hk with
    | none, hk => exact ⟨hk, fun hne => absurd rfl hne⟩
    | some _, hk => exact ⟨hk.1, fun _ => hk.2⟩

/-- Two starts at once: both find no row, one creates it and the other one skips its insert. -/
theorem seed_safe_twoStarts :
    let s : SeedState := { users := [], nextUserId := 1 }
    ∃ t, seedSystem.run s [.read 0, .read 1, .insert 0, .commit 0, .insert 1, .commit 1] = some t ∧
      (t.process 0, t.process 1) = (.ended (some .created), .ended (some .unchanged)) ∧
      (t.users.map User.username).Nodup := by
  refine ⟨_, rfl, by decide, ?_⟩
  have hr : seedSystem.run { users := [], nextUserId := 1 }
      [.read 0, .read 1, .insert 0, .commit 0, .insert 1, .commit 1] = some _ := rfl
  exact (seed_safe ⟨by decide, rfl, rfl, fun _ => rfl⟩ hr).1

/-! ## Progress -/

/-- A step of a start. -/
def OfStart : SeedLabel → Prop
  | .insertOnConflict _ | .upgrade _ => False
  | _ => True

/-- A step of a start that goes on. -/
def Proceeds : SeedLabel → Prop
  | .rollback _ => False
  | l => OfStart l

/-- **Only starts have run**: no transaction is one of the migration. -/
def StartsOnly (s : SeedState) : Prop :=
  ∀ p, s.process p ≠ .upgrading ∧ s.process p ≠ .settled none

/-- A step changes its own transaction only, and a start never to one of the migration.

**Proof sketch.** A step writes where its own transaction stands and nothing else of the others. The
labels of a start lead to the places of a start only: after a read, an insert, an update, a commit
or a rollback it is at none of those of the migration. -/
theorem StartsOnly.next (h : StartsOnly s) {l : SeedLabel} (hl : OfStart l)
    (hn : seedNext s l = some t) : StartsOnly t := by
  have hupdate {x : Process} {p : ℕ} (hx : x ≠ .upgrading ∧ x ≠ .settled none) (q : ℕ) :
      Function.update s.process p x q ≠ .upgrading ∧
        Function.update s.process p x q ≠ .settled none := by
    by_cases hq : q = p
    · rw [hq, Function.update_self]
      exact hx
    · rw [Function.update_of_ne hq]
      exact h q
  cases l with
  | read p =>
    simp only [seedNext, Option.ite_none_right_eq_some, Option.some.injEq] at hn
    obtain ⟨-, rfl⟩ := hn
    refine hupdate ?_
    split
    · simp
    · split <;> simp
  | insert p =>
    simp only [seedNext, CrmServiceSeed.insertRow, Option.ite_none_right_eq_some,
      Option.ite_none_left_eq_some] at hn
    obtain ⟨-, -, hn⟩ := hn
    split_ifs at hn
    · obtain rfl := Option.some.inj hn
      exact hupdate (by simp)
    · obtain rfl := Option.some.inj hn
      exact hupdate (by simp)
  | update p | rollback p =>
    simp only [seedNext, Option.ite_none_right_eq_some, Option.some.injEq] at hn
    obtain ⟨-, rfl⟩ := hn
    exact hupdate (by simp)
  | commit p =>
    simp only [seedNext] at hn
    split at hn
    case h_2 => cases hn
    case h_1 result hp =>
    obtain rfl := Option.some.inj hn
    exact hupdate (by simp)
  | insertOnConflict p | upgrade p => exact hl.elim

/-- A transaction whose statements are done can be committed. -/
theorem exists_commit {result : Option SeedResult} (hp : s.process p = .settled result) :
    ∃ t, seedNext s (.commit p) = some t ∧ t.process p = .ended result ∧
      t.pending = s.pending.filter (fun row => row.1 ≠ p) ∧ t.locked = s.locked.filter (· ≠ p) ∧
      ∀ q, q ≠ p → t.process q = s.process q := by
  simp only [seedNext, hp]
  exact ⟨_, rfl, by simp, rfl, rfl, fun q hq => Function.update_of_ne hq _ _⟩

/-- A start whose statements are done can end. -/
theorem exists_ended (hstarts : StartsOnly s) {result : Option SeedResult}
    (hp : s.process p = .settled result) :
    ∃ t result, seedSystem.ReachesBy Proceeds s t ∧ t.process p = .ended (some result) := by
  obtain ⟨t, hn, hend, -⟩ := exists_commit hp
  cases result with
  | none => exact absurd hp (hstarts p).2
  | some result => exact ⟨t, result, .single (a := .commit p) trivial hn, hend⟩

/-- An insert that does not wait settles its transaction. -/
theorem exists_inserted (hfree : s.pending = none) (hunlocked : s.locked = none)
    (hp : s.process p = .absent) :
    ∃ t result, seedNext s (.insert p) = some t ∧ t.process p = .settled (some result) := by
  simp only [seedNext, if_pos hp, CrmServiceSeed.insertRow, hfree, hunlocked, Option.isSome_none,
    Bool.false_eq_true, or_self, if_false]
  split_ifs
  · exact ⟨_, .unchanged, rfl, by simp⟩
  · exact ⟨_, .created, rfl, by simp⟩

/-- An update that does not wait settles its transaction. -/
theorem exists_updated (hunlocked : s.locked = none) (hp : s.process p = .stale) :
    ∃ t, seedNext s (.update p) = some t ∧ t.process p = .settled (some .updated) :=
  ⟨_, if_pos ⟨hp, hunlocked⟩, by simp⟩

/-- **Where no transaction waits, a start can end**: it takes its own steps.

**Proof sketch.** One lemma for each of its statements, and the commit behind the last. The read
comes first, and it decides the second step; it leaves the pending row and the lock alone. -/
theorem exists_ended_of_free (hstarts : StartsOnly s) (hfree : s.pending = none)
    (hunlocked : s.locked = none) (hp : (s.process p).Running) :
    ∃ t result, seedSystem.ReachesBy Proceeds s t ∧ t.process p = .ended (some result) := by
  have hgo : ∀ {s t : SeedState} {l : SeedLabel}, Proceeds l → seedNext s l = some t →
      (∃ u result, seedSystem.ReachesBy Proceeds t u ∧ u.process p = .ended (some result)) →
        ∃ u result, seedSystem.ReachesBy Proceeds s u ∧ u.process p = .ended (some result) := by
    rintro s t l hl hn ⟨u, result, hr, hend⟩
    exact ⟨u, result, (System.ReachesBy.single hl hn).trans hr, hend⟩
  have habsent : ∀ s : SeedState, StartsOnly s → s.pending = none → s.locked = none →
      s.process p = .absent →
        ∃ u result, seedSystem.ReachesBy Proceeds s u ∧ u.process p = .ended (some result) := by
    intro s hstarts hfree hunlocked hp
    obtain ⟨t, result, hn, hsettled⟩ := exists_inserted hfree hunlocked hp
    exact hgo (l := .insert p) trivial hn
      (exists_ended (hstarts.next (l := .insert p) trivial hn) hsettled)
  have hstale : ∀ s : SeedState, StartsOnly s → s.locked = none → s.process p = .stale →
      ∃ u result, seedSystem.ReachesBy Proceeds s u ∧ u.process p = .ended (some result) := by
    intro s hstarts hunlocked hp
    obtain ⟨t, hn, hsettled⟩ := exists_updated hunlocked hp
    exact hgo (l := .update p) trivial hn
      (exists_ended (hstarts.next (l := .update p) trivial hn) hsettled)
  match hx : s.process p, hp with
  | .settled result, _ => exact exists_ended hstarts hx
  | .upgrading, _ => exact absurd hx (hstarts p).1
  | .absent, _ => exact habsent s hstarts hfree hunlocked hx
  | .stale, _ => exact hstale s hstarts hunlocked hx
  | .start, _ =>
    have hn : ∃ t, seedNext s (.read p) = some t ∧ t.pending = none ∧ t.locked = none ∧
        (t.process p = .absent ∨ t.process p = .stale ∨
          t.process p = .settled (some .unchanged)) := by
      refine ⟨_, if_pos hx, hfree, hunlocked, ?_⟩
      simp only [Function.update_self]
      cases UsersRepo.getByUsername s.users crmServiceUsername with
      | none => exact Or.inl rfl
      | some u =>
        by_cases hrole : u.role = roleSuperAdmin
        · simp [hrole]
        · simp [hrole]
    obtain ⟨t, hn, hfree', hunlocked', hfound⟩ := hn
    have hstarts' := hstarts.next (l := .read p) trivial hn
    refine hgo (l := .read p) trivial hn ?_
    rcases hfound with hfound | hfound | hfound
    · exact habsent t hstarts' hfree' hunlocked' hfound
    · exact hstale t hstarts' hunlocked' hfound
    · exact exists_ended hstarts' hfound

/-- Whoever holds the pending row or the lock of the row can commit it, and then neither is left. -/
theorem Seeded.exists_free (h : Seeded s) (hstarts : StartsOnly s) :
    s.pending = none ∧ s.locked = none ∨ ∃ q result t, seedNext s (.commit q) = some t ∧
      t.pending = none ∧ t.locked = none ∧ s.process q = .settled result ∧
        ∀ p, p ≠ q → t.process p = s.process p := by
  match hrow : s.pending, hlock : s.locked with
  | none, none => exact Or.inl ⟨rfl, rfl⟩
  | some (q, row), none =>
    have hq : ∃ result, s.process q = .settled result := by
      rcases (h.pending q row hrow).2.2.2 with hq | hq | hq
      · exact ⟨_, hq⟩
      · exact absurd hq (hstarts q).1
      · exact ⟨_, hq⟩
    obtain ⟨result, hq⟩ := hq
    obtain ⟨t, hn, -, hfree, hunlocked, hothers⟩ := exists_commit hq
    exact Or.inr ⟨q, result, t, hn, by simp [hfree, hrow], by simp [hunlocked, hlock], hq, hothers⟩
  | none, some q =>
    have hq := h.locked q hlock
    obtain ⟨t, hn, -, hfree, hunlocked, hothers⟩ := exists_commit hq
    exact Or.inr ⟨q, _, t, hn, by simp [hfree, hrow], by simp [hunlocked, hlock], hq, hothers⟩
  | some (q, row), some q' =>
    -- the lock is that of a committed row, and a pending row is the only one
    have hk := h.knows q'
    rw [h.locked q' hlock] at hk
    exact absurd hk (h.pending q row hrow).2.2.1

/-- **Among starts, no seed waits forever.** From every state of every run of any number of starts,
with crashes, each start that runs can still end with a commit and its result, and no transaction
has to be rolled back for it.

**Proof sketch.** A start waits only while a row is pending, or while another one holds the lock of
the row. The invariant says that the statements of that transaction are done, so that it can commit;
after that no start waits, and this one takes its own steps. -/
theorem seed_can_end (h : seedSystem.ReachableWhen (fun _ l => OfStart l) s)
    (hp : (s.process p).Running) :
    ∃ t result, seedSystem.ReachesBy Proceeds s t ∧ t.process p = .ended (some result) := by
  have hinv : Seeded s ∧ StartsOnly s := by
    refine System.ReachableWhen.invariant (P := fun s => Seeded s ∧ StartsOnly s)
      (fun s hs => ⟨seeded_init hs, fun p => ?_⟩)
      (fun s l t hs hl hn => ⟨seeded_next hs.1 hn, hs.2.next hl hn⟩) h
    rw [hs.2.2.2 p]
    simp
  obtain ⟨hseeded, hstarts⟩ := hinv
  rcases hseeded.exists_free hstarts with
    ⟨hfree, hunlocked⟩ | ⟨q, result, t, hn, hfree, hunlocked, hq, hothers⟩
  · exact exists_ended_of_free hstarts hfree hunlocked hp
  · by_cases hpq : p = q
    · exact exists_ended hstarts (hpq ▸ hq)
    · have hrunning : (t.process p).Running := by rwa [hothers p hpq]
      obtain ⟨u, result', hr, hend⟩ :=
        exists_ended_of_free (hstarts.next (l := .commit q) trivial hn) hfree hunlocked hrunning
      exact ⟨u, result', (System.ReachesBy.single (a := .commit q) trivial hn).trans hr, hend⟩

/-- A start whose insert waits for that of another one. -/
theorem seed_can_end_waiting :
    let s : SeedState := { users := [], nextUserId := 1 }
    ∃ t, seedSystem.run s [.read 0, .read 1, .insert 1] = some t ∧ seedNext t (.insert 0) = none ∧
      ∃ u result, seedSystem.ReachesBy Proceeds t u ∧ u.process 0 = .ended (some result) := by
  refine ⟨_, rfl, by decide, seed_can_end (p := 0) ?_ (by decide)⟩
  have hinit : seedSystem.init { users := [], nextUserId := 1 } :=
    ⟨by decide, rfl, rfl, fun _ => rfl⟩
  exact (((System.ReachableWhen.init hinit).step (a := .read 0) trivial rfl).step
    (a := .read 1) trivial rfl).step (a := .insert 1) trivial rfl

/-- Two starts that find the row without its role: the update of the second waits for the first. -/
example :
    let row : User := { UsersRepo.crmService 1 with role := "user".toList }
    ∃ t, seedSystem.run { users := [row], nextUserId := 2 } [.read 0, .read 1, .update 0] = some t ∧
      seedNext t (.update 1) = none ∧ (seedNext t (.commit 0)).isSome := by
  exact ⟨_, rfl, by decide, by decide⟩

end Steps

end CrmServiceSeed

end MailAggregator
