import MailAggregator.Shared.Models

set_option relaxedAutoImplicit false
set_option autoImplicit false

/-!
# The repository of `users`

The table of the owners of mailboxes. Its usernames are unique and in lower case.

## Main definitions

* `MailAggregator.User` — a row of `users`.
* `MailAggregator.UsersRepo.getByUsername` — the row of a username.
* `MailAggregator.UsersRepo.crmService` — the row that owns every mailbox.
-/

namespace MailAggregator

open PyText

/-- A row of `users`. -/
structure User where
  id : ℕ
  username : Text
  role : Text
  passwordResetRequired : Bool := true
  deriving DecidableEq, Repr

/-- `ROLE_SUPER_ADMIN`. -/
def roleSuperAdmin : Text := "super_admin".toList

/-- `CRM_SERVICE_USERNAME`. -/
def crmServiceUsername : Text := "crm-service".toList

namespace UsersRepo

/-- `get_by_username`, of a username in lower case. -/
def getByUsername (users : List User) (username : Text) : Option User :=
  users.find? fun u => u.username = username

/-- The row that the seeds insert. -/
def crmService (id : ℕ) : User where
  id := id
  username := crmServiceUsername
  role := roleSuperAdmin
  passwordResetRequired := false

theorem mem_of_getByUsername {users : List User} {username : Text} {u : User}
    (h : getByUsername users username = some u) : u ∈ users ∧ u.username = username :=
  ⟨List.mem_of_find?_eq_some h, by simpa using List.find?_some h⟩

theorem getByUsername_eq_none {users : List User} {username : Text} :
    getByUsername users username = none ↔ username ∉ users.map User.username := by
  simp [getByUsername, List.find?_eq_none]

end UsersRepo

end MailAggregator
