import MailAggregator.Lib.PyText

set_option relaxedAutoImplicit false
set_option autoImplicit false

/-!
# Exceptions

What the code reads of an exception: the name of its type, its text, the classes it is an
instance of, and the `errno` of an `OSError`.

## Main definitions

* `MailAggregator.ExcClass` — the classes the code tests with `isinstance`.
* `MailAggregator.PyException` — an exception.
-/

namespace MailAggregator

open PyText

/-- The exception classes that the code tests for. `socket.timeout` and `asyncio.TimeoutError`
are `TimeoutError`. -/
inductive ExcClass where
  | osError
  | timeoutError
  | connectionError
  | gaierror
  | sslError
  | invalidTag
  | assertionError
  | imap4Error
  | imap4Abort
  | invalidHostError
  | oauthError
  | oauthRefreshInvalidError
  deriving DecidableEq, Repr

/-- The base class, among the tested ones, of a tested class. -/
def ExcClass.base : ExcClass → Option ExcClass
  | timeoutError | connectionError | gaierror | sslError => some osError
  | imap4Abort => some imap4Error
  | osError | invalidTag | assertionError | imap4Error | invalidHostError | oauthError
  | oauthRefreshInvalidError => none

/-- An exception. -/
structure PyException where
  /-- `type(exc).__name__`. -/
  typeName : Text
  /-- `str(exc)`. -/
  text : Text
  /-- The tested classes it is an instance of. -/
  classes : List ExcClass := []
  /-- An instance of a class is an instance of its base. -/
  classes_base : ∀ c ∈ classes, ∀ b ∈ c.base, b ∈ classes := by decide
  /-- The `errno` of an `OSError`. -/
  errno : Option ℕ := none

/-- `isinstance(exc, types)`. -/
def PyException.IsInstance (exc : PyException) (types : List ExcClass) : Prop :=
  ∃ c ∈ types, c ∈ exc.classes

instance (exc : PyException) (types : List ExcClass) : Decidable (exc.IsInstance types) :=
  inferInstanceAs (Decidable (∃ c ∈ types, c ∈ exc.classes))

end MailAggregator
