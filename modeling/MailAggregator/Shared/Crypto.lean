import MailAggregator.Lib.PyText

set_option relaxedAutoImplicit false
set_option autoImplicit false

/-!
# Sealed account secrets

The secrets of an account (passwords and OAuth tokens) are stored encrypted, with the account's
id as associated data. The cipher is taken as ideal: a sealed blob opens to the plaintext that
was sealed, under the account id it was sealed for and under no other.

## Main definitions

* `MailAggregator.Blob` — a sealed secret.
* `MailAggregator.encryptMailPassword`, `MailAggregator.decryptMailPassword`.
-/

namespace MailAggregator

open PyText

/-- A sealed secret: what was sealed, and the account id it was bound to. -/
structure Blob where
  /-- The account id in the associated data. -/
  mailAccountId : ℕ
  /-- The sealed text. -/
  plaintext : Text
  deriving DecidableEq, Repr

/-- Seal a secret for an account. -/
def encryptMailPassword (plaintext : Text) (mailAccountId : ℕ) : Blob :=
  { mailAccountId, plaintext }

/-- Open a sealed secret. `none` is `InvalidTag`: the blob was sealed for another account. -/
def decryptMailPassword (blob : Blob) (mailAccountId : ℕ) : Option Text :=
  if blob.mailAccountId = mailAccountId then some blob.plaintext else none

@[simp] theorem decrypt_encryptMailPassword (plaintext : Text) (mailAccountId : ℕ) :
    decryptMailPassword (encryptMailPassword plaintext mailAccountId) mailAccountId =
      some plaintext := by
  simp [decryptMailPassword, encryptMailPassword]

end MailAggregator
