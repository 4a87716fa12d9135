import MailAggregator.Repositories.MailAccounts

set_option relaxedAutoImplicit false
set_option autoImplicit false

/-!
# The operator's changes of an account

The rows that `MailAccountService.update` and `MailAccountService.set_active` write.

## Main definitions

* `MailAggregator.MailAccountService.updateCredentials` — a `PATCH` that validated credentials.
* `MailAggregator.MailAccountService.setActive` — the switch of the active flag.
-/

namespace MailAggregator

open PyText

namespace MailAccountService

/-- The values that an update resolves from its payload and the row it read. A display name or a
sealed password that is not changed is missing. -/
structure UpdateValues where
  email : Text
  imapHost : Text
  imapPort : ℕ
  imapSsl : Bool
  smtpHost : Text
  smtpPort : ℕ
  smtpSsl : Bool
  smtpStarttls : Bool
  smtpUsername : Option Text
  encryptedPassword : Option Blob := none
  smtpEncryptedPassword : Option Blob := none
  displayName : Option (Option Text) := none
  deriving DecidableEq, Repr

/-- The writes of `update` for a password account whose new credentials passed the login probe:
the resolved values, and the reset of the sync status. -/
def updateCredentials (v : UpdateValues) (now : Instant) (a : MailAccount) : MailAccount :=
  { a with
    email := v.email
    imapHost := v.imapHost
    imapPort := v.imapPort
    imapSsl := v.imapSsl
    smtpHost := v.smtpHost
    smtpPort := v.smtpPort
    smtpSsl := v.smtpSsl
    smtpStarttls := v.smtpStarttls
    smtpUsername := v.smtpUsername
    encryptedPassword := v.encryptedPassword <|> a.encryptedPassword
    smtpEncryptedPassword := v.smtpEncryptedPassword <|> a.smtpEncryptedPassword
    displayName := v.displayName.getD a.displayName
    isActive := true
    lastSyncError := none
    consecutiveFailures := 0
    disabledAlertSentAt := none
    updatedAt := now }

/-- The writes of `set_active`: activating resets the sync status as well. -/
def setActive (isActive : Bool) (now : Instant) (a : MailAccount) : MailAccount :=
  if isActive then
    { a with
      isActive := true
      lastSyncError := none
      consecutiveFailures := 0
      disabledAlertSentAt := none
      updatedAt := now }
  else { a with isActive := false, updatedAt := now }

@[simp] theorem setActive_id (isActive : Bool) (now : Instant) (a : MailAccount) :
    (setActive isActive now a).id = a.id := by
  unfold setActive
  split_ifs <;> rfl

end MailAccountService

end MailAggregator
