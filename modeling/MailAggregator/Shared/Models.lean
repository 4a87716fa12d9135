import MailAggregator.Shared.Crypto
import Mathlib.Data.Int.Notation

set_option relaxedAutoImplicit false
set_option autoImplicit false

/-!
# The stored rows

The two tables of the connector, as records with one field for each column. A nullable column is
an `Option`; a column with a server default has that default.

## Main definitions

* `MailAggregator.Instant` — a point in time, in microseconds.
* `MailAggregator.MailAccount` — a row of `mail_accounts`.
* `MailAggregator.Message` — a row of `messages`.
* `MailAggregator.Message.Key` — the unique key `(mail_account_id, uidvalidity, uid)`.
-/

namespace MailAggregator

open PyText

/-- A point in time in UTC: microseconds since the epoch. -/
abbrev Instant := ℤ

/-- The microseconds of a number of seconds. -/
def seconds (n : ℕ) : ℤ := n * 1000000

/-- The microseconds of a number of minutes. -/
def minutes (n : ℕ) : ℤ := seconds (n * 60)

/-- The microseconds of a number of hours. -/
def hours (n : ℕ) : ℤ := minutes (n * 60)

/-- The microseconds of a number of days. -/
def days (n : ℕ) : ℤ := hours (n * 24)

/-- The `auth_type` of an account, which `ck_mail_accounts_auth_type` limits to two values. -/
inductive AuthType where
  | password
  | oauthOutlook
  deriving DecidableEq, Repr

/-- A row of `mail_accounts`. -/
structure MailAccount where
  id : ℕ
  userId : ℕ
  email : Text
  displayName : Option Text := none
  encryptedPassword : Option Blob := none
  authType : AuthType := .password
  oauthProvider : Option Text := none
  oauthRefreshTokenEncrypted : Option Blob := none
  oauthAccessTokenEncrypted : Option Blob := none
  oauthAccessTokenExpiresAt : Option Instant := none
  oauthNeedsConsent : Bool := false
  oauthScopes : Option Text := none
  imapHost : Text := []
  imapPort : ℕ := 993
  imapSsl : Bool := true
  smtpHost : Text := []
  smtpPort : ℕ := 465
  smtpSsl : Bool := true
  smtpStarttls : Bool := false
  smtpUsername : Option Text := none
  smtpEncryptedPassword : Option Blob := none
  isActive : Bool := true
  lastSyncedUidnext : Option ℕ := none
  lastUidvalidity : Option ℕ := none
  lastSyncedAt : Option Instant := none
  lastSyncError : Option Text := none
  consecutiveFailures : ℕ := 0
  disabledAlertSentAt : Option Instant := none
  createdAt : Instant := 0
  updatedAt : Instant := 0
  deriving DecidableEq, Repr

/-- The columns of a message that its insert supplies. -/
structure MessageValues where
  mailAccountId : ℕ
  uid : ℕ
  uidvalidity : ℕ
  messageIdHeader : Option Text := none
  fromAddr : Text := []
  fromName : Option Text := none
  toAddrs : Text := []
  ccAddrs : Option Text := none
  subject : Option Text := none
  internalDate : Instant := 0
  bodyText : Text := []
  bodyHtml : Option Text := none
  bodyTruncated : Bool := false
  bodyPresent : Bool := true
  inReplyTo : Option Text := none
  refsHeader : Option Text := none
  deriving DecidableEq, Repr

/-- A row of `messages`: the inserted values and the columns the database fills in. -/
structure Message extends MessageValues where
  id : ℕ
  isRead : Bool := false
  fetchedAt : Instant
  pushedAt : Option Instant := none
  deriving DecidableEq, Repr

/-- The unique key of `messages`. -/
abbrev MessageKey := ℕ × ℕ × ℕ

/-- The key `(mail_account_id, uidvalidity, uid)` of the values of a message. -/
def MessageValues.key (v : MessageValues) : MessageKey := (v.mailAccountId, v.uidvalidity, v.uid)

end MailAggregator
