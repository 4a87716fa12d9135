import MailAggregator.Repositories.MailAccounts

set_option relaxedAutoImplicit false
set_option autoImplicit false

/-!
# The OAuth token service

What `OutlookTokenService` reads from an account row and writes to it, and what a re-link through
the OAuth callback writes.

## Main definitions

* `MailAggregator.OutlookTokenService.cachedAccessToken` — the access token in a row.
* `MailAggregator.OutlookTokenService.storedRefreshToken` — the refresh token in a row.
* `MailAggregator.OutlookTokenService.persistRefresh`, `OutlookOAuthService.relink` — the two
  writes of new tokens.
-/

namespace MailAggregator

open PyText

/-- `_TokenResponse`, as far as a refresh and a re-link read it. -/
structure TokenResponse where
  accessToken : Text
  refreshToken : Option Text
  expiresIn : ℕ := 3600
  scope : Option Text := none
  deriving DecidableEq, Repr

/-- `ACCESS_TOKEN_REFRESH_BUFFER_SECONDS`. -/
def accessTokenRefreshBufferSeconds : ℕ := 60

/-- `OAUTH_REFRESH_LOCK_TTL_SECONDS`. -/
def oauthRefreshLockTtlSeconds : ℕ := 30

/-- `_REFRESH_LOCK_WAIT_TOTAL_SECONDS`. -/
def refreshLockWaitTotalSeconds : ℕ := 3

namespace OutlookTokenService

/-- How `_cached_access_token` ends. -/
inductive CachedToken where
  /-- There is no access token, or it expires too soon. -/
  | stale
  | fresh (token : Text)
  /-- The stored token does not decrypt, which raises. -/
  | invalidTag
  deriving DecidableEq, Repr

/-- `_cached_access_token`. -/
def cachedAccessToken (now : Instant) (a : MailAccount) : CachedToken :=
  match a.oauthAccessTokenEncrypted, a.oauthAccessTokenExpiresAt with
  | some cached, some expiresAt =>
    if now + seconds accessTokenRefreshBufferSeconds < expiresAt then
      match decryptMailPassword cached a.id with
      | some token => .fresh token
      | none => .invalidTag
    else .stale
  | _, _ => .stale

/-- The refresh token that a row holds, decrypted. -/
def storedRefreshToken (a : MailAccount) : Option Text :=
  a.oauthRefreshTokenEncrypted.bind fun blob => decryptMailPassword blob a.id

/-- The arguments of `_persist_refresh`: the refresh token is written if the endpoint gave a new
one. -/
def refreshValues (accountId : ℕ) (now : Instant) (tokens : TokenResponse) :
    MailAccountsRepo.OauthTokenValues :=
  { oauthRefreshTokenEncrypted :=
      (tokens.refreshToken.filter fun t => t ≠ []).map fun t => encryptMailPassword t accountId
    oauthAccessTokenEncrypted := some (encryptMailPassword tokens.accessToken accountId)
    oauthAccessTokenExpiresAt := some (now + seconds tokens.expiresIn)
    oauthScopes := tokens.scope
    oauthNeedsConsent := some false }

/-- The endpoint gave a new refresh token. -/
def writesRefreshToken (tokens : TokenResponse) : Prop :=
  (tokens.refreshToken.filter fun t => t ≠ []) ≠ none

instance (tokens : TokenResponse) : Decidable (writesRefreshToken tokens) :=
  inferInstanceAs (Decidable (_ ≠ none))

/-- `_persist_refresh`: the row after it. -/
def persistRefresh (now : Instant) (tokens : TokenResponse) (a : MailAccount) : MailAccount :=
  MailAccountsRepo.updateOauthTokens (refreshValues a.id now tokens) now a

/-- Without a new refresh token the stored one stays. -/
theorem storedRefreshToken_persistRefresh {now : Instant} {tokens : TokenResponse}
    (h : ¬ writesRefreshToken tokens) (a : MailAccount) :
    storedRefreshToken (persistRefresh now tokens a) = storedRefreshToken a := by
  have hnone : (tokens.refreshToken.filter fun t => t ≠ []) = none := not_not.mp h
  unfold persistRefresh MailAccountsRepo.updateOauthTokens refreshValues storedRefreshToken
  rw [hnone]
  rfl

end OutlookTokenService

namespace OutlookOAuthService

/-- The arguments of the update in `_create_or_relink` for an existing account. -/
def relinkValues (accountId : ℕ) (now : Instant) (tokens : TokenResponse) (refreshToken : Text) :
    MailAccountsRepo.OauthTokenValues :=
  { oauthRefreshTokenEncrypted := some (encryptMailPassword refreshToken accountId)
    oauthAccessTokenEncrypted := some (encryptMailPassword tokens.accessToken accountId)
    oauthAccessTokenExpiresAt := some (now + seconds tokens.expiresIn)
    oauthScopes := tokens.scope
    oauthNeedsConsent := some false }

/-- `_create_or_relink` on an existing account: the row after it. -/
def relink (now : Instant) (tokens : TokenResponse) (refreshToken : Text) (a : MailAccount) :
    MailAccount :=
  MailAccountsRepo.updateOauthTokens (relinkValues a.id now tokens refreshToken) now a

end OutlookOAuthService

end MailAggregator
