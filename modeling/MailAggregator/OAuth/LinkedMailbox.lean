import MailAggregator.OAuth.Callback
import MailAggregator.Send.Service
import MailAggregator.Worker.SyncAccount

set_option relaxedAutoImplicit false
set_option autoImplicit false

/-!
# The mailbox of a link

A link inserts a row for the address, or writes the new tokens to the row that has it. The insert
makes an OAuth mailbox; the write leaves `auth_type` as it is, so a password row keeps its password
and its way of logging in, next to tokens that nothing reads.

## Main definitions

* `MailAggregator.OutlookOAuthService.OAuthMailbox` — a row that is synced and sent from with the
  tokens of an exchange.
* `MailAggregator.OutlookOAuthService.LinkYields` — a link leaves such a row.

## Main results

* `MailAggregator.OutlookOAuthService.linkYields_iff` — it does exactly if it finds no password row.
-/

namespace MailAggregator

open PyText MailAccountsRepo TokenClient SyncCycle SendService HostGuard

namespace OutlookOAuthService

/-! ## An OAuth mailbox -/

/-- **A row holds the tokens of an exchange**, and its sync and its sends use them. -/
structure OAuthMailbox (row : MailAccount) (tokens : TokenPayload) (refreshToken : Text)
    (answeredAt : Instant) : Prop where
  authType : row.authType = .oauthOutlook
  provider : row.oauthProvider = some "outlook".toList
  accessToken : (row.oauthAccessTokenEncrypted.bind fun blob => decryptMailPassword blob row.id) =
    some tokens.accessToken
  refreshToken : OutlookTokenService.storedRefreshToken row = some refreshToken
  consent : row.oauthNeedsConsent = false
  /-- A sync asks for an access token, -/
  sync : ∀ env, resolveCredentials row env = resolveOauthAccessToken row env
  /-- and so does a send. -/
  send : ∀ w recipients token, assertPublicHost w.isProd w.resolver row.smtpHost row.smtpPort =
    .ok () → OutlookTokenService.getValidAccessToken w.secondToken row = .ok token →
      smtpSendMessage w row recipients = smtpSendOauth (w.smtp (oauthArgs row token)) recipients
  /-- It is the one of the exchange until that is about to expire. -/
  cached : ∀ w, w.now + seconds accessTokenRefreshBufferSeconds <
    OutlookTokenService.expiresAt answeredAt tokens.expiresIn →
      OutlookTokenService.getValidAccessToken w row = .ok tokens.accessToken

/-- The columns of a row that is an OAuth mailbox. -/
structure HoldsTokens (row : MailAccount) (tokens : TokenPayload) (refreshToken : Text)
    (answeredAt : Instant) : Prop where
  accessToken : row.oauthAccessTokenEncrypted = some (encryptMailPassword tokens.accessToken row.id)
  refreshToken : row.oauthRefreshTokenEncrypted = some (encryptMailPassword refreshToken row.id)
  expiresAt : row.oauthAccessTokenExpiresAt =
    some (OutlookTokenService.expiresAt answeredAt tokens.expiresIn)
  consent : row.oauthNeedsConsent = false

section Row

variable {row : MailAccount} {tokens : TokenPayload} {refreshToken : Text} {answeredAt : Instant}

/-- **A row of the OAuth type that holds the tokens is an OAuth mailbox.** -/
theorem HoldsTokens.oauthMailbox (h : HoldsTokens row tokens refreshToken answeredAt)
    (hauth : row.authType = .oauthOutlook) (hprovider : row.oauthProvider = some "outlook".toList) :
    OAuthMailbox row tokens refreshToken answeredAt where
  authType := hauth
  provider := hprovider
  accessToken := by rw [h.accessToken]; exact decrypt_encryptMailPassword _ _
  refreshToken := by
    rw [OutlookTokenService.storedRefreshToken, h.refreshToken]
    exact decrypt_encryptMailPassword _ _
  consent := h.consent
  sync env := by simp only [resolveCredentials, hauth, h.consent, Bool.false_eq_true, if_false]
  send w recipients token hguard htoken := by
    simp only [smtpSendMessage, hguard, hauth, if_true, h.consent, Bool.false_eq_true, if_false,
      htoken]
  cached w hlater := by
    refine OutlookTokenService.getValidAccessToken_of_fresh hauth ?_
    simp only [OutlookTokenService.cachedAccessToken, h.accessToken, h.expiresAt, if_pos hlater,
      decrypt_encryptMailPassword]

theorem holdsTokens_relinkedRow (a : MailAccount) :
    HoldsTokens (relinkedRow answeredAt tokens refreshToken a) tokens refreshToken answeredAt :=
  ⟨rfl, rfl, rfl, rfl⟩

theorem holdsTokens_newRow (accountId userId : ℕ) (email : Text) :
    HoldsTokens (newRow accountId userId email answeredAt tokens refreshToken) tokens refreshToken
      answeredAt :=
  ⟨rfl, rfl, rfl, rfl⟩

/-- A re-link leaves the type of the account and its provider. -/
theorem type_relinkedRow (a : MailAccount) :
    (relinkedRow answeredAt tokens refreshToken a).authType = a.authType ∧
      (relinkedRow answeredAt tokens refreshToken a).oauthProvider = a.oauthProvider :=
  ⟨rfl, rfl⟩

end Row

/-! ## A link -/

/-- What an exchange has given: the tokens, the address and the owner. -/
def Issued (w : CallbackWorld) (code : Text) (consumed : Except CallbackError OAuthState)
    (tokens : TokenPayload) (email : Text) (userId : ℕ) : Prop :=
  ∃ st, consumed = .ok st ∧ exchangeAndResolve w code st.codeVerifier = .ok (tokens, email) ∧
    w.owner = some userId

/-- The id of the account that `_create_or_relink` returns. -/
def linkedId (w : CallbackWorld) (userId : ℕ) (email : Text) : ℕ :=
  match lookup w userId email with
  | .ok (some existing) => existing.id
  | _ => w.nextAccountId

/-- **A link leaves an OAuth mailbox**: the row of the account that it returns is one, with the
tokens of the exchange. -/
def LinkYields (w : CallbackWorld) (code : Text) (consumed : Except CallbackError OAuthState)
    (accounts : List MailAccount) : Prop :=
  ∃ tokens email userId refreshToken row, Issued w code consumed tokens email userId ∧
    tokens.refreshToken = .str refreshToken ∧
    getById accounts (linkedId w userId email) = some row ∧
    OAuthMailbox row tokens refreshToken w.answeredAt

/-- **A password row has the address**: it is the one that the link finds. -/
def FindsPassword (w : CallbackWorld) (code : Text) (consumed : Except CallbackError OAuthState) :
    Prop :=
  ∃ tokens email userId existing, Issued w code consumed tokens email userId ∧
    lookup w userId email = .ok (some existing) ∧ existing.authType = .password

section Link

variable {w : CallbackWorld} {code : Text} {consumed : Except CallbackError OAuthState}
  {accounts : List MailAccount} {tokens tokens' : TokenPayload} {email email' : Text}
  {userId userId' : ℕ}

/-- An exchange gives one thing. -/
theorem Issued.unique (h : Issued w code consumed tokens email userId)
    (h' : Issued w code consumed tokens' email' userId') :
    tokens' = tokens ∧ email' = email ∧ userId' = userId := by
  obtain ⟨st, rfl, hresolve, howner⟩ := h
  obtain ⟨st', hst, hresolve', howner'⟩ := h'
  cases hst
  rw [hresolve] at hresolve'
  rw [howner] at howner'
  cases hresolve'
  cases howner'
  exact ⟨rfl, rfl, rfl⟩

/-- A link that succeeds was issued something, and has written it. -/
theorem issued_of_exchangeCodeHeadless (h : exchangeCodeHeadless w code consumed = .ok accounts) :
    ∃ tokens email userId, Issued w code consumed tokens email userId ∧
      createOrRelink w userId email tokens = .ok accounts := by
  obtain ⟨st, tokens, email, userId, hconsumed, -, hresolve, howner, hwrite⟩ :=
    exchangeCodeHeadless_eq_ok h
  exact ⟨tokens, email, userId, ⟨st, hconsumed, hresolve, howner⟩, hwrite⟩

/-- The row of the account that a link returns: the one that it has found, with the new tokens, or
a new one.

**Proof sketch.** The write updates the row that was found or appends a new one. The id that is
returned is that of the found row, or the one that the new row has drawn; in a table with distinct
ids the row with that id is the one that was written. -/
theorem getById_linkedId (hids : (w.accounts.map MailAccount.id).Nodup)
    (h : createOrRelink w userId email tokens = .ok accounts) :
    ∃ refreshToken, tokens.refreshToken = .str refreshToken ∧
      ((∃ existing ∈ w.seen, lookup w userId email = .ok (some existing) ∧
        getById accounts (linkedId w userId email) =
          some (relinkedRow w.answeredAt tokens refreshToken existing)) ∨
      lookup w userId email = .ok none ∧
        getById accounts (linkedId w userId email) = some
          (newRow w.nextAccountId userId email w.answeredAt tokens refreshToken)) := by
  obtain ⟨-, found, refreshToken, hlookup, hrefresh, -, hwrite⟩ :=
    (createOrRelink_eq_ok_iff accounts).mp h
  refine ⟨refreshToken, hrefresh, ?_⟩
  obtain ⟨-, ⟨existing, rfl, rfl⟩ | ⟨rfl, rfl, -⟩⟩ :=
    (writeTokens_eq_ok_iff refreshToken found accounts).mp hwrite
  · obtain ⟨hmem, -⟩ := mem_of_findByUserEmail ((lookup_eq_ok_iff _).mp hlookup).2
    refine Or.inl ⟨existing, hmem, hlookup, ?_⟩
    have hid : linkedId w userId email = existing.id := by rw [linkedId, hlookup]
    have hkeep (a : MailAccount) : (relinkedRow w.answeredAt tokens refreshToken a).id = a.id := rfl
    rw [hid, getById_updateWhereId hkeep, getById_of_mem hids (List.mem_append_left _ hmem),
      Option.map_some, if_pos rfl]
  · refine Or.inr ⟨hlookup, ?_⟩
    have hid : linkedId w userId email = w.nextAccountId := by rw [linkedId, hlookup]
    have hfresh : w.accounts.find? (fun a => a.id = w.nextAccountId) = none :=
      List.find?_eq_none.mpr fun a ha => by simpa using w.fresh a ha
    rw [hid, getById, List.find?_append, hfresh, Option.none_or, List.find?_singleton]
    exact if_pos (decide_eq_true rfl)

/-- **Exactly when a link leaves an OAuth mailbox**: if and only if the row that it finds for the
address, if it finds one, is not a password row.

**Proof sketch.** A new row is an OAuth mailbox by its insert. A row that is found gets the tokens
in each case, and keeps its type: an OAuth row has the provider already, as the table checks. -/
theorem linkYields_iff (hids : (w.accounts.map MailAccount.id).Nodup)
    (hchecked : ∀ a ∈ w.accounts, Checked a)
    (h : exchangeCodeHeadless w code consumed = .ok accounts) :
    LinkYields w code consumed accounts ↔ ¬ FindsPassword w code consumed := by
  obtain ⟨tokens, email, userId, hissued, hwrite⟩ := issued_of_exchangeCodeHeadless h
  obtain ⟨refreshToken, hrefresh, ⟨existing, hmem, hlookup, hrow⟩ | ⟨hlookup, hrow⟩⟩ :=
    getById_linkedId hids hwrite
  · have hchecks := hchecked existing (List.mem_append_left _ hmem)
    cases hauth : existing.authType with
    | password =>
      refine iff_of_false ?_ fun hnot =>
        hnot ⟨tokens, email, userId, existing, hissued, hlookup, hauth⟩
      rintro ⟨tokens', email', userId', refreshToken', row, hissued', -, hrow', hmailbox⟩
      obtain ⟨rfl, rfl, rfl⟩ := hissued.unique hissued'
      rw [hrow, Option.some.injEq] at hrow'
      subst hrow'
      have htype := hmailbox.authType
      rw [(type_relinkedRow existing).1, hauth] at htype
      cases htype
    | oauthOutlook =>
      refine iff_of_true ⟨tokens, email, userId, refreshToken, _, hissued, hrefresh, hrow,
        (holdsTokens_relinkedRow existing).oauthMailbox hauth (hchecks.2.2.2.2.2 hauth).2⟩ ?_
      rintro ⟨tokens', email', userId', existing', hissued', hlookup', hpassword⟩
      obtain ⟨rfl, rfl, rfl⟩ := hissued.unique hissued'
      rw [hlookup, Except.ok.injEq, Option.some.injEq] at hlookup'
      subst hlookup'
      rw [hauth] at hpassword
      cases hpassword
  · refine iff_of_true ⟨tokens, email, userId, refreshToken, _, hissued, hrefresh, hrow,
      (holdsTokens_newRow w.nextAccountId userId email).oauthMailbox rfl rfl⟩ ?_
    rintro ⟨tokens', email', userId', existing', hissued', hlookup', -⟩
    obtain ⟨rfl, rfl, rfl⟩ := hissued.unique hissued'
    rw [hlookup] at hlookup'
    cases hlookup'

end Link

/-- The state of a consent. -/
def consentState : Except CallbackError OAuthState := .ok ⟨"v".toList, some "crm".toList⟩

/-- A mailbox with a password. -/
def passwordMailbox : MailAccount where
  id := 1
  userId := 1
  email := "a@b".toList
  encryptedPassword := some (encryptMailPassword "p".toList 1)

/-- The consent of an address that has a mailbox with a password. -/
def passwordCallback : CallbackWorld :=
  { linkingCallback with
    seen := [passwordMailbox]
    nextAccountId := 2
    fresh := by decide }

/-- A link of a new address leaves an OAuth mailbox. -/
theorem linkYields_linkingCallback : ∃ accounts,
    exchangeCodeHeadless linkingCallback "c".toList consentState = .ok accounts ∧
      LinkYields linkingCallback "c".toList consentState accounts := by
  refine ⟨_, rfl, (linkYields_iff (by decide) (by decide) rfl).mpr ?_⟩
  rintro ⟨tokens, email, userId, existing, -, hlookup, -⟩
  rw [lookup] at hlookup
  split_ifs at hlookup
  cases hlookup

/-- A link of an address that has a password row leaves it a password row. -/
theorem password_row_stays : ∃ accounts,
    exchangeCodeHeadless passwordCallback "c".toList consentState = .ok accounts ∧
      accounts.map MailAccount.authType = [.password] ∧
      ¬ ∀ w code consumed accounts, (w.accounts.map MailAccount.id).Nodup →
        (∀ a ∈ w.accounts, Checked a) → exchangeCodeHeadless w code consumed = .ok accounts →
        LinkYields w code consumed accounts := by
  refine ⟨_, rfl, rfl, fun h => ?_⟩
  have hyields := h passwordCallback "c".toList consentState _ (by decide) (by decide) rfl
  exact (linkYields_iff (by decide) (by decide) rfl).mp hyields
    ⟨_, _, 1, passwordMailbox, ⟨_, rfl, rfl, rfl⟩, rfl, rfl⟩

end OutlookOAuthService

end MailAggregator
