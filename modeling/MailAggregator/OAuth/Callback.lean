import MailAggregator.Accounts.UniqueAddress
import MailAggregator.OAuth.AccessToken

set_option relaxedAutoImplicit false
set_option autoImplicit false

/-!
# The OAuth callback

The redirect target of the consent: the one-shot state is read and deleted, the code is exchanged,
and a mailbox is created or its tokens are replaced, in one transaction. Only `OAuthError` becomes
the error page. What the HTTP library, the conversion of the reply, the identity token, the cipher
or the database raise has no handler, and is answered with no page at all.

## Main definitions

* `MailAggregator.CallbackWorld` — what a callback meets.
* `MailAggregator.OutlookOAuthService.externalOauthCallback` — the endpoint.
* `MailAggregator.OutlookOAuthService.AllOrNothing` — a mailbox and the success page, or no change
  and the error page.
* `MailAggregator.OutlookOAuthService.Handled` — nothing that the callback meets raises.

## Main results

* `MailAggregator.OutlookOAuthService.accounts_externalOauthCallback` — without the success page
  the table is as it was.
* `MailAggregator.OutlookOAuthService.errorPage_of_replay` — a state works once.
* `MailAggregator.OutlookOAuthService.allOrNothing_iff` — exactly when a callback is all or nothing.
-/

namespace MailAggregator

open PyText MailAccountsRepo TokenClient

/-! ## What a callback meets -/

/-- The query of the redirect. -/
structure CallbackQuery where
  code : Option Text := none
  state : Option Text := none
  error : Option Text := none
  deriving DecidableEq, Repr

/-- `OAuthState`. -/
structure OAuthState where
  codeVerifier : Text
  crmState : Option Text := none
  deriving DecidableEq, Repr

/-- How an attempt to notify the CRM ends. -/
inductive IngestEnd where
  /-- `httpx.ConnectError` and `httpx.ConnectTimeout`. -/
  | connectError
  | otherError
  | response (status : ℕ)
  deriving DecidableEq, Repr

/-- What a callback meets. -/
structure CallbackWorld where
  /-- The rate limit is not exhausted. -/
  allowed : Bool := true
  /-- `outlook_oauth_enabled`. -/
  enabled : Bool := true
  redisUp : Bool := true
  /-- The values in Redis, by key. -/
  states : Text → Option Text
  /-- `OAuthState.model_validate_json`. -/
  validate : Text → Option OAuthState
  endpoint : TokenRequest → HttpEnd
  /-- The time at which the reply of the endpoint is there. -/
  answeredAt : Instant
  repr : Json → Text
  /-- The claims in the middle part of an identity token. -/
  loads : Text → JsonEnd
  /-- The id of the `crm-service` user. -/
  owner : Option ℕ
  pyLower : Text → Text
  dbLower : Text → Text
  /-- The table when the address is looked up. -/
  seen : List MailAccount
  /-- The rows that other transactions commit between this and the write. -/
  committed : List MailAccount
  /-- What the sequence of ids gives. -/
  nextAccountId : ℕ
  fresh : ∀ a ∈ seen ++ committed, a.id ≠ nextAccountId
  /-- `crm_oauth_ingest_enabled`, and how the attempts to notify the CRM end. -/
  ingestEnabled : Bool := false
  ingest : List IngestEnd := []

/-- The table without the callback. -/
def CallbackWorld.accounts (w : CallbackWorld) : List MailAccount := w.seen ++ w.committed

/-- What a callback raises. -/
inductive CallbackError where
  | redisError
  | tokenError (e : TokenError)
  | lookupError (e : LookupError)
  | refused (e : DbRefusal)
  deriving DecidableEq, Repr

/-- `OAuthError`, the one family that the router catches. -/
def CallbackError.IsOAuthError : CallbackError → Prop
  | tokenError (.oauthError _) => True
  | _ => False

instance : DecidablePred CallbackError.IsOAuthError
  | .tokenError (.oauthError _) => .isTrue trivial
  | .tokenError .oauthRefreshInvalidError | .tokenError .httpError | .tokenError .valueError
  | .tokenError .keyError | .tokenError .typeError | .tokenError .overflowError
  | .tokenError .attributeError | .tokenError .recursionError | .tokenError .invalidTag
  | .tokenError .assertionError | .tokenError .dbError | .redisError | .lookupError _
  | .refused _ => .isFalse id

/-- How a callback is answered. -/
inductive CallbackResponse where
  | tooManyRequests
  | notFound
  | errorPage
  | successPage (crmNotified : Bool)
  /-- An exception that nothing handles: the status is 500, and there is no page. -/
  | raised (e : CallbackError)
  deriving DecidableEq, Repr

/-- The answer, and the table and Redis after it. -/
structure CallbackResult where
  response : CallbackResponse
  accounts : List MailAccount
  states : Text → Option Text

namespace OutlookOAuthService

/-! ## The code -/

/-- `OAUTH_STATE_KEY_PREFIX`. -/
def oauthStateKeyPrefix : Text := "oauth_state:".toList

/-- `OAuthError` with a code. -/
def oauthError (code : String) : CallbackError := .tokenError (.oauthError code.toList)

/-- `_consume_state`: the state, and Redis after the `GET` and `DEL`. -/
def consumeState (w : CallbackWorld) (state : Text) :
    Except CallbackError OAuthState × (Text → Option Text) :=
  if w.redisUp = false then (.error .redisError, w.states)
  else
    (match w.states (oauthStateKeyPrefix ++ state) with
      | none | some [] => .error (oauthError "oauth_state_invalid")
      | some raw =>
        match w.validate raw with
        | none => .error (oauthError "oauth_state_invalid")
        | some st => .ok st,
      Function.update w.states (oauthStateKeyPrefix ++ state) none)

/-- The address of a mailbox, of the claim in an identity token. -/
def mailboxAddress (w : CallbackWorld) (claimed : Text) : Text :=
  Addresses.linkedAddress w.pyLower claimed

/-- `_exchange_and_resolve`. -/
def exchangeAndResolve (w : CallbackWorld) (code codeVerifier : Text) :
    Except CallbackError (TokenPayload × Text) :=
  match post w.repr (w.endpoint (.authorizationCode code codeVerifier)) with
  | .error .oauthRefreshInvalidError => .error (oauthError "oauth_exchange_failed")
  | .error e => .error (.tokenError e)
  | .ok tokens =>
    if ¬ tokens.refreshToken.Truthy then .error (oauthError "oauth_exchange_failed")
    else
      match decodeEmailFromIdToken w.loads tokens.idToken with
      | .error e => .error (.tokenError e)
      | .ok none => .error (oauthError "oauth_exchange_failed")
      | .ok (some claimed) => .ok (tokens, mailboxAddress w claimed)

/-- The columns that are written of a token response: its access token, its refresh token if that is
a text, and its scope. -/
def storedTokens (tokens : TokenPayload) : TokenResponse where
  accessToken := tokens.accessToken
  refreshToken :=
    match tokens.refreshToken with
    | .str text => some text
    | _ => none
  scope :=
    match tokens.scope with
    | .str text => some text
    | _ => none

/-- The row of an existing mailbox after `_create_or_relink`. -/
def relinkedRow (now : Instant) (tokens : TokenPayload) (refreshToken : Text) (a : MailAccount) :
    MailAccount :=
  { relink now (storedTokens tokens) refreshToken a with
    oauthAccessTokenExpiresAt := some (OutlookTokenService.expiresAt now tokens.expiresIn) }

/-- The row of a new mailbox. -/
def newRow (accountId userId : ℕ) (email : Text) (now : Instant) (tokens : TokenPayload)
    (refreshToken : Text) : MailAccount :=
  { linkedRow accountId userId email (storedTokens tokens) refreshToken now with
    oauthAccessTokenExpiresAt := some (OutlookTokenService.expiresAt now tokens.expiresIn) }

/-- The lookup of the address. A text with a U+0000 cannot be a parameter of a query. -/
def lookup (w : CallbackWorld) (userId : ℕ) (email : Text) :
    Except CallbackError (Option MailAccount) :=
  if '\x00' ∈ w.pyLower email then .error (.refused .dataError)
  else
    match findByUserEmail w.pyLower w.dbLower w.seen userId email with
    | .error e => .error (.lookupError e)
    | .ok found => .ok found

/-- The write of `_create_or_relink`: the table after it. -/
def writeTokens (w : CallbackWorld) (userId : ℕ) (email : Text) (tokens : TokenPayload)
    (refreshToken : Text) : Option MailAccount → Except CallbackError (List MailAccount)
  | some existing =>
    if ¬ OutlookTokenService.StorableScope tokens.scope then .error (.refused .dataError)
    else .ok (updateWhereId w.accounts existing.id (relinkedRow w.answeredAt tokens refreshToken))
  | none =>
    if ¬ OutlookTokenService.StorableScope tokens.scope then .error (.refused .dataError)
    else
      match insertWithId w.accounts
        (newRow w.nextAccountId userId email w.answeredAt tokens refreshToken) with
      | .error e => .error (.refused e)
      | .ok accounts => .ok accounts

/-- `_create_or_relink`: the table after it. -/
def createOrRelink (w : CallbackWorld) (userId : ℕ) (email : Text) (tokens : TokenPayload) :
    Except CallbackError (List MailAccount) :=
  if ¬ OutlookTokenService.FitsDatetime
      (OutlookTokenService.expiresAt w.answeredAt tokens.expiresIn)
  then .error (.tokenError .overflowError)
  else
    match lookup w userId email with
    | .error e => .error e
    | .ok found =>
      match tokens.refreshToken with
      | .str refreshToken =>
        if tokens.encodable = false then .error (.tokenError .valueError)
        else writeTokens w userId email tokens refreshToken found
      | other => .error (.tokenError (OutlookTokenService.encryptError other))

/-- `exchange_code_headless`, for the state that was consumed. -/
def exchangeCodeHeadless (w : CallbackWorld) (code : Text) :
    Except CallbackError OAuthState → Except CallbackError (List MailAccount)
  | .error e => .error e
  | .ok st =>
    if st.crmState = none then .error (oauthError "oauth_state_invalid")
    else
      match exchangeAndResolve w code st.codeVerifier with
      | .error e => .error e
      | .ok (tokens, email) =>
        match w.owner with
        | none => .error (oauthError "oauth_exchange_failed")
        | some userId => createOrRelink w userId email tokens

/-- `_CONNECT_RETRY_ATTEMPTS`. -/
def connectRetryAttempts : ℕ := 3

/-- The attempts of `notify_crm_oauth_ingest`: only one that did not connect is repeated. -/
def notifyAttempts : ℕ → List IngestEnd → Bool
  | 0, _ | _, [] => false
  | n + 1, .connectError :: later => notifyAttempts n later
  | _, .otherError :: _ => false
  | _, .response status :: _ => 200 ≤ status ∧ status < 300

/-- `notify_crm_oauth_ingest`, which never raises. -/
def notifyCrmOauthIngest (w : CallbackWorld) : Bool :=
  w.ingestEnabled && notifyAttempts connectRetryAttempts w.ingest

/-- A parameter of the query that is not empty. -/
def given (parameter : Option Text) : Option Text := parameter.filter (· ≠ [])

/-- The transaction of the callback and its `except` clause. -/
def answer (w : CallbackWorld) : Except CallbackError (List MailAccount) → CallbackResponse
  | .ok _ => .successPage (notifyCrmOauthIngest w)
  | .error e => if e.IsOAuthError then .errorPage else .raised e

/-- `external_oauth_callback`. -/
def externalOauthCallback (w : CallbackWorld) (q : CallbackQuery) : CallbackResult :=
  if w.allowed = false then ⟨.tooManyRequests, w.accounts, w.states⟩
  else if w.enabled = false then ⟨.notFound, w.accounts, w.states⟩
  else if given q.error ≠ none then ⟨.errorPage, w.accounts, w.states⟩
  else
    match given q.code, given q.state with
    | some code, some state =>
      { response := answer w (exchangeCodeHeadless w code (consumeState w state).1)
        accounts :=
          -- an exception rolls the transaction back
          match exchangeCodeHeadless w code (consumeState w state).1 with
          | .ok accounts => accounts
          | .error _ => w.accounts
        states := (consumeState w state).2 }
    | _, _ => ⟨.errorPage, w.accounts, w.states⟩

/-! ## What a callback leaves behind -/

/-- **Without the success page the table is as it was.** -/
theorem accounts_externalOauthCallback {w : CallbackWorld} {q : CallbackQuery}
    (h : ∀ crmNotified, (externalOauthCallback w q).response ≠ .successPage crmNotified) :
    (externalOauthCallback w q).accounts = w.accounts := by
  rw [externalOauthCallback] at h ⊢
  by_cases hallowed : w.allowed = false
  · simp only [if_pos hallowed]
  · by_cases henabled : w.enabled = false
    · simp only [if_neg hallowed, if_pos henabled]
    · by_cases herror : given q.error ≠ none
      · simp only [if_neg hallowed, if_neg henabled, if_pos herror]
      · simp only [if_neg hallowed, if_neg henabled, if_neg herror] at h ⊢
        cases hcode : given q.code with
        | none => rfl
        | some code =>
          cases hstate : given q.state with
          | none => rfl
          | some state =>
            simp only [hcode, hstate] at h ⊢
            cases hexchange : exchangeCodeHeadless w code (consumeState w state).1 with
            | error e => rfl
            | ok accounts =>
              rw [hexchange] at h
              exact absurd rfl (h _)

/-- Where Redis answers, a state is gone after it was read. -/
theorem states_consumeState {w : CallbackWorld} (hredis : w.redisUp = true) (state : Text) :
    (consumeState w state).2 (oauthStateKeyPrefix ++ state) = none := by
  have hup : ¬ w.redisUp = false := by simp [hredis]
  rw [consumeState, if_neg hup]
  exact Function.update_self _ _ _

/-- **A state works once**: a callback with a state that Redis does not have is answered with the
error page, and changes no row. -/
theorem errorPage_of_replay {w : CallbackWorld} {q : CallbackQuery} (hallowed : w.allowed = true)
    (henabled : w.enabled = true) (hredis : w.redisUp = true)
    (hgone : ∀ state, given q.state = some state → w.states (oauthStateKeyPrefix ++ state) = none) :
    (externalOauthCallback w q).response = .errorPage ∧
      (externalOauthCallback w q).accounts = w.accounts := by
  have hpage : (externalOauthCallback w q).response = .errorPage := by
    simp only [externalOauthCallback, hallowed, henabled, Bool.true_eq_false, if_false]
    by_cases herror : given q.error ≠ none
    · simp only [if_pos herror]
    · simp only [if_neg herror]
      cases hcode : given q.code with
      | none => rfl
      | some code =>
        cases hstate : given q.state with
        | none => rfl
        | some state =>
          have hconsumed : (consumeState w state).1 =
              .error (oauthError "oauth_state_invalid") := by
            simp only [consumeState, hredis, Bool.true_eq_false, if_false, hgone state hstate]
          simp only [hconsumed, exchangeCodeHeadless]
          rfl
  refine ⟨hpage, accounts_externalOauthCallback fun crmNotified => ?_⟩
  rw [hpage]
  exact CallbackResponse.noConfusion

/-! ## All or nothing -/

/-- The callback asks Redis for a state: it carries one, a code, and no error. -/
def Asks (q : CallbackQuery) (code state : Text) : Prop :=
  given q.error = none ∧ given q.code = some code ∧ given q.state = some state

/-- **The callback is authorised** by a state that is stored, well formed, and carries the state of
the CRM. -/
def Authorised (w : CallbackWorld) (q : CallbackQuery) (code : Text) (st : OAuthState) : Prop :=
  w.redisUp = true ∧ st.crmState ≠ none ∧ ∃ state raw, Asks q code state ∧ raw ≠ [] ∧
    w.states (oauthStateKeyPrefix ++ state) = some raw ∧ w.validate raw = some st

/-- **The exchange gives tokens**, of which one is a refresh token. -/
def Exchanged (w : CallbackWorld) (q : CallbackQuery) (tokens : TokenPayload) : Prop :=
  ∃ code st, Authorised w q code st ∧
    post w.repr (w.endpoint (.authorizationCode code st.codeVerifier)) = .ok tokens ∧
    tokens.refreshToken.Truthy

/-- **The address is resolved**: the identity token is a string that claims one. -/
def Resolved (w : CallbackWorld) (q : CallbackQuery) (tokens : TokenPayload) (claimed : Text) :
    Prop :=
  Exchanged w q tokens ∧ ∃ token, tokens.idToken.string = some token ∧
    emailOfToken w.loads token = .ok (some claimed)

/-- **A mailbox is created or re-linked**, with the tokens of the exchange. -/
def Connected (w : CallbackWorld) (q : CallbackQuery) (accounts : List MailAccount) : Prop :=
  ∃ tokens claimed userId refreshToken, Resolved w q tokens claimed ∧ w.owner = some userId ∧
    tokens.refreshToken = .str refreshToken ∧
    (accounts = w.accounts ++ [newRow w.nextAccountId userId (mailboxAddress w claimed)
        w.answeredAt tokens refreshToken] ∨
      ∃ existing ∈ w.seen, existing.userId = userId ∧
        w.dbLower existing.email = w.pyLower (mailboxAddress w claimed) ∧
        accounts =
          updateWhereId w.accounts existing.id (relinkedRow w.answeredAt tokens refreshToken))

/-- **All or nothing**: a mailbox is created or re-linked and the success page is returned, or no
row is created or changed and the error page is returned. -/
def AllOrNothing (w : CallbackWorld) (q : CallbackQuery) : Prop :=
  (∃ crmNotified, (externalOauthCallback w q).response = .successPage crmNotified ∧
      Connected w q (externalOauthCallback w q).accounts) ∨
    (externalOauthCallback w q).response = .errorPage ∧
      (externalOauthCallback w q).accounts = w.accounts

/-- A reply that is there: a token response if its status is 200, and otherwise one whose body is
not nested too deep. -/
def Answered : HttpEnd → Prop
  | .transportError => False
  | .response status body => if status = 200 then UsableBody body else ¬ TooDeep body

/-- **What is written can be written.** -/
structure Writable (w : CallbackWorld) (userId : ℕ) (email : Text) (tokens : TokenPayload) :
    Prop where
  expiry : OutlookTokenService.FitsDatetime
    (OutlookTokenService.expiresAt w.answeredAt tokens.expiresIn)
  parameter : '\x00' ∉ w.pyLower email
  /-- At most one row has the owner and the address. -/
  single : findByUserEmail w.pyLower w.dbLower w.seen userId email ≠ .error .multipleResultsFound
  refreshToken : ∃ text, tokens.refreshToken = .str text
  accessToken : tokens.encodable = true
  scope : OutlookTokenService.StorableScope tokens.scope
  /-- A new row has an address that can be stored and that no other transaction has taken. -/
  insert : findByUserEmail w.pyLower w.dbLower w.seen userId email = .ok none →
    '\x00' ∉ email ∧ ∀ b ∈ w.accounts, ¬ (b.userId = userId ∧ b.email = email)

/-- **Nothing that the callback meets raises** anything but `OAuthError`. -/
structure Handled (w : CallbackWorld) (q : CallbackQuery) : Prop where
  redis : ∀ code state, Asks q code state → w.redisUp = true
  reply : ∀ code st, Authorised w q code st →
    Answered (w.endpoint (.authorizationCode code st.codeVerifier))
  idToken : ∀ tokens, Exchanged w q tokens → tokens.idToken.Truthy →
    Legible w.loads tokens.idToken
  write : ∀ tokens claimed userId, Resolved w q tokens claimed → w.owner = some userId →
    Writable w userId (mailboxAddress w claimed) tokens

section Stages

variable {w : CallbackWorld} {q : CallbackQuery} {code state email : Text} {userId : ℕ}
  {tokens : TokenPayload}

/-- The constraints of a new row: its address can be stored, and no other row has it.

**Proof sketch.** The columns of the new row are constants apart from its owner, its address and its
tokens. So of its texts only the address can have a NUL, its `CHECK` constraints hold, and the
unique key is violated exactly if a row has the owner and the address. These are the three tests of
the insert, in its order. -/
theorem insertWithId_newRow_eq_ok_iff (refreshToken : Text) (accounts : List MailAccount) :
    insertWithId w.accounts
        (newRow w.nextAccountId userId email w.answeredAt tokens refreshToken) = .ok accounts ↔
      accounts = w.accounts ++ [newRow w.nextAccountId userId email w.answeredAt tokens
          refreshToken] ∧
        '\x00' ∉ email ∧ ∀ b ∈ w.accounts, ¬ (b.userId = userId ∧ b.email = email) := by
  have htexts : TextsStorable (newRow w.nextAccountId userId email w.answeredAt tokens
      refreshToken) ↔ '\x00' ∉ email := by
    have himap : '\x00' ∉ "outlook.office365.com".toList := by decide
    have hsmtp : '\x00' ∉ "smtp-mail.outlook.com".toList := by decide
    simp only [TextsStorable, updatedTexts, newRow, linkedRow, Option.toList_none, List.append_nil,
      List.forall_mem_cons, himap, hsmtp, not_false_eq_true, List.not_mem_nil,
      false_imp_iff, implies_true, and_true]
  have hchecked : Checked (newRow w.nextAccountId userId email w.answeredAt tokens
      refreshToken) := by
    have himap : PortOk (some 993) := by decide
    have hsmtp : PortOk (some 587) := by decide
    refine ⟨himap, hsmtp, by simp [newRow, linkedRow], fun t ht => ?_, fun hauth => ?_,
      fun _ => ⟨Option.some_ne_none _, rfl⟩⟩
    · cases ht
    · cases hauth
  have htaken : AddressTaken w.accounts (newRow w.nextAccountId userId email w.answeredAt tokens
      refreshToken) ↔ ∃ b ∈ w.accounts, b.userId = userId ∧ b.email = email := by
    constructor
    · rintro ⟨b, hb, -, huser, hemail⟩
      exact ⟨b, hb, huser, hemail⟩
    · rintro ⟨b, hb, huser, hemail⟩
      exact ⟨b, hb, w.fresh b hb, huser, hemail⟩
  rw [insertWithId]
  by_cases hnul : '\x00' ∈ email
  · rw [if_pos (fun hstorable => htexts.mp hstorable hnul)]
    exact iff_of_false (fun h => by cases h) fun h => h.2.1 hnul
  · rw [if_neg (not_not_intro (htexts.mpr hnul))]
    by_cases hfree : ∃ b ∈ w.accounts, b.userId = userId ∧ b.email = email
    · rw [if_pos (Or.inr (htaken.mpr hfree))]
      refine iff_of_false (fun h => by cases h) fun h => ?_
      obtain ⟨b, hb, hsame⟩ := hfree
      exact h.2.2 b hb hsame
    · rw [if_neg (not_or.mpr ⟨not_not_intro hchecked, fun h => hfree (htaken.mp h)⟩),
        Except.ok.injEq]
      constructor
      · rintro rfl
        exact ⟨rfl, hnul, fun b hb hsame => hfree ⟨b, hb, hsame⟩⟩
      · rintro ⟨rfl, -, -⟩
        rfl

/-- When the lookup answers. -/
theorem lookup_eq_ok_iff (found : Option MailAccount) :
    lookup w userId email = .ok found ↔ '\x00' ∉ w.pyLower email ∧
      findByUserEmail w.pyLower w.dbLower w.seen userId email = .ok found := by
  rw [lookup]
  by_cases hnul : '\x00' ∈ w.pyLower email
  · simp [hnul]
  · rw [if_neg hnul]
    cases findByUserEmail w.pyLower w.dbLower w.seen userId email <;> simp [hnul]

/-- A row that the lookup finds is one of the owner, with the address. -/
theorem mem_of_findByUserEmail {a : MailAccount}
    (h : findByUserEmail w.pyLower w.dbLower w.seen userId email = .ok (some a)) :
    a ∈ w.seen ∧ a.userId = userId ∧ w.dbLower a.email = w.pyLower email := by
  rw [findByUserEmail] at h
  split at h
  · cases h
  · next row hrows =>
    cases h
    have hmem := hrows ▸ List.mem_singleton_self a
    simpa using List.mem_filter.mp hmem
  · cases h

/-- **What the write does**, and when it can be done.

**Proof sketch.** The scope is checked in either case. A row that was found is updated, which cannot
fail then. Otherwise the row is inserted, and the constraints of the new row decide. -/
theorem writeTokens_eq_ok_iff (refreshToken : Text) (found : Option MailAccount)
    (accounts : List MailAccount) :
    writeTokens w userId email tokens refreshToken found = .ok accounts ↔
      OutlookTokenService.StorableScope tokens.scope ∧
        ((∃ existing, found = some existing ∧ accounts = updateWhereId w.accounts existing.id
            (relinkedRow w.answeredAt tokens refreshToken)) ∨
          found = none ∧ accounts = w.accounts ++ [newRow w.nextAccountId userId email w.answeredAt
              tokens refreshToken] ∧
            '\x00' ∉ email ∧ ∀ b ∈ w.accounts, ¬ (b.userId = userId ∧ b.email = email)) := by
  cases found with
  | some existing =>
    rw [writeTokens]
    by_cases hscope : OutlookTokenService.StorableScope tokens.scope
    · simp [hscope, eq_comm]
    · simp [hscope]
  | none =>
    rw [writeTokens]
    by_cases hscope : OutlookTokenService.StorableScope tokens.scope
    · have hinsert : insertWithId w.accounts
          (newRow w.nextAccountId userId email w.answeredAt tokens refreshToken) =
            .ok accounts ↔ _ :=
        insertWithId_newRow_eq_ok_iff refreshToken accounts
      rw [if_neg (not_not_intro hscope)]
      cases hresult : insertWithId w.accounts
          (newRow w.nextAccountId userId email w.answeredAt tokens refreshToken) with
      | error e =>
        rw [hresult] at hinsert
        simp only [reduceCtorEq, false_iff] at hinsert
        simp only [reduceCtorEq, false_iff]
        rintro ⟨-, ⟨existing, hfound, -⟩ | ⟨-, hrest⟩⟩
        · cases hfound
        · exact hinsert hrest
      | ok inserted =>
        rw [hresult] at hinsert
        rw [Except.ok.injEq] at hinsert
        simp only [Except.ok.injEq, hinsert, hscope, reduceCtorEq, false_and, exists_false,
          false_or, true_and]
    · simp [hscope]

/-- `_create_or_relink` succeeds if the expiry fits, the lookup answers, the tokens can be encrypted
and the write can be done. -/
theorem createOrRelink_eq_ok_iff (accounts : List MailAccount) :
    createOrRelink w userId email tokens = .ok accounts ↔
      OutlookTokenService.FitsDatetime
          (OutlookTokenService.expiresAt w.answeredAt tokens.expiresIn) ∧
        ∃ found refreshToken, lookup w userId email = .ok found ∧
          tokens.refreshToken = .str refreshToken ∧ tokens.encodable = true ∧
          writeTokens w userId email tokens refreshToken found = .ok accounts := by
  rw [createOrRelink]
  by_cases hexpiry : OutlookTokenService.FitsDatetime
      (OutlookTokenService.expiresAt w.answeredAt tokens.expiresIn)
  · rw [if_neg (not_not_intro hexpiry), and_iff_right hexpiry]
    cases hlookup : lookup w userId email with
    | error e => simp
    | ok found =>
      cases hrefresh : tokens.refreshToken with
      | str refreshToken => cases hencodable : tokens.encodable <;> simp
      | _ => simp
  · rw [if_pos hexpiry]
    exact iff_of_false (fun h => by cases h) fun h => hexpiry h.1

/-- **When a mailbox is created or re-linked.**

**Proof sketch.** The steps in their order: the expiry, the lookup, the refresh token, the
encryption, and the write. Each has an equation for its success, and the condition names these one
by one; the write of a new row needs the free address, the write to a found one does not. -/
theorem createOrRelink_ok_iff :
    (∃ accounts, createOrRelink w userId email tokens = .ok accounts) ↔
      Writable w userId email tokens := by
  constructor
  · rintro ⟨accounts, h⟩
    obtain ⟨hexpiry, found, refreshToken, hlookup, hrefresh, hencodable, hdone⟩ :=
      (createOrRelink_eq_ok_iff accounts).mp h
    obtain ⟨hparameter, hfind⟩ := (lookup_eq_ok_iff found).mp hlookup
    obtain ⟨hscope, hwrite⟩ := (writeTokens_eq_ok_iff refreshToken found accounts).mp hdone
    refine ⟨hexpiry, hparameter, ?_, ⟨refreshToken, hrefresh⟩, hencodable, hscope, fun hnone => ?_⟩
    · rw [hfind]
      simp
    · rw [hfind] at hnone
      rcases hwrite with ⟨existing, hfound, -⟩ | ⟨-, -, hfree⟩
      · cases hnone; cases hfound
      · exact hfree
  · intro h
    obtain ⟨refreshToken, hrefresh⟩ := h.refreshToken
    cases hfind : findByUserEmail w.pyLower w.dbLower w.seen userId email with
    | error e => cases e; exact absurd hfind h.single
    | ok found =>
      have hlookup : lookup w userId email = .ok found :=
        (lookup_eq_ok_iff found).mpr ⟨h.parameter, hfind⟩
      have hdone : ∃ accounts,
          writeTokens w userId email tokens refreshToken found = .ok accounts := by
        simp only [writeTokens_eq_ok_iff, h.scope, true_and]
        cases found with
        | some existing => exact ⟨_, Or.inl ⟨existing, rfl, rfl⟩⟩
        | none => exact ⟨_, Or.inr ⟨rfl, rfl, h.insert hfind⟩⟩
      obtain ⟨accounts, hdone⟩ := hdone
      exact ⟨accounts, (createOrRelink_eq_ok_iff accounts).mpr
        ⟨h.expiry, found, refreshToken, hlookup, hrefresh, h.accessToken, hdone⟩⟩

/-- What the write raises is no `OAuthError`. -/
theorem not_isOAuthError_of_writeTokens {refreshToken : Text} {found : Option MailAccount}
    {e : CallbackError} (h : writeTokens w userId email tokens refreshToken found = .error e) :
    ¬ e.IsOAuthError := by
  by_cases hscope : OutlookTokenService.StorableScope tokens.scope
  · cases found with
    | some existing =>
      rw [writeTokens, if_neg (not_not_intro hscope)] at h
      cases h
    | none =>
      rw [writeTokens, if_neg (not_not_intro hscope)] at h
      split at h
      · cases h; exact id
      · cases h
  · cases found with
    | some existing => rw [writeTokens, if_pos hscope] at h; cases h; exact id
    | none => rw [writeTokens, if_pos hscope] at h; cases h; exact id

/-- What `_create_or_relink` raises is no `OAuthError`.

**Proof sketch.** The errors come from the expiry, the lookup, the encryption and the write, in this
order, and none of them is of a class below `OAuthError`. -/
theorem not_isOAuthError_of_createOrRelink {e : CallbackError}
    (h : createOrRelink w userId email tokens = .error e) : ¬ e.IsOAuthError := by
  rw [createOrRelink] at h
  by_cases hexpiry : OutlookTokenService.FitsDatetime
      (OutlookTokenService.expiresAt w.answeredAt tokens.expiresIn)
  · rw [if_neg (not_not_intro hexpiry)] at h
    cases hlookup : lookup w userId email with
    | error raised =>
      rw [hlookup] at h
      cases h
      rw [lookup] at hlookup
      split_ifs at hlookup
      · cases hlookup; exact id
      · cases hfind : findByUserEmail w.pyLower w.dbLower w.seen userId email with
        | error e => rw [hfind] at hlookup; cases hlookup; exact id
        | ok found => rw [hfind] at hlookup; cases hlookup
    | ok found =>
      rw [hlookup] at h
      cases hrefresh : tokens.refreshToken with
      | str refreshToken =>
        simp only [hrefresh] at h
        split_ifs at h
        · cases h; exact id
        · exact not_isOAuthError_of_writeTokens h
      | _ => simp only [hrefresh] at h; cases h; exact id
  · rw [if_pos hexpiry] at h
    cases h
    exact id

/-- What `_create_or_relink` writes. -/
theorem accounts_of_createOrRelink {accounts : List MailAccount}
    (h : createOrRelink w userId email tokens = .ok accounts) :
    ∃ refreshToken, tokens.refreshToken = .str refreshToken ∧
      (accounts = w.accounts ++ [newRow w.nextAccountId userId email w.answeredAt tokens
          refreshToken] ∨
        ∃ existing ∈ w.seen, existing.userId = userId ∧
          w.dbLower existing.email = w.pyLower email ∧
          accounts = updateWhereId w.accounts existing.id
            (relinkedRow w.answeredAt tokens refreshToken)) := by
  obtain ⟨-, found, refreshToken, hlookup, hrefresh, -, hwrite⟩ :=
    (createOrRelink_eq_ok_iff accounts).mp h
  refine ⟨refreshToken, hrefresh, ?_⟩
  obtain ⟨-, ⟨existing, rfl, hrelinked⟩ | ⟨-, hinserted, -⟩⟩ :=
    (writeTokens_eq_ok_iff refreshToken found accounts).mp hwrite
  · obtain ⟨hmem, huser, hemail⟩ := mem_of_findByUserEmail ((lookup_eq_ok_iff _).mp hlookup).2
    exact Or.inr ⟨existing, hmem, huser, hemail, hrelinked⟩
  · exact Or.inl hinserted

/-! ### The exchange -/

/-- What `_exchange_and_resolve` returns.

**Proof sketch.** The steps one after another: the reply, its refresh token, the claim of its id
token. Each that fails raises, and the address is the claim without blanks around it and in lower
case. -/
theorem exchangeAndResolve_eq_ok_iff (codeVerifier : Text) :
    exchangeAndResolve w code codeVerifier = .ok (tokens, email) ↔
      post w.repr (w.endpoint (.authorizationCode code codeVerifier)) = .ok tokens ∧
        tokens.refreshToken.Truthy ∧ ∃ token claimed, tokens.idToken.string = some token ∧
          emailOfToken w.loads token = .ok (some claimed) ∧ email = mailboxAddress w claimed := by
  rw [exchangeAndResolve]
  cases hpost : post w.repr (w.endpoint (.authorizationCode code codeVerifier)) with
  | error e => cases e <;> simp
  | ok tokens' =>
    by_cases htruthy : tokens'.refreshToken.Truthy
    · simp only [htruthy, not_true_eq_false, if_false, Except.ok.injEq]
      constructor
      · intro h
        cases hclaim : decodeEmailFromIdToken w.loads tokens'.idToken with
        | error e => rw [hclaim] at h; cases h
        | ok claim =>
          cases claim with
          | none => rw [hclaim] at h; cases h
          | some claimed =>
            rw [hclaim] at h
            cases h
            obtain ⟨token, htoken, hclaimed⟩ := (decodeEmailFromIdToken_eq_some_iff _ _ _).mp hclaim
            exact ⟨rfl, htruthy, token, claimed, htoken, hclaimed, rfl⟩
      · rintro ⟨rfl, -, token, claimed, htoken, hclaimed, rfl⟩
        rw [(decodeEmailFromIdToken_eq_some_iff _ _ _).mpr ⟨token, htoken, hclaimed⟩]
    · simp only [htruthy, not_false_eq_true, if_true, reduceCtorEq, false_iff]
      rintro ⟨hsame, htruthy', -⟩
      cases hsame
      exact htruthy htruthy'

/-- A usable reply is an answer. -/
theorem answered_of_post_ok {reply : HttpEnd} (h : post w.repr reply = .ok tokens) :
    Answered reply := by
  have husable := (post_ok_iff w.repr reply).mp ⟨tokens, h⟩
  cases reply with
  | transportError => exact husable
  | response status body =>
    rw [Answered, if_pos husable.1]
    exact husable.2

/-- **A reply that `_post` raises on is an answer exactly if it raises the error of a status.**

**Proof sketch.** The ways in which `_post` raises, one after another. Of a reply with another
status than 200 it raises one of the two errors of the token service, unless the body is nested too
deep; of a reply with status 200 it raises the exception of a conversion, which is neither. -/
theorem answered_of_post {reply : HttpEnd} {e : TokenError}
    (h : post w.repr reply = .error e) :
    Answered reply ↔ e = .oauthRefreshInvalidError ∨ ∃ code, e = .oauthError code := by
  rcases post_error_cases h with ⟨rfl, rfl⟩ | ⟨status, body, rfl, hstatus, rfl⟩ |
    ⟨body, rfl, husable, hconversion⟩
  · simp [Answered]
  · rw [Answered, if_neg hstatus]
    rcases statusError_cases w.repr body with ⟨hdeep, herror⟩ | ⟨hdeep, herror | herror⟩
    · rw [herror]
      exact iff_of_false (not_not_intro hdeep) (by simp)
    · exact iff_of_true hdeep (Or.inl herror)
    · exact iff_of_true hdeep (Or.inr ⟨_, herror⟩)
  · rw [Answered, if_pos rfl]
    refine iff_of_false husable ?_
    rintro (rfl | ⟨code, rfl⟩)
    · simp [IsConversionError] at hconversion
    · simp [IsConversionError] at hconversion

/-- **What `_exchange_and_resolve` raises is `OAuthError` exactly when the endpoint answered**, and
the identity token, if it got to that, can be looked at.

**Proof sketch.** If `_post` raises then the reply decides. Otherwise the reply is an answer; the
lack of a refresh token is an `OAuthError`, and so is the lack of an address in an identity token
that can be looked at. One that cannot raises something else. -/
theorem isOAuthError_of_exchangeAndResolve {codeVerifier : Text} {e : CallbackError}
    (h : exchangeAndResolve w code codeVerifier = .error e) :
    e.IsOAuthError ↔
      Answered (w.endpoint (.authorizationCode code codeVerifier)) ∧
        ∀ tokens, post w.repr (w.endpoint (.authorizationCode code codeVerifier)) = .ok tokens →
          tokens.refreshToken.Truthy → tokens.idToken.Truthy →
            Legible w.loads tokens.idToken := by
  rw [exchangeAndResolve] at h
  cases hpost : post w.repr (w.endpoint (.authorizationCode code codeVerifier)) with
  | error raised =>
    rw [hpost] at h
    simp only [answered_of_post hpost, reduceCtorEq, false_imp_iff, implies_true, and_true]
    cases raised <;> cases h <;> simp [CallbackError.IsOAuthError, oauthError]
  | ok tokens =>
    simp only [answered_of_post_ok hpost, true_and, Except.ok.injEq, forall_eq']
    rw [hpost] at h
    by_cases htruthy : tokens.refreshToken.Truthy
    · simp only [htruthy, not_true_eq_false, if_false, forall_const] at h ⊢
      rw [← decodeEmailFromIdToken_ok_iff]
      cases hclaim : decodeEmailFromIdToken w.loads tokens.idToken with
      | error raised =>
        rw [hclaim] at h
        cases h
        refine iff_of_false ?_ (by simp)
        rcases decodeEmailFromIdToken_error hclaim with rfl | rfl
        · exact id
        · exact id
      | ok claim =>
        cases claim with
        | some claimed => rw [hclaim] at h; cases h
        | none =>
          rw [hclaim] at h
          cases h
          exact iff_of_true trivial ⟨none, rfl⟩
    · simp only [htruthy, not_false_eq_true, if_true, Except.error.injEq] at h
      subst h
      exact iff_of_true trivial fun hrefresh => absurd hrefresh htruthy

/-! ### The whole callback -/

/-- What a state is consumed to. -/
theorem consumeState_eq_ok_iff (st : OAuthState) :
    (consumeState w state).1 = .ok st ↔ w.redisUp = true ∧ ∃ raw, raw ≠ [] ∧
      w.states (oauthStateKeyPrefix ++ state) = some raw ∧ w.validate raw = some st := by
  rw [consumeState]
  cases hredis : w.redisUp with
  | false => simp
  | true =>
    simp only [Bool.true_eq_false, if_false, true_and]
    cases hraw : w.states (oauthStateKeyPrefix ++ state) with
    | none => simp
    | some raw =>
      cases raw with
      | nil => simp
      | cons c rest => cases hvalid : w.validate (c :: rest) <;> simp [hvalid]

/-- **Redis apart, a state that cannot be consumed is an `OAuthError`.** -/
theorem isOAuthError_of_consumeState {e : CallbackError}
    (h : (consumeState w state).1 = .error e) : e.IsOAuthError ↔ w.redisUp = true := by
  rw [consumeState] at h
  cases hredis : w.redisUp with
  | false =>
    rw [if_pos hredis] at h
    cases h
    exact iff_of_false id Bool.false_ne_true
  | true =>
    rw [if_neg (by simp [hredis])] at h
    refine iff_of_true ?_ rfl
    simp only at h
    split at h
    · cases h; trivial
    · cases h; trivial
    · split at h
      · cases h; trivial
      · cases h

/-- The state that authorises a callback is the one that is consumed. -/
theorem authorised_iff (hasks : Asks q code state) (code' : Text) (st : OAuthState) :
    Authorised w q code' st ↔
      code' = code ∧ (consumeState w state).1 = .ok st ∧ st.crmState ≠ none := by
  obtain ⟨herror, hcode, hstate⟩ := hasks
  rw [consumeState_eq_ok_iff]
  constructor
  · rintro ⟨hredis, hcrm, state', raw, ⟨-, hcode', hstate'⟩, hraw⟩
    rw [hcode] at hcode'
    rw [hstate] at hstate'
    cases hcode'
    cases hstate'
    exact ⟨rfl, ⟨hredis, raw, hraw⟩, hcrm⟩
  · rintro ⟨rfl, ⟨hredis, raw, hraw⟩, hcrm⟩
    exact ⟨hredis, hcrm, state, raw, ⟨herror, hcode, hstate⟩, hraw⟩

/-- The stages that a transaction of the callback has passed. -/
theorem exchangeCodeHeadless_eq_ok {consumed : Except CallbackError OAuthState}
    {accounts : List MailAccount} (h : exchangeCodeHeadless w code consumed = .ok accounts) :
    ∃ st tokens email userId, consumed = .ok st ∧ st.crmState ≠ none ∧
      exchangeAndResolve w code st.codeVerifier = .ok (tokens, email) ∧ w.owner = some userId ∧
      createOrRelink w userId email tokens = .ok accounts := by
  cases consumed with
  | error e => cases h
  | ok st =>
    rw [exchangeCodeHeadless] at h
    by_cases hcrm : st.crmState = none
    · rw [if_pos hcrm] at h
      cases h
    · rw [if_neg hcrm] at h
      cases hresolve : exchangeAndResolve w code st.codeVerifier with
      | error e => rw [hresolve] at h; cases h
      | ok resolved =>
        obtain ⟨tokens, email⟩ := resolved
        rw [hresolve] at h
        cases howner : w.owner with
        | none => simp only [howner] at h; cases h
        | some userId =>
          simp only [howner] at h
          exact ⟨st, tokens, email, userId, rfl, hcrm, hresolve, rfl, h⟩

/-- **What a transaction of the callback leaves is a mailbox with the tokens of the exchange.** -/
theorem connected_of_exchange {accounts : List MailAccount} (hasks : Asks q code state)
    (h : exchangeCodeHeadless w code (consumeState w state).1 = .ok accounts) :
    Connected w q accounts := by
  obtain ⟨st, tokens, email, userId, hconsumed, hcrm, hresolve, howner, hwrite⟩ :=
    exchangeCodeHeadless_eq_ok h
  obtain ⟨hpost, htruthy, token, claimed, htoken, hclaimed, rfl⟩ :=
    (exchangeAndResolve_eq_ok_iff st.codeVerifier).mp hresolve
  obtain ⟨refreshToken, hrefresh, hrow⟩ := accounts_of_createOrRelink hwrite
  have hauthorised := (authorised_iff hasks code st).mpr ⟨rfl, hconsumed, hcrm⟩
  exact ⟨tokens, claimed, userId, refreshToken,
    ⟨⟨code, st, hauthorised, hpost, htruthy⟩, token, htoken, hclaimed⟩, howner, hrefresh, hrow⟩

/-- **A callback is all or nothing exactly when its transaction raises nothing but
`OAuthError`.** -/
theorem allOrNothing_of_asks (hallowed : w.allowed = true) (henabled : w.enabled = true)
    (hasks : Asks q code state) :
    AllOrNothing w q ↔ ∀ e,
      exchangeCodeHeadless w code (consumeState w state).1 = .error e → e.IsOAuthError := by
  have hresult : externalOauthCallback w q =
      { response := answer w (exchangeCodeHeadless w code (consumeState w state).1)
        accounts :=
          match exchangeCodeHeadless w code (consumeState w state).1 with
          | .ok accounts => accounts
          | .error _ => w.accounts
        states := (consumeState w state).2 } := by
    obtain ⟨herror, hcode, hstate⟩ := hasks
    simp only [externalOauthCallback, hallowed, henabled, Bool.true_eq_false, if_false, herror,
      hcode, hstate, ne_eq, not_true_eq_false]
  rw [AllOrNothing, hresult]
  cases hexchange : exchangeCodeHeadless w code (consumeState w state).1 with
  | ok accounts =>
    refine iff_of_true (Or.inl ⟨_, rfl, connected_of_exchange hasks hexchange⟩) fun e he => ?_
    cases he
  | error e =>
    simp only [answer, Except.error.injEq, forall_eq']
    by_cases hoauth : e.IsOAuthError
    · simp [hoauth]
    · simp [hoauth]

/-- A callback that asks for no state is answered with the error page. -/
theorem allOrNothing_of_not_asks (hallowed : w.allowed = true) (henabled : w.enabled = true)
    (hnot : ∀ code state, ¬ Asks q code state) : AllOrNothing w q := by
  refine Or.inr ?_
  simp only [externalOauthCallback, hallowed, henabled, Bool.true_eq_false, if_false]
  by_cases herror : given q.error ≠ none
  · simp only [if_pos herror, and_self]
  · simp only [if_neg herror]
    cases hcode : given q.code with
    | none => exact ⟨rfl, rfl⟩
    | some code =>
      cases hstate : given q.state with
      | none => exact ⟨rfl, rfl⟩
      | some state => exact absurd ⟨not_not.mp herror, hcode, hstate⟩ (hnot code state)

/-- At most one state authorises a callback. -/
theorem authorised_unique {code' : Text} {st st' : OAuthState} (h : Authorised w q code st)
    (h' : Authorised w q code' st') : code' = code ∧ st' = st := by
  obtain ⟨hredis, hcrm, state, raw, hasks, hraw⟩ := h
  have hconsumed : (consumeState w state).1 = .ok st :=
    (consumeState_eq_ok_iff st).mpr ⟨hredis, raw, hraw⟩
  obtain ⟨rfl, hconsumed', -⟩ := (authorised_iff hasks code' st').mp h'
  rw [hconsumed] at hconsumed'
  exact ⟨rfl, (Except.ok.inj hconsumed').symm⟩

/-- Where no state authorises it, a callback meets only Redis. -/
theorem handled_of_not_authorised (hredis : ∀ code state, Asks q code state → w.redisUp = true)
    (hnone : ∀ code st, ¬ Authorised w q code st) : Handled w q := by
  refine ⟨hredis, fun code st h => absurd h (hnone code st), ?_, ?_⟩
  · rintro tokens ⟨code, st, h, -⟩
    exact absurd h (hnone code st)
  · rintro tokens claimed userId ⟨⟨code, st, h, -⟩, -⟩
    exact absurd h (hnone code st)

/-- What an authorised callback meets: the reply, the identity token and the write.

**Proof sketch.** A callback determines the code and the state that authorise it. So what `Handled`
says for every such pair is said for this one: the reply is answered, the id token of a reply with a
refresh token is legible, and what is written for an owner can be written. -/
theorem handled_iff_of_authorised {st : OAuthState} (h : Authorised w q code st) :
    Handled w q ↔
      (Answered (w.endpoint (.authorizationCode code st.codeVerifier)) ∧
        ∀ tokens, post w.repr (w.endpoint (.authorizationCode code st.codeVerifier)) = .ok tokens →
          tokens.refreshToken.Truthy → tokens.idToken.Truthy →
            Legible w.loads tokens.idToken) ∧
      ∀ tokens email userId, exchangeAndResolve w code st.codeVerifier = .ok (tokens, email) →
        w.owner = some userId → Writable w userId email tokens := by
  constructor
  · intro hhandled
    refine ⟨⟨hhandled.reply code st h, fun tokens hpost htruthy =>
      hhandled.idToken tokens ⟨code, st, h, hpost, htruthy⟩⟩,
      fun tokens email userId hresolve howner => ?_⟩
    obtain ⟨hpost, htruthy, token, claimed, htoken, hclaimed, rfl⟩ :=
      (exchangeAndResolve_eq_ok_iff st.codeVerifier).mp hresolve
    exact hhandled.write tokens claimed userId
      ⟨⟨code, st, h, hpost, htruthy⟩, token, htoken, hclaimed⟩ howner
  · rintro ⟨⟨hanswered, hidToken⟩, hwrite⟩
    refine ⟨fun _ _ _ => h.1, fun code' st' h' => ?_, ?_, ?_⟩
    · obtain ⟨rfl, rfl⟩ := authorised_unique h h'
      exact hanswered
    · rintro tokens ⟨code', st', h', hpost, htruthy⟩
      obtain ⟨rfl, rfl⟩ := authorised_unique h h'
      exact hidToken tokens hpost htruthy
    · rintro tokens claimed userId ⟨⟨code', st', h', hpost, htruthy⟩, token, htoken, hclaimed⟩
        howner
      obtain ⟨rfl, rfl⟩ := authorised_unique h h'
      exact hwrite tokens _ userId ((exchangeAndResolve_eq_ok_iff st'.codeVerifier).mpr
        ⟨hpost, htruthy, token, claimed, htoken, hclaimed, rfl⟩) howner

/-- **The transaction of an authorised callback raises nothing but `OAuthError` exactly when nothing
that it meets raises.**

**Proof sketch.** Before the owner is looked up, the condition is about the exchange and the id
token. If the exchange fails, it says what the error is. If it succeeds, the reply was answered and
its id token was legible; then a missing owner is an `OAuthError`, and with an owner the write
succeeds or raises something else, so that the writable tokens decide. -/
theorem isOAuthError_iff_of_authorised {st : OAuthState} (h : Authorised w q code st) :
    (∀ e, exchangeCodeHeadless w code (.ok st) = .error e → e.IsOAuthError) ↔ Handled w q := by
  rw [handled_iff_of_authorised h, exchangeCodeHeadless, if_neg h.2.1]
  cases hresolve : exchangeAndResolve w code st.codeVerifier with
  | error e =>
    simp only [Except.error.injEq, forall_eq', isOAuthError_of_exchangeAndResolve hresolve,
      reduceCtorEq, false_imp_iff, implies_true, and_true]
  | ok resolved =>
    obtain ⟨tokens, email⟩ := resolved
    obtain ⟨hpost, htruthy, token, claimed, htoken, hclaimed, -⟩ :=
      (exchangeAndResolve_eq_ok_iff st.codeVerifier).mp hresolve
    have hreply : Answered (w.endpoint (.authorizationCode code st.codeVerifier)) ∧
        ∀ tokens, post w.repr (w.endpoint (.authorizationCode code st.codeVerifier)) = .ok tokens →
          tokens.refreshToken.Truthy → tokens.idToken.Truthy →
            Legible w.loads tokens.idToken := by
      refine ⟨answered_of_post_ok hpost, fun tokens' hpost' _ _ => ?_⟩
      rw [hpost] at hpost'
      cases hpost'
      exact ⟨token, htoken, (emailOfToken_ok_iff w.loads token).mp ⟨_, hclaimed⟩⟩
    rw [and_iff_right hreply]
    cases howner : w.owner with
    | none =>
      refine iff_of_true (fun e he => ?_) fun _ _ userId _ h => ?_
      · cases he; trivial
      · cases h
    | some userId =>
      constructor
      · intro hraised tokens' email' userId' hsame howner'
        cases hsame
        cases howner'
        cases hwrite : createOrRelink w userId email tokens with
        | ok accounts => exact createOrRelink_ok_iff.mp ⟨accounts, hwrite⟩
        | error e => exact absurd (hraised e hwrite) (not_isOAuthError_of_createOrRelink hwrite)
      · intro hwritable e he
        obtain ⟨accounts, hok⟩ := createOrRelink_ok_iff.mpr (hwritable tokens email userId rfl rfl)
        simp only [hok] at he
        cases he

/-- **Exactly when a callback is all or nothing**: with the feature enabled and the rate limit not
exhausted, if and only if nothing that it meets raises another exception than `OAuthError`.

**Proof sketch.** The stages of the transaction one after another: the state, the exchange, the
owner, the write. At each of them an exception is an `OAuthError`, or one of the conditions fails;
the write raises no `OAuthError` at all. -/
theorem allOrNothing_iff (w : CallbackWorld) (q : CallbackQuery) (hallowed : w.allowed = true)
    (henabled : w.enabled = true) : AllOrNothing w q ↔ Handled w q := by
  by_cases hasks : ∃ code state, Asks q code state
  · obtain ⟨code, state, hasks⟩ := hasks
    rw [allOrNothing_of_asks hallowed henabled hasks]
    cases hconsumed : (consumeState w state).1 with
    | error e =>
      have hnone (code' : Text) (st : OAuthState) : ¬ Authorised w q code' st := by
        rw [authorised_iff hasks, hconsumed]
        rintro ⟨-, hok, -⟩
        cases hok
      simp only [exchangeCodeHeadless, Except.error.injEq, forall_eq',
        isOAuthError_of_consumeState hconsumed]
      exact ⟨fun hredis => handled_of_not_authorised (fun _ _ _ => hredis) hnone,
        fun h => h.redis code state hasks⟩
    | ok st =>
      by_cases hcrm : st.crmState = none
      · have hredis : w.redisUp = true := ((consumeState_eq_ok_iff st).mp hconsumed).1
        have hnone (code' : Text) (st' : OAuthState) : ¬ Authorised w q code' st' := by
          rw [authorised_iff hasks, hconsumed]
          rintro ⟨-, hok, hcrm'⟩
          cases hok
          exact hcrm' hcrm
        refine iff_of_true (fun e he => ?_)
          (handled_of_not_authorised (fun _ _ _ => hredis) hnone)
        rw [exchangeCodeHeadless, if_pos hcrm] at he
        cases he
        trivial
      · exact isOAuthError_iff_of_authorised
          ((authorised_iff hasks code st).mpr ⟨rfl, hconsumed, hcrm⟩)
  · push Not at hasks
    refine iff_of_true (allOrNothing_of_not_asks hallowed henabled hasks)
      (handled_of_not_authorised (fun code state h => absurd h (hasks code state)) ?_)
    rintro code st ⟨-, -, state, raw, h, -⟩
    exact absurd h (hasks code state)

end Stages

/-- A callback whose state is stored; the token endpoint does not answer. -/
def silentCallback : CallbackWorld where
  states := fun key => if key = "oauth_state:s".toList then some "{}".toList else none
  validate := fun _ => some ⟨"v".toList, some "crm".toList⟩
  endpoint := fun _ => .transportError
  answeredAt := 0
  repr := fun _ => []
  loads := fun _ => .valueError
  owner := some 1
  pyLower := id
  dbLower := id
  seen := []
  committed := []
  nextAccountId := 1
  fresh := fun _ h => absurd h List.not_mem_nil

/-- A token endpoint that answers the grant of the consent. -/
def linkingCallback : CallbackWorld :=
  { silentCallback with
    endpoint := fun request =>
      if request = .authorizationCode "c".toList "v".toList then
        .response 200 (.value (.obj
          [("access_token".toList, .str "a".toList), ("refresh_token".toList, .str "r".toList),
            ("id_token".toList, .str "h.p.s".toList)]))
      else .response 400 .valueError
    loads := fun _ => .value (.obj [("email".toList, .str "a@b".toList)]) }

/-- The redirect of a consent that was given. -/
def consented : CallbackQuery where
  code := some "c".toList
  state := some "s".toList

/-- The tokens that it answers with. -/
def linkingTokens : TokenPayload where
  accessToken := "a".toList
  encodable := true
  refreshToken := .str "r".toList
  expiresIn := 3600
  scope := .null
  idToken := .str "h.p.s".toList

/-- A consent that was given is all or nothing: its mailbox is created. -/
theorem allOrNothing_consented : AllOrNothing linkingCallback consented := by
  have hauthorised : Authorised linkingCallback consented "c".toList
      ⟨"v".toList, some "crm".toList⟩ :=
    ⟨rfl, Option.some_ne_none _, "s".toList, "{}".toList, ⟨rfl, rfl, rfl⟩, by decide, rfl, rfl⟩
  have hpost : post linkingCallback.repr (linkingCallback.endpoint
      (.authorizationCode "c".toList "v".toList)) = .ok linkingTokens := rfl
  have hresolve : exchangeAndResolve linkingCallback "c".toList "v".toList =
      .ok (linkingTokens, "a@b".toList) := rfl
  have hwritable : Writable linkingCallback 1 "a@b".toList linkingTokens :=
    { expiry := by decide
      parameter := by decide
      single := fun h => by cases h
      refreshToken := ⟨_, rfl⟩
      accessToken := rfl
      scope := trivial
      insert := fun _ => ⟨by decide, fun b hb => absurd hb List.not_mem_nil⟩ }
  refine (allOrNothing_iff linkingCallback consented rfl rfl).mpr
    ((handled_iff_of_authorised hauthorised).mpr
      ⟨⟨answered_of_post_ok hpost, fun tokens h _ _ => ?_⟩, fun tokens email userId h howner => ?_⟩)
  · obtain rfl := Except.ok.inj (hpost.symm.trans h)
    exact ⟨"h.p.s".toList, rfl, (emailOfToken_ok_iff _ _).mp ⟨some "a@b".toList, rfl⟩⟩
  · obtain ⟨rfl, rfl⟩ := Prod.mk.inj (Except.ok.inj (hresolve.symm.trans h))
    obtain rfl := Option.some.inj howner
    exact hwritable

/-- An error of the transport is answered with no page, and the state is gone. -/
theorem transport_error_without_page :
    (externalOauthCallback silentCallback consented).response =
        .raised (.tokenError .httpError) ∧
      (externalOauthCallback silentCallback consented).states "oauth_state:s".toList = none ∧
      ¬ ∀ w q, w.allowed = true → w.enabled = true → AllOrNothing w q := by
  have hraised : (externalOauthCallback silentCallback consented).response =
      .raised (.tokenError .httpError) := by decide
  refine ⟨hraised, by decide, fun h => ?_⟩
  rcases h silentCallback consented rfl rfl with ⟨crmNotified, hpage, -⟩ | ⟨hpage, -⟩
  · rw [hraised] at hpage
    cases hpage
  · rw [hraised] at hpage
    cases hpage

end OutlookOAuthService

end MailAggregator
