import MailAggregator.OAuth.TokenClient

set_option relaxedAutoImplicit false
set_option autoImplicit false

/-!
# A valid access token

One call of `get_valid_access_token`, as a function of what it meets: the lock, the rows it reads
again and the reply of the token endpoint. How calls interleave, and what they write to the row, is
the subject of the refresh system; here it is what the caller gets.

## Main definitions

* `MailAggregator.TokenWorld` — what a call meets.
* `MailAggregator.OutlookTokenService.doRefresh`
* `MailAggregator.OutlookTokenService.getValidAccessToken`
* `MailAggregator.OutlookTokenService.Obtains` — the ways to a token.
* `MailAggregator.OutlookTokenService.Raises` — the ways to an exception other than the one that
  says that consent is needed.

## Main results

* `MailAggregator.OutlookTokenService.doRefresh_ok_iff` — when a refresh gives a token.
* `MailAggregator.OutlookTokenService.getValidAccessToken_ok_iff` — a call returns a token exactly
  when one of the ways leads to it.
* `MailAggregator.OutlookTokenService.getValidAccessToken_of_fresh` — a fresh cached token needs
  nothing else.
* `MailAggregator.OutlookTokenService.fails_getValidAccessToken_iff` — what else a call raises.
-/

namespace MailAggregator

open PyText TokenClient

/-- How the refresh lock is taken: it is, and the row is read again, or it is not, and the row is
polled until the deadline. Rows come with the time at which they are looked at. -/
inductive LockEnd where
  | acquired (seenAt : Instant) (latest : Option MailAccount)
  | notAcquired (polled : List (Instant × Option MailAccount))

/-- What a call of `get_valid_access_token` meets. -/
structure TokenWorld where
  now : Instant
  lock : LockEnd
  endpoint : TokenRequest → HttpEnd
  /-- The time at which the reply of the endpoint is there. -/
  answeredAt : Instant
  repr : Json → Text

namespace OutlookTokenService

/-- A time that a `datetime` can hold. -/
def FitsDatetime (t : Instant) : Prop :=
  -62135596800000000 ≤ t ∧ t ≤ 253402300799999999

instance (t : Instant) : Decidable (FitsDatetime t) := inferInstanceAs (Decidable (_ ∧ _))

/-- The expiry of a token that is valid for some seconds from now. -/
def expiresAt (now : Instant) (expiresIn : ℤ) : Instant := now + expiresIn * 1000000

/-- A refresh token that can be encrypted: none, or a text. -/
def Encryptable (refreshToken : Json) : Prop :=
  refreshToken.Truthy → ∃ text, refreshToken = .str text

/-- A scope that can be written to the column: none, or a text without U+0000. -/
def StorableScope : Json → Prop
  | .null => True
  | .str text => '\x00' ∉ text
  | _ => False

instance : DecidablePred Encryptable
  | .str text => .isTrue fun _ => ⟨text, rfl⟩
  | .null => .isTrue fun h => h.elim
  | .bool b => decidable_of_iff (¬ (Json.bool b).Truthy) (by simp [Encryptable])
  | .int n => decidable_of_iff (¬ (Json.int n).Truthy) (by simp [Encryptable])
  | .float q => decidable_of_iff (¬ (Json.float q).Truthy) (by simp [Encryptable])
  | .nan => decidable_of_iff (¬ Json.nan.Truthy) (by simp [Encryptable])
  | .surrogates l => decidable_of_iff (¬ (Json.surrogates l).Truthy) (by simp [Encryptable])
  | .arr l => decidable_of_iff (¬ (Json.arr l).Truthy) (by simp [Encryptable])
  | .obj l => decidable_of_iff (¬ (Json.obj l).Truthy) (by simp [Encryptable])

instance : DecidablePred StorableScope
  | .null => .isTrue trivial
  | .str text => inferInstanceAs (Decidable ('\x00' ∉ text))
  | .bool _ | .int _ | .float _ | .nan | .surrogates _ | .arr _ | .obj _ => .isFalse id

/-- What the cipher raises on a refresh token that it does not take: a string with a lone surrogate
cannot be encoded, and any other value is no string. -/
def encryptError : Json → TokenError
  | .surrogates _ => .valueError
  | _ => .typeError

/-- What becomes of a token response: the tokens are encrypted and written to the row. -/
def persistTokens (now : Instant) (tokens : TokenPayload) : Except TokenError Text :=
  if ¬ FitsDatetime (expiresAt now tokens.expiresIn) then .error .overflowError
  else if tokens.encodable = false then .error .valueError
  else if ¬ Encryptable tokens.refreshToken then .error (encryptError tokens.refreshToken)
  else if ¬ StorableScope tokens.scope then .error .dbError
  else .ok tokens.accessToken

/-- `_do_refresh`. -/
def doRefresh (w : TokenWorld) (a : MailAccount) : Except TokenError Text :=
  match a.oauthRefreshTokenEncrypted with
  | none => .error .assertionError
  | some blob =>
    match decryptMailPassword blob a.id with
    | none => .error .invalidTag
    | some refreshToken =>
      match post w.repr (w.endpoint (.refreshToken refreshToken)) with
      | .error e => .error e
      | .ok tokens => persistTokens w.answeredAt tokens

/-- `_await_refreshed_token`: `none` when the deadline passes. -/
def awaitRefreshedToken : List (Instant × Option MailAccount) → Option (Except TokenError Text)
  | [] => none
  | (_, none) :: polled => awaitRefreshedToken polled
  | (seenAt, some row) :: polled =>
    if row.oauthNeedsConsent then some (.error .oauthRefreshInvalidError)
    else
      match cachedAccessToken seenAt row with
      | .fresh token => some (.ok token)
      | .invalidTag => some (.error .invalidTag)
      | .stale => awaitRefreshedToken polled

/-- The look at the row under the lock. -/
def refreshLocked (w : TokenWorld) (a : MailAccount) (seenAt : Instant) :
    Option MailAccount → Except TokenError Text
  | none => doRefresh w a
  | some latest =>
    if latest.oauthNeedsConsent then .error .oauthRefreshInvalidError
    else
      match cachedAccessToken seenAt latest with
      | .fresh token => .ok token
      | .invalidTag => .error .invalidTag
      | .stale => doRefresh w latest

/-- `get_valid_access_token`. -/
def getValidAccessToken (w : TokenWorld) (a : MailAccount) : Except TokenError Text :=
  if a.authType ≠ .oauthOutlook then .error .valueError
  else
    match cachedAccessToken w.now a with
    | .fresh token => .ok token
    | .invalidTag => .error .invalidTag
    | .stale =>
      if a.oauthRefreshTokenEncrypted = none then .error .oauthRefreshInvalidError
      else
        match w.lock with
        | .acquired seenAt latest => refreshLocked w a seenAt latest
        | .notAcquired polled => (awaitRefreshedToken polled).getD (doRefresh w a)

/-- **A usable token response can be kept**: its expiry fits, its access token can be encoded, its
refresh token is a text if there is one, and its scope can be stored. -/
def Persistable (now : Instant) (tokens : TokenPayload) : Prop :=
  FitsDatetime (expiresAt now tokens.expiresIn) ∧ tokens.encodable = true ∧
    Encryptable tokens.refreshToken ∧ StorableScope tokens.scope

theorem persistTokens_ok_iff (now : Instant) (tokens : TokenPayload) (token : Text) :
    persistTokens now tokens = .ok token ↔ Persistable now tokens ∧ tokens.accessToken = token := by
  rw [persistTokens, Persistable]
  by_cases hfits : FitsDatetime (expiresAt now tokens.expiresIn)
  · by_cases hencodable : tokens.encodable = true
    · by_cases henc : Encryptable tokens.refreshToken
      · by_cases hscope : StorableScope tokens.scope
        · simp [hfits, hencodable, henc, hscope]
        · simp [hfits, hencodable, henc, hscope]
      · simp [hfits, hencodable, henc]
    · simp [hfits, hencodable]
  · simp [hfits]

/-- The row holds a refresh token that opens, and the endpoint gives a token response that can be
kept. -/
def Refreshes (w : TokenWorld) (a : MailAccount) (token : Text) : Prop :=
  ∃ refreshToken tokens, storedRefreshToken a = some refreshToken ∧
    post w.repr (w.endpoint (.refreshToken refreshToken)) = .ok tokens ∧
    Persistable w.answeredAt tokens ∧ tokens.accessToken = token

/-- **When a refresh gives a token.** -/
theorem doRefresh_ok_iff (w : TokenWorld) (a : MailAccount) (token : Text) :
    doRefresh w a = .ok token ↔ Refreshes w a token := by
  rw [doRefresh, Refreshes, storedRefreshToken]
  cases hblob : a.oauthRefreshTokenEncrypted with
  | none => simp
  | some blob =>
    cases hopen : decryptMailPassword blob a.id with
    | none => simp [hopen]
    | some refreshToken =>
      cases hpost : post w.repr (w.endpoint (.refreshToken refreshToken)) with
      | error e => simp [hopen, hpost]
      | ok tokens => simp [hopen, hpost, persistTokens_ok_iff]

/-- A row at which the waiting ends: it needs consent, or its token is not stale. -/
def Decisive (polled : Instant × Option MailAccount) : Prop :=
  ∃ row ∈ polled.2, row.oauthNeedsConsent = true ∨ cachedAccessToken polled.1 row ≠ .stale

/-- A row that holds a fresh token and needs no consent. -/
def Serves (seenAt : Instant) (row : MailAccount) (token : Text) : Prop :=
  row.oauthNeedsConsent = false ∧ cachedAccessToken seenAt row = .fresh token

/-- A row whose token is stale and that needs no consent. -/
def Waits (seenAt : Instant) (row : MailAccount) : Prop :=
  row.oauthNeedsConsent = false ∧ cachedAccessToken seenAt row = .stale

/-- **The ways to a token**: the row that the caller holds has a fresh one; or it is stale and has
a refresh token, and the row as it is now has a fresh token or one can be fetched. -/
inductive Obtains (w : TokenWorld) (a : MailAccount) (token : Text) : Prop
  | cached (hfresh : cachedAccessToken w.now a = .fresh token)
  | seen (hstale : cachedAccessToken w.now a = .stale)
      (hrefresh : a.oauthRefreshTokenEncrypted ≠ none) {seenAt : Instant} {row : MailAccount}
      (hlock : w.lock = .acquired seenAt (some row)) (hserves : Serves seenAt row token)
  | latest (hstale : cachedAccessToken w.now a = .stale)
      (hrefresh : a.oauthRefreshTokenEncrypted ≠ none) {seenAt : Instant} {row : MailAccount}
      (hlock : w.lock = .acquired seenAt (some row)) (hwaits : Waits seenAt row)
      (hfetched : Refreshes w row token)
  | own (hstale : cachedAccessToken w.now a = .stale)
      (hrefresh : a.oauthRefreshTokenEncrypted ≠ none) {seenAt : Instant}
      (hlock : w.lock = .acquired seenAt none) (hfetched : Refreshes w a token)
  | awaited (hstale : cachedAccessToken w.now a = .stale)
      (hrefresh : a.oauthRefreshTokenEncrypted ≠ none)
      {early late : List (Instant × Option MailAccount)} {seenAt : Instant} {row : MailAccount}
      (hlock : w.lock = .notAcquired (early ++ (seenAt, some row) :: late))
      (hearly : ∀ polled ∈ early, ¬ Decisive polled) (hserves : Serves seenAt row token)
  | overdue (hstale : cachedAccessToken w.now a = .stale)
      (hrefresh : a.oauthRefreshTokenEncrypted ≠ none)
      {rows : List (Instant × Option MailAccount)} (hlock : w.lock = .notAcquired rows)
      (hnone : ∀ polled ∈ rows, ¬ Decisive polled) (hfetched : Refreshes w a token)

/-- What a polled row decides, if it does. -/
def decision (polled : Instant × Option MailAccount) : Option (Except TokenError Text) :=
  polled.2.bind fun row =>
    if row.oauthNeedsConsent then some (.error .oauthRefreshInvalidError)
    else
      match cachedAccessToken polled.1 row with
      | .fresh token => some (.ok token)
      | .invalidTag => some (.error .invalidTag)
      | .stale => none

/-- The first row that decides ends the waiting. -/
theorem awaitRefreshedToken_eq_findSome (rows : List (Instant × Option MailAccount)) :
    awaitRefreshedToken rows = rows.findSome? decision := by
  induction rows with
  | nil => rfl
  | cons polled rows ih =>
    obtain ⟨seenAt, _ | row⟩ := polled
    · rw [awaitRefreshedToken, ih]
      rfl
    · rw [awaitRefreshedToken, List.findSome?_cons, ← ih, decision, Option.bind_some]
      by_cases hconsent : row.oauthNeedsConsent = true
      · simp only [hconsent, if_true]
      · cases hcached : cachedAccessToken seenAt row <;> simp [hconsent]

/-- A row that holds a token which does not decrypt, and that needs no consent. -/
def Broken (seenAt : Instant) (row : MailAccount) : Prop :=
  row.oauthNeedsConsent = false ∧ cachedAccessToken seenAt row = .invalidTag

theorem decision_eq_none_iff (polled : Instant × Option MailAccount) :
    decision polled = none ↔ ¬ Decisive polled := by
  obtain ⟨seenAt, _ | row⟩ := polled
  · simp [decision, Decisive]
  · by_cases hconsent : row.oauthNeedsConsent = true
    · simp [decision, Decisive, hconsent]
    · cases hcached : cachedAccessToken seenAt row <;>
        simp [decision, Decisive, hconsent, hcached]

theorem decision_eq_ok_iff (polled : Instant × Option MailAccount) (token : Text) :
    decision polled = some (.ok token) ↔
      ∃ row, polled.2 = some row ∧ Serves polled.1 row token := by
  obtain ⟨seenAt, _ | row⟩ := polled
  · simp [decision]
  · by_cases hconsent : row.oauthNeedsConsent = true
    · simp [decision, Serves, hconsent]
    · cases hcached : cachedAccessToken seenAt row <;> simp [decision, Serves, hconsent, hcached]

theorem decision_eq_error_iff (polled : Instant × Option MailAccount) {e : TokenError}
    (he : e ≠ .oauthRefreshInvalidError) :
    decision polled = some (.error e) ↔
      e = .invalidTag ∧ ∃ row, polled.2 = some row ∧ Broken polled.1 row := by
  obtain ⟨seenAt, _ | row⟩ := polled
  · simp [decision]
  · by_cases hconsent : row.oauthNeedsConsent = true
    · simp [decision, Broken, hconsent, he.symm]
    · cases hcached : cachedAccessToken seenAt row with
      | stale => simp [decision, Broken, hconsent, hcached]
      | fresh token => simp [decision, Broken, hconsent, hcached]
      | invalidTag =>
        have hbroken : Broken seenAt row := ⟨by simpa using hconsent, hcached⟩
        simp only [decision, Option.bind_some, hconsent, hcached]
        constructor
        · rintro ⟨⟩
          exact ⟨rfl, row, rfl, hbroken⟩
        · rintro ⟨rfl, -⟩
          rfl

/-- The waiting runs into the deadline exactly when no row is decisive. -/
theorem awaitRefreshedToken_eq_none_iff (rows : List (Instant × Option MailAccount)) :
    awaitRefreshedToken rows = none ↔ ∀ polled ∈ rows, ¬ Decisive polled := by
  simp only [awaitRefreshedToken_eq_findSome, List.findSome?_eq_none_iff, decision_eq_none_iff]

/-- The waiting gives a token exactly when the first decisive row serves it. -/
theorem awaitRefreshedToken_eq_ok_iff (rows : List (Instant × Option MailAccount))
    (token : Text) :
    awaitRefreshedToken rows = some (.ok token) ↔
      ∃ early late seenAt row, rows = early ++ (seenAt, some row) :: late ∧
        (∀ polled ∈ early, ¬ Decisive polled) ∧ Serves seenAt row token := by
  rw [awaitRefreshedToken_eq_findSome, List.findSome?_eq_some_iff]
  simp only [decision_eq_ok_iff, decision_eq_none_iff]
  constructor
  · rintro ⟨early, ⟨seenAt, latest⟩, late, rfl, ⟨row, rfl, hserves⟩, hearly⟩
    exact ⟨early, late, seenAt, row, rfl, hearly, hserves⟩
  · rintro ⟨early, late, seenAt, row, rfl, hearly, hserves⟩
    exact ⟨early, (seenAt, some row), late, rfl, ⟨row, rfl, hserves⟩, hearly⟩

/-- The waiting raises something else than that consent is needed exactly when the first decisive
row is broken. -/
theorem awaitRefreshedToken_eq_error_iff (rows : List (Instant × Option MailAccount))
    {e : TokenError} (he : e ≠ .oauthRefreshInvalidError) :
    awaitRefreshedToken rows = some (.error e) ↔
      e = .invalidTag ∧ ∃ early late seenAt row, rows = early ++ (seenAt, some row) :: late ∧
        (∀ polled ∈ early, ¬ Decisive polled) ∧ Broken seenAt row := by
  rw [awaitRefreshedToken_eq_findSome, List.findSome?_eq_some_iff]
  simp only [decision_eq_error_iff _ he, decision_eq_none_iff]
  constructor
  · rintro ⟨early, ⟨seenAt, latest⟩, late, rfl, ⟨rfl, row, rfl, hbroken⟩, hearly⟩
    exact ⟨rfl, early, late, seenAt, row, rfl, hearly, hbroken⟩
  · rintro ⟨rfl, early, late, seenAt, row, rfl, hearly, hbroken⟩
    exact ⟨early, (seenAt, some row), late, rfl, ⟨rfl, row, rfl, hbroken⟩, hearly⟩

/-- Under the lock, a token is given if the row that is seen serves one, or else one is fetched. -/
theorem refreshLocked_some_ok_iff (w : TokenWorld) (a row : MailAccount) (seenAt : Instant)
    (token : Text) :
    refreshLocked w a seenAt (some row) = .ok token ↔
      Serves seenAt row token ∨ Waits seenAt row ∧ Refreshes w row token := by
  rw [refreshLocked, Serves, Waits, ← doRefresh_ok_iff]
  by_cases hconsent : row.oauthNeedsConsent = true
  · simp [hconsent]
  · cases hcached : cachedAccessToken seenAt row <;> simp [hconsent]

/-- **A call returns a token exactly when one of the ways leads to it.**

**Proof sketch.** From left to right along the branches of the function: the cached token, the lock,
the row that is read under it or while waiting, and at last the refresh. Each branch that returns a
token is one constructor of the ways, and each other branch raises. From right to left each way
fixes the tests of its branch. -/
theorem getValidAccessToken_ok_iff {w : TokenWorld} {a : MailAccount}
    (hauth : a.authType = .oauthOutlook) (token : Text) :
    getValidAccessToken w a = .ok token ↔ Obtains w a token := by
  rw [getValidAccessToken, if_neg (not_not_intro hauth)]
  constructor
  · intro h
    cases hcached : cachedAccessToken w.now a with
    | fresh cached => rw [hcached] at h; cases h; exact .cached hcached
    | invalidTag => rw [hcached] at h; cases h
    | stale =>
      by_cases hrefresh : a.oauthRefreshTokenEncrypted = none
      · simp only [hcached, if_pos hrefresh] at h
        cases h
      · simp only [hcached, if_neg hrefresh] at h
        cases hlock : w.lock with
        | acquired seenAt latest =>
          rw [hlock] at h
          cases latest with
          | none => exact .own hcached hrefresh hlock ((doRefresh_ok_iff w a token).mp h)
          | some row =>
            rcases (refreshLocked_some_ok_iff w a row seenAt token).mp h with hserves | ⟨hwaits, hr⟩
            · exact .seen hcached hrefresh hlock hserves
            · exact .latest hcached hrefresh hlock hwaits hr
        | notAcquired rows =>
          rw [hlock] at h
          cases hawait : awaitRefreshedToken rows with
          | none =>
            simp only [hawait, Option.getD_none] at h
            exact .overdue hcached hrefresh hlock
              ((awaitRefreshedToken_eq_none_iff rows).mp hawait) ((doRefresh_ok_iff w a token).mp h)
          | some result =>
            simp only [hawait, Option.getD_some] at h
            subst h
            obtain ⟨early, late, seenAt, row, rfl, hearly, hserves⟩ :=
              (awaitRefreshedToken_eq_ok_iff rows token).mp hawait
            exact .awaited hcached hrefresh hlock hearly hserves
  · intro h
    cases h with
    | cached hfresh => rw [hfresh]
    | seen hstale hrefresh hlock hserves =>
      simp only [hstale, if_neg hrefresh, hlock]
      exact (refreshLocked_some_ok_iff w a _ _ token).mpr (Or.inl hserves)
    | latest hstale hrefresh hlock hwaits hfetched =>
      simp only [hstale, if_neg hrefresh, hlock]
      exact (refreshLocked_some_ok_iff w a _ _ token).mpr (Or.inr ⟨hwaits, hfetched⟩)
    | own hstale hrefresh hlock hfetched =>
      simp only [hstale, if_neg hrefresh, hlock]
      exact (doRefresh_ok_iff w a token).mpr hfetched
    | awaited hstale hrefresh hlock hearly hserves =>
      simp only [hstale, if_neg hrefresh, hlock]
      rw [(awaitRefreshedToken_eq_ok_iff _ token).mpr ⟨_, _, _, _, rfl, hearly, hserves⟩]
      rfl
    | overdue hstale hrefresh hlock hnone hfetched =>
      simp only [hstale, if_neg hrefresh, hlock]
      rw [(awaitRefreshedToken_eq_none_iff _).mpr hnone]
      exact (doRefresh_ok_iff w a token).mpr hfetched

/-- A fresh cached token is served. -/
theorem getValidAccessToken_of_fresh {w : TokenWorld} {a : MailAccount} {token : Text}
    (hauth : a.authType = .oauthOutlook) (hfresh : cachedAccessToken w.now a = .fresh token) :
    getValidAccessToken w a = .ok token := by
  rw [getValidAccessToken, if_neg (not_not_intro hauth), hfresh]

/-! ## What gets out of a call -/

/-- A reply that raises something else than that consent is needed: none, one with another status
whose body is nested too deep or has another error than `invalid_grant`, or a token response that is
not usable or cannot be kept. -/
def ReplyRaises (repr : Json → Text) (now : Instant) : HttpEnd → Prop
  | .transportError => True
  | .response status body =>
    if status = 200 then ∀ tokens, readBody repr body = .ok tokens → ¬ Persistable now tokens
    else safeTokenError repr body ≠ .ok "invalid_grant".toList

/-- The row holds no refresh token that opens, or the reply of the endpoint raises. -/
def RefreshRaises (w : TokenWorld) (a : MailAccount) : Prop :=
  ∀ refreshToken, storedRefreshToken a = some refreshToken →
    ReplyRaises w.repr w.answeredAt (w.endpoint (.refreshToken refreshToken))

/-- A result is an exception other than the one that says that consent is needed. -/
def Fails (result : Except TokenError Text) : Prop :=
  ∃ e, result = .error e ∧ e ≠ .oauthRefreshInvalidError

@[simp] theorem not_fails_ok (token : Text) : ¬ Fails (.ok token) := by
  rintro ⟨e, he, -⟩
  cases he

@[simp] theorem fails_error_iff (e : TokenError) :
    Fails (.error e) ↔ e ≠ .oauthRefreshInvalidError := by
  simp [Fails]

theorem encryptError_ne (refreshToken : Json) :
    encryptError refreshToken ≠ .oauthRefreshInvalidError := by
  cases refreshToken with
  | surrogates units => exact fun h => by cases h
  | _ => exact fun h => by cases h

/-- What becomes of a token response is a token, or fails. -/
theorem fails_persistTokens_iff (now : Instant) (tokens : TokenPayload) :
    Fails (persistTokens now tokens) ↔ ¬ Persistable now tokens := by
  cases hpersist : persistTokens now tokens with
  | ok token =>
    have hkept := ((persistTokens_ok_iff now tokens token).mp hpersist).1
    exact iff_of_false (not_fails_ok token) (not_not_intro hkept)
  | error e =>
    have hnot : ¬ Persistable now tokens := by
      intro hkept
      rw [(persistTokens_ok_iff now tokens _).mpr ⟨hkept, rfl⟩] at hpersist
      cases hpersist
    refine iff_of_true ⟨e, rfl, ?_⟩ hnot
    rintro rfl
    rw [persistTokens] at hpersist
    split_ifs at hpersist
    · cases hpersist
    · cases hpersist
    · exact encryptError_ne _ (Except.error.inj hpersist)
    · cases hpersist

/-- **When a reply fails a refresh.** -/
theorem fails_post_iff (repr : Json → Text) (now : Instant) (reply : HttpEnd) :
    Fails (post repr reply >>= persistTokens now) ↔ ReplyRaises repr now reply := by
  cases reply with
  | transportError => simp [post, ReplyRaises, bind, Except.bind]
  | response status body =>
    by_cases hstatus : status = 200
    · simp only [post, ReplyRaises, if_pos hstatus]
      cases hbody : readBody repr body with
      | error e =>
        have he : e ≠ .oauthRefreshInvalidError := by
          rintro rfl
          simpa [IsConversionError] using isConversionError_of_readBody hbody
        simp [bind, Except.bind, he]
      | ok tokens => simp [bind, Except.bind, fails_persistTokens_iff]
    · simp only [post, ReplyRaises, if_neg hstatus, bind, Except.bind, fails_error_iff, ne_eq,
        statusError_eq_refreshInvalid_iff]

/-- **When a refresh fails.** -/
theorem fails_doRefresh_iff (w : TokenWorld) (a : MailAccount) :
    Fails (doRefresh w a) ↔ RefreshRaises w a := by
  rw [doRefresh, RefreshRaises, storedRefreshToken]
  cases hblob : a.oauthRefreshTokenEncrypted with
  | none => simp
  | some blob =>
    cases hopen : decryptMailPassword blob a.id with
    | none => simp [hopen]
    | some refreshToken =>
      simp only [hopen, Option.bind_some, Option.some.injEq, forall_eq', ← fails_post_iff]
      cases hpost : post w.repr (w.endpoint (.refreshToken refreshToken)) <;> rfl

/-- **The ways to an exception other than that consent is needed**: the row that the caller holds
has a broken token; or it is stale and has a refresh token, and the row as it is now is broken or
the refresh raises. -/
inductive Raises (w : TokenWorld) (a : MailAccount) : Prop
  | cached (hbroken : cachedAccessToken w.now a = .invalidTag)
  | seen (hstale : cachedAccessToken w.now a = .stale)
      (hrefresh : a.oauthRefreshTokenEncrypted ≠ none) {seenAt : Instant} {row : MailAccount}
      (hlock : w.lock = .acquired seenAt (some row)) (hbroken : Broken seenAt row)
  | latest (hstale : cachedAccessToken w.now a = .stale)
      (hrefresh : a.oauthRefreshTokenEncrypted ≠ none) {seenAt : Instant} {row : MailAccount}
      (hlock : w.lock = .acquired seenAt (some row)) (hwaits : Waits seenAt row)
      (hraises : RefreshRaises w row)
  | own (hstale : cachedAccessToken w.now a = .stale)
      (hrefresh : a.oauthRefreshTokenEncrypted ≠ none) {seenAt : Instant}
      (hlock : w.lock = .acquired seenAt none) (hraises : RefreshRaises w a)
  | awaited (hstale : cachedAccessToken w.now a = .stale)
      (hrefresh : a.oauthRefreshTokenEncrypted ≠ none)
      {early late : List (Instant × Option MailAccount)} {seenAt : Instant} {row : MailAccount}
      (hlock : w.lock = .notAcquired (early ++ (seenAt, some row) :: late))
      (hearly : ∀ polled ∈ early, ¬ Decisive polled) (hbroken : Broken seenAt row)
  | overdue (hstale : cachedAccessToken w.now a = .stale)
      (hrefresh : a.oauthRefreshTokenEncrypted ≠ none)
      {rows : List (Instant × Option MailAccount)} (hlock : w.lock = .notAcquired rows)
      (hnone : ∀ polled ∈ rows, ¬ Decisive polled) (hraises : RefreshRaises w a)

/-- Under the lock, a call fails if the row that is seen is broken, or else if the refresh does. -/
theorem fails_refreshLocked_iff (w : TokenWorld) (a row : MailAccount) (seenAt : Instant) :
    Fails (refreshLocked w a seenAt (some row)) ↔
      Broken seenAt row ∨ Waits seenAt row ∧ RefreshRaises w row := by
  rw [refreshLocked, Broken, Waits, ← fails_doRefresh_iff]
  by_cases hconsent : row.oauthNeedsConsent = true
  · simp [hconsent]
  · cases hcached : cachedAccessToken seenAt row <;> simp [hconsent]

/-- **A call raises something else than that consent is needed exactly when one of the ways leads to
it.**

**Proof sketch.** As for the tokens, along the branches of the function. A branch that returns a
token does not fail, one that finds that consent is needed does not count, and each of the remaining
ones is one constructor of the ways to an error. -/
theorem fails_getValidAccessToken_iff {w : TokenWorld} {a : MailAccount}
    (hauth : a.authType = .oauthOutlook) : Fails (getValidAccessToken w a) ↔ Raises w a := by
  rw [getValidAccessToken, if_neg (not_not_intro hauth)]
  constructor
  · intro h
    cases hcached : cachedAccessToken w.now a with
    | fresh cached =>
      rw [hcached] at h
      exact absurd h (not_fails_ok cached)
    | invalidTag => exact .cached hcached
    | stale =>
      simp only [hcached] at h
      by_cases hrefresh : a.oauthRefreshTokenEncrypted = none
      · rw [if_pos hrefresh, fails_error_iff] at h
        exact absurd rfl h
      · rw [if_neg hrefresh] at h
        cases hlock : w.lock with
        | acquired seenAt latest =>
          rw [hlock] at h
          cases latest with
          | none => exact .own hcached hrefresh hlock ((fails_doRefresh_iff w a).mp h)
          | some row =>
            rcases (fails_refreshLocked_iff w a row seenAt).mp h with hbroken | ⟨hwaits, hraises⟩
            · exact .seen hcached hrefresh hlock hbroken
            · exact .latest hcached hrefresh hlock hwaits hraises
        | notAcquired rows =>
          simp only [hlock] at h
          cases hawait : awaitRefreshedToken rows with
          | none =>
            rw [hawait, Option.getD_none] at h
            exact .overdue hcached hrefresh hlock
              ((awaitRefreshedToken_eq_none_iff rows).mp hawait) ((fails_doRefresh_iff w a).mp h)
          | some result =>
            rw [hawait, Option.getD_some] at h
            obtain ⟨e, rfl, he⟩ := h
            obtain ⟨-, early, late, seenAt, row, rfl, hearly, hbroken⟩ :=
              (awaitRefreshedToken_eq_error_iff rows he).mp hawait
            exact .awaited hcached hrefresh hlock hearly hbroken
  · intro h
    cases h with
    | cached hbroken =>
      rw [hbroken]
      exact (fails_error_iff _).mpr fun h => by cases h
    | seen hstale hrefresh hlock hbroken =>
      simp only [hstale, if_neg hrefresh, hlock]
      exact (fails_refreshLocked_iff w a _ _).mpr (Or.inl hbroken)
    | latest hstale hrefresh hlock hwaits hraises =>
      simp only [hstale, if_neg hrefresh, hlock]
      exact (fails_refreshLocked_iff w a _ _).mpr (Or.inr ⟨hwaits, hraises⟩)
    | own hstale hrefresh hlock hraises =>
      simp only [hstale, if_neg hrefresh, hlock]
      exact (fails_doRefresh_iff w a).mpr hraises
    | awaited hstale hrefresh hlock hearly hbroken =>
      simp only [hstale, if_neg hrefresh, hlock]
      have hraised : TokenError.invalidTag ≠ .oauthRefreshInvalidError := fun h => by cases h
      rw [(awaitRefreshedToken_eq_error_iff _ hraised).mpr
        ⟨rfl, _, _, _, _, rfl, hearly, hbroken⟩]
      exact (fails_error_iff _).mpr hraised
    | overdue hstale hrefresh hlock hnone hraises =>
      simp only [hstale, if_neg hrefresh, hlock]
      rw [(awaitRefreshedToken_eq_none_iff _).mpr hnone]
      exact (fails_doRefresh_iff w a).mpr hraises

end OutlookTokenService

end MailAggregator
