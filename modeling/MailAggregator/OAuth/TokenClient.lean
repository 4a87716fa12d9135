import MailAggregator.OAuth.TokenService
import Mathlib.Data.Rat.Floor

set_option relaxedAutoImplicit false
set_option autoImplicit false

/-!
# The token client

`_TokenClient` posts a grant to the token endpoint and reads the reply. A reply with status 200 is
decoded as JSON and its fields are converted; what the conversion raises is not caught. The body of
any other reply is decoded as well, for its error, and there only `ValueError` is caught: a body
that is nested too deep raises `RecursionError`, which gets out.

## Main definitions

* `MailAggregator.Json` — a value that `json.loads` gives.
* `MailAggregator.JsonEnd` — how `json.loads` ends.
* `MailAggregator.HttpEnd` — how a request to the endpoint ends.
* `MailAggregator.TokenClient.toInt` — `int` of such a value.
* `MailAggregator.TokenClient.post` — `_TokenClient._post`.
* `MailAggregator.TokenClient.Usable` — the replies that `_post` makes a token response of.
* `MailAggregator.TokenClient.decodeEmailFromIdToken`.

## Main results

* `MailAggregator.TokenClient.post_ok_iff` — `_post` returns exactly on a usable reply.
* `MailAggregator.TokenClient.post_error_cases` — what `_post` raises, by how the request ended.
-/

namespace MailAggregator

open PyText

/-- A JSON value, as `json.loads` gives it. A float is its exact value; `none` is an infinity. A
string with an escaped lone surrogate is no text: `none` stands in the place of each of them. -/
inductive Json where
  | null
  | bool (b : Bool)
  | int (n : ℤ)
  | float (value : Option ℚ)
  | nan
  | str (text : Text)
  | surrogates (units : List (Option Char))
  | arr (items : List Json)
  | obj (fields : List (Text × Json))

namespace Json

/-- `bool(value)`. -/
def Truthy : Json → Prop
  | null => False
  | bool b => b = true
  | int n => n ≠ 0
  | float value => value ≠ some 0
  | nan => True
  | str text => text ≠ []
  | surrogates units => units ≠ []
  | arr items => items ≠ []
  | obj fields => fields ≠ []

instance : DecidablePred Truthy
  | null => inferInstanceAs (Decidable False)
  | bool b => inferInstanceAs (Decidable (b = true))
  | int n => inferInstanceAs (Decidable (n ≠ 0))
  | float value => inferInstanceAs (Decidable (value ≠ some 0))
  | nan => inferInstanceAs (Decidable True)
  | str text => inferInstanceAs (Decidable (text ≠ []))
  | surrogates units => inferInstanceAs (Decidable (units ≠ []))
  | arr [] => .isFalse fun h => h rfl
  | arr (_ :: _) => .isTrue (List.cons_ne_nil _ _)
  | obj [] => .isFalse fun h => h rfl
  | obj (_ :: _) => .isTrue (List.cons_ne_nil _ _)

/-- The value of a key: the last one counts. -/
def get (fields : List (Text × Json)) (key : Text) : Option Json :=
  (fields.reverse.find? fun field => field.1 = key).map Prod.snd

/-- A value whose text `str.encode` takes: any but a string with a lone surrogate. -/
def encodable : Json → Bool
  | surrogates _ => false
  | _ => true

/-- The text of a string, with the replacement character for each lone surrogate. -/
def string : Json → Option Text
  | str text => some text
  | surrogates units => some (units.map fun c => c.getD '\uFFFD')
  | _ => none

/-- `str(value)`, with the texts that Python writes for what is no string. -/
def toStr (repr : Json → Text) (value : Json) : Text := value.string.getD (repr value)

end Json

/-- How `json.loads` ends: with a value; with `ValueError`, of what is no JSON; or with
`RecursionError`, of what is nested too deep. -/
inductive JsonEnd where
  | value (json : Json)
  | valueError
  | recursionError

/-- How a request to the token endpoint ends. Of the body of a reply there is how it is decoded. -/
inductive HttpEnd where
  /-- `httpx.HTTPError`: no connection, a broken one, or a timeout. -/
  | transportError
  | response (status : ℕ) (body : JsonEnd)

/-- What the token client and its callers raise. -/
inductive TokenError where
  | oauthError (code : Text)
  | oauthRefreshInvalidError
  | httpError
  | valueError
  | keyError
  | typeError
  | overflowError
  | attributeError
  | recursionError
  | invalidTag
  | assertionError
  | dbError
  deriving DecidableEq, Repr

/-- `_TokenResponse`: three fields are passed on as the reply has them. -/
structure TokenPayload where
  accessToken : Text
  /-- The access token has no lone surrogate, so that it can be encrypted. -/
  encodable : Bool
  refreshToken : Json
  expiresIn : ℤ
  scope : Json
  idToken : Json

/-- A grant that is posted. -/
inductive TokenRequest where
  | authorizationCode (code codeVerifier : Text)
  | refreshToken (refreshToken : Text)
  deriving DecidableEq, Repr

namespace TokenClient

/-! ## `int` -/

/-- The zeros among the decimal digits of Unicode. The other nine digits follow each of them. -/
def decimalZeros : List ℕ :=
  [0x30, 0x660, 0x6F0, 0x7C0, 0x966, 0x9E6, 0xA66, 0xAE6, 0xB66, 0xBE6, 0xC66, 0xCE6, 0xD66, 0xDE6,
    0xE50, 0xED0, 0xF20, 0x1040, 0x1090, 0x17E0, 0x1810, 0x1946, 0x19D0, 0x1A80, 0x1A90, 0x1B50,
    0x1BB0, 0x1C40, 0x1C50, 0xA620, 0xA8D0, 0xA900, 0xA9D0, 0xA9F0, 0xAA50, 0xABF0, 0xFF10, 0x104A0,
    0x10D30, 0x11066, 0x110F0, 0x11136, 0x111D0, 0x112F0, 0x11450, 0x114D0, 0x11650, 0x116C0,
    0x11730, 0x118E0, 0x11950, 0x11C50, 0x11D50, 0x11DA0, 0x11F50, 0x16A60, 0x16AC0, 0x16B50,
    0x1D7CE, 0x1D7D8, 0x1D7E2, 0x1D7EC, 0x1D7F6, 0x1E140, 0x1E2F0, 0x1E4F0, 0x1E950, 0x1FBF0]

/-- The value of a decimal digit of any script. -/
def decimal (c : Char) : Option ℕ :=
  (decimalZeros.find? fun z => z ≤ c.toNat ∧ c.toNat ≤ z + 9).map fun z => c.toNat - z

/-- A character as `int` reads it: behind ASCII, whitespace is a blank, a decimal digit is the ASCII
digit of its value, and any other character is none that a number can have. -/
def toAscii (c : Char) : Char :=
  if c.toNat < 0x7F then c
  else if isSpace c then ' '
  else
    match decimal c with
    | some d => Nat.digitChar d
    | none => '?'

/-- The whitespace of ASCII, without the four separators that `str.isspace` takes for whitespace. -/
def isAsciiSpace (c : Char) : Bool := c.toNat ∈ [0x09, 0x0A, 0x0B, 0x0C, 0x0D, 0x20]

/-- `sys.int_info.default_max_str_digits`. -/
def maxStrDigits : ℕ := 4300

/-- The digits of an integer literal, in which single underscores may stand between two digits. More
digits than the limit are refused, leading zeros included. -/
def parseDigits : Text → Option ℕ
  | [] => none
  | text =>
    if text.head? = some '_' ∨ text.getLast? = some '_' ∨ Contains "__".toList text ∨
        (text.any fun c => c ≠ '_' && !c.isDigit) ∨
        maxStrDigits < (text.filter (· ≠ '_')).length then none
    else some (Nat.ofDigitChars 10 (text.filter (· ≠ '_')) 0)

/-- `int(text)`; `none` is `ValueError`. -/
def parseInt (text : Text) : Option ℤ :=
  match ((text.map toAscii).dropWhile isAsciiSpace).rdropWhile isAsciiSpace with
  | '-' :: digits => (parseDigits digits).map fun n => -(n : ℤ)
  | '+' :: digits => (parseDigits digits).map fun n => (n : ℤ)
  | digits => (parseDigits digits).map fun n => (n : ℤ)

/-- Digits of any script are read, and an ASCII separator is no whitespace. -/
example : parseInt "\u00A0\uFF11\u0662".toList = some 12 ∧ parseInt "\x1C12".toList = none := by
  decide

/-- `int(value)`. A string with a lone surrogate is no number. -/
def toInt : Json → Except TokenError ℤ
  | .int n => .ok n
  | .bool b => .ok (if b then 1 else 0)
  | .float (some q) => .ok (q.num.tdiv q.den)
  | .float none => .error .overflowError
  | .nan => .error .valueError
  | .str text =>
    match parseInt text with
    | some n => .ok n
    | none => .error .valueError
  | .surrogates _ => .error .valueError
  | .null | .arr _ | .obj _ => .error .typeError

/-! ## The reply -/

/-- The `error` field of `_safe_token_error`. Of how the body is decoded, `ValueError` is caught and
`RecursionError` is not. -/
def safeTokenError (repr : Json → Text) : JsonEnd → Except TokenError Text
  | .valueError => .ok "non_json_error".toList
  | .recursionError => .error .recursionError
  | .value (.obj fields) =>
    match Json.get fields "error".toList with
    | some value => .ok (value.toStr repr)
    | none => .ok []
  | .value _ => .ok "unexpected_body".toList

/-- The fields of a reply with status 200. -/
def readFields (repr : Json → Text) (fields : List (Text × Json)) :
    Except TokenError TokenPayload :=
  match Json.get fields "access_token".toList with
  | none => .error .keyError
  | some accessToken =>
    match toInt ((Json.get fields "expires_in".toList).getD (.int 3600)) with
    | .error e => .error e
    | .ok expiresIn =>
      .ok
        { accessToken := accessToken.toStr repr
          encodable := accessToken.encodable
          refreshToken := (Json.get fields "refresh_token".toList).getD .null
          expiresIn
          scope := (Json.get fields "scope".toList).getD .null
          idToken := (Json.get fields "id_token".toList).getD .null }

/-- The body of a reply with status 200. -/
def readBody (repr : Json → Text) : JsonEnd → Except TokenError TokenPayload
  | .valueError => .error .valueError
  | .recursionError => .error .recursionError
  | .value (.obj fields) => readFields repr fields
  | .value _ => .error .typeError

/-- What a reply with another status raises. -/
def statusError (repr : Json → Text) (body : JsonEnd) : TokenError :=
  match safeTokenError repr body with
  | .error e => e
  | .ok code =>
    if code = "invalid_grant".toList then .oauthRefreshInvalidError
    else .oauthError "oauth_exchange_failed".toList

/-- `_post`, of how the request ended. -/
def post (repr : Json → Text) : HttpEnd → Except TokenError TokenPayload
  | .transportError => .error .httpError
  | .response status body => if status = 200 then readBody repr body else
    .error (statusError repr body)

/-- The claims that may hold the address. -/
def emailClaims : List Text :=
  ["email", "preferred_username", "upn", "unique_name"].map String.toList

/-- The address in a claim. A string with a lone surrogate is an address as well, which the database
refuses as it refuses U+0000; here it has U+0000 in the place of each surrogate. -/
def claimedEmail (fields : List (Text × Json)) (claim : Text) : Option Text :=
  match Json.get fields claim with
  | some (.str value) => if '@' ∈ value then some value else none
  | some (.surrogates units) =>
    if some '@' ∈ units then some (units.map fun c => c.getD '\x00') else none
  | _ => none

/-- The address in the claims of an identity token. Its middle part, padded and decoded from Base64
and then as JSON, is what `loads` gives. Only `ValueError` is caught. -/
def emailOfToken (loads : Text → JsonEnd) (token : Text) : Except TokenError (Option Text) :=
  match token.splitOn '.' with
  | [_, payload, _] =>
    match loads payload with
    | .value (.obj fields) => .ok (emailClaims.findSome? (claimedEmail fields))
    | .value _ | .valueError => .ok none
    | .recursionError => .error .recursionError
  | _ => .ok none

/-- `_decode_email_from_id_token`. A lone surrogate is no Base64, as no character outside ASCII is.
-/
def decodeEmailFromIdToken (loads : Text → JsonEnd) (idToken : Json) :
    Except TokenError (Option Text) :=
  if idToken.Truthy then
    match idToken.string with
    | some token => emailOfToken loads token
    | none => .error .attributeError
  else .ok none

/-- A value that `int` takes. -/
def Integral (value : Json) : Prop := ∃ n, toInt value = .ok n

/-- An object that has an access token and whose `expires_in`, if it has one, `int` takes. -/
def UsableBody : JsonEnd → Prop
  | .value (.obj fields) =>
    Json.get fields "access_token".toList ≠ none ∧
      ∀ value ∈ Json.get fields "expires_in".toList, Integral value
  | _ => False

/-- **A usable reply**: status 200, and the object of a token response. -/
def Usable : HttpEnd → Prop
  | .transportError => False
  | .response status body => status = 200 ∧ UsableBody body

variable {repr : Json → Text}

theorem readFields_ok_iff (fields : List (Text × Json)) :
    (∃ tokens, readFields repr fields = .ok tokens) ↔
      Json.get fields "access_token".toList ≠ none ∧
        ∀ value ∈ Json.get fields "expires_in".toList, Integral value := by
  rw [readFields]
  cases haccess : Json.get fields "access_token".toList with
  | none => simp
  | some accessToken =>
    cases hexpires : Json.get fields "expires_in".toList with
    | none => simp [toInt]
    | some value =>
      cases hint : toInt value with
      | error e => simp [Integral, hint]
      | ok n => simp [Integral, hint]

theorem readBody_ok_iff (repr : Json → Text) (body : JsonEnd) :
    (∃ tokens, readBody repr body = .ok tokens) ↔ UsableBody body := by
  cases body with
  | valueError | recursionError => simp [readBody, UsableBody]
  | value json =>
    cases json with
    | obj fields => exact readFields_ok_iff fields
    | _ => simp [readBody, UsableBody]

/-- **`_post` returns exactly on a usable reply.** -/
theorem post_ok_iff (repr : Json → Text) (reply : HttpEnd) :
    (∃ tokens, post repr reply = .ok tokens) ↔ Usable reply := by
  cases reply with
  | transportError => simp [post, Usable]
  | response status body =>
    by_cases hstatus : status = 200
    · subst hstatus
      simp only [post, if_true, Usable, readBody_ok_iff, true_and]
    · simp [post, hstatus, Usable]

/-- The exceptions of a conversion, that of the body to JSON among them. -/
def IsConversionError (e : TokenError) : Prop :=
  e = .valueError ∨ e = .keyError ∨ e = .typeError ∨ e = .overflowError ∨ e = .recursionError

theorem isConversionError_of_toInt {value : Json} {e : TokenError} (h : toInt value = .error e) :
    IsConversionError e := by
  cases value with
  | null | arr _ | obj _ => cases h; simp [IsConversionError]
  | bool b | int n => cases h
  | nan | surrogates units => cases h; simp [IsConversionError]
  | float value =>
    cases value with
    | none => cases h; simp [IsConversionError]
    | some q => cases h
  | str text =>
    rw [toInt] at h
    cases hparse : parseInt text with
    | none => rw [hparse] at h; cases h; simp [IsConversionError]
    | some n => rw [hparse] at h; cases h

/-- What a reply with status 200 raises is the exception of a conversion. -/
theorem isConversionError_of_readBody {body : JsonEnd} {e : TokenError}
    (h : readBody repr body = .error e) : IsConversionError e := by
  cases body with
  | valueError | recursionError => cases h; simp [IsConversionError]
  | value json =>
    cases json with
    | obj fields =>
      rw [readBody, readFields] at h
      cases haccess : Json.get fields "access_token".toList with
      | none => rw [haccess] at h; cases h; simp [IsConversionError]
      | some accessToken =>
        rw [haccess] at h
        cases hint : toInt ((Json.get fields "expires_in".toList).getD (.int 3600)) with
        | error e' =>
          simp only [hint] at h
          cases h
          exact isConversionError_of_toInt hint
        | ok n => simp only [hint] at h; cases h
    | _ => cases h; simp [IsConversionError]

/-! ## What a reply raises -/

/-- A body that is nested too deep. -/
def TooDeep (body : JsonEnd) : Prop := body = .recursionError

/-- How the error of a reply is read: only of a body that is nested too deep there is none. -/
theorem safeTokenError_cases (repr : Json → Text) (body : JsonEnd) :
    TooDeep body ∧ safeTokenError repr body = .error .recursionError ∨
      ¬ TooDeep body ∧ ∃ code, safeTokenError repr body = .ok code := by
  cases body with
  | recursionError => exact Or.inl ⟨rfl, rfl⟩
  | valueError => exact Or.inr ⟨fun h => (nomatch h), _, rfl⟩
  | value json =>
    refine Or.inr ⟨fun h => (nomatch h), ?_⟩
    cases json with
    | obj fields =>
      rw [safeTokenError]
      cases Json.get fields "error".toList with
      | none => exact ⟨_, rfl⟩
      | some value => exact ⟨_, rfl⟩
    | _ => exact ⟨_, rfl⟩

/-- **What a reply with another status raises**: `RecursionError` of a body that is nested too deep,
and otherwise one of the two errors of the token service. -/
theorem statusError_cases (repr : Json → Text) (body : JsonEnd) :
    TooDeep body ∧ statusError repr body = .recursionError ∨
      ¬ TooDeep body ∧ (statusError repr body = .oauthRefreshInvalidError ∨
        statusError repr body = .oauthError "oauth_exchange_failed".toList) := by
  rw [statusError]
  rcases safeTokenError_cases repr body with ⟨hdeep, herror⟩ | ⟨hdeep, code, hcode⟩
  · rw [herror]
    exact Or.inl ⟨hdeep, rfl⟩
  · rw [hcode]
    refine Or.inr ⟨hdeep, ?_⟩
    by_cases hgrant : code = "invalid_grant".toList
    · exact Or.inl (if_pos hgrant)
    · exact Or.inr (if_neg hgrant)

/-- A grant is refused exactly by an error that says so. -/
theorem statusError_eq_refreshInvalid_iff (repr : Json → Text) (body : JsonEnd) :
    statusError repr body = .oauthRefreshInvalidError ↔
      safeTokenError repr body = .ok "invalid_grant".toList := by
  rw [statusError]
  rcases safeTokenError_cases repr body with ⟨-, herror⟩ | ⟨-, code, hcode⟩
  · simp [herror]
  · rw [hcode, Except.ok.injEq]
    by_cases hgrant : code = "invalid_grant".toList
    · exact iff_of_true (if_pos hgrant) hgrant
    · refine iff_of_false ?_ hgrant
      simp only [if_neg hgrant, reduceCtorEq, not_false_eq_true]

/-- **What `_post` raises**: the error of the transport, of a status, or of a conversion. -/
theorem post_error_cases {reply : HttpEnd} {e : TokenError} (h : post repr reply = .error e) :
    reply = .transportError ∧ e = .httpError ∨
      (∃ status body, reply = .response status body ∧ status ≠ 200 ∧ e = statusError repr body) ∨
      ∃ body, reply = .response 200 body ∧ ¬ UsableBody body ∧ IsConversionError e := by
  cases reply with
  | transportError => cases h; exact Or.inl ⟨rfl, rfl⟩
  | response status body =>
    by_cases hstatus : status = 200
    · subst hstatus
      rw [post, if_pos rfl] at h
      refine Or.inr (Or.inr ⟨body, rfl, fun husable => ?_, isConversionError_of_readBody h⟩)
      obtain ⟨tokens, htokens⟩ := (readBody_ok_iff repr body).mpr husable
      rw [htokens] at h
      cases h
    · rw [post, if_neg hstatus] at h
      cases h
      exact Or.inr (Or.inl ⟨status, body, rfl, hstatus, rfl⟩)

/-! ## The identity token -/

/-- The claims of a token, if it has three parts, are not nested too deep. -/
def Shallow (loads : Text → JsonEnd) (token : Text) : Prop :=
  ∀ header payload signature, token.splitOn '.' = [header, payload, signature] →
    ¬ TooDeep (loads payload)

/-- **An identity token that can be looked at**: a string, whose claims are not nested too deep. -/
def Legible (loads : Text → JsonEnd) (idToken : Json) : Prop :=
  ∃ token, idToken.string = some token ∧ Shallow loads token

/-- The claims of a token can be read exactly if they are not nested too deep. -/
theorem emailOfToken_ok_iff (loads : Text → JsonEnd) (token : Text) :
    (∃ claimed, emailOfToken loads token = .ok claimed) ↔ Shallow loads token := by
  rw [emailOfToken]
  split
  · next header payload signature hparts =>
    have hshallow : Shallow loads token ↔ ¬ TooDeep (loads payload) := by
      rw [Shallow, hparts]
      simp
    rw [hshallow]
    cases hloads : loads payload with
    | recursionError => exact iff_of_false (by simp) fun h => h rfl
    | valueError => exact iff_of_true ⟨_, rfl⟩ fun h => (nomatch h)
    | value json => cases json <;> exact iff_of_true ⟨_, rfl⟩ fun h => (nomatch h)
  · next hparts =>
    refine iff_of_true ⟨_, rfl⟩ fun header payload signature hsplit => ?_
    exact absurd hsplit (hparts header payload signature)

theorem emailOfToken_error (loads : Text → JsonEnd) {token : Text} {e : TokenError}
    (h : emailOfToken loads token = .error e) : e = .recursionError := by
  rw [emailOfToken] at h
  split at h
  · split at h <;> cases h
    rfl
  · cases h

/-- **An identity token is read exactly if it is falsy or can be looked at.** -/
theorem decodeEmailFromIdToken_ok_iff (loads : Text → JsonEnd) (idToken : Json) :
    (∃ claimed, decodeEmailFromIdToken loads idToken = .ok claimed) ↔
      (idToken.Truthy → Legible loads idToken) := by
  rw [decodeEmailFromIdToken, Legible]
  by_cases htruthy : idToken.Truthy
  · rw [if_pos htruthy, forall_prop_of_true htruthy]
    cases hstring : idToken.string with
    | none => simp
    | some token => simp [emailOfToken_ok_iff]
  · rw [if_neg htruthy]
    exact iff_of_true ⟨_, rfl⟩ fun h => absurd h htruthy

/-- What it raises is one of two exceptions that nothing catches. -/
theorem decodeEmailFromIdToken_error {loads : Text → JsonEnd} {idToken : Json} {e : TokenError}
    (h : decodeEmailFromIdToken loads idToken = .error e) :
    e = .attributeError ∨ e = .recursionError := by
  rw [decodeEmailFromIdToken] at h
  split_ifs at h
  cases hstring : idToken.string with
  | none => rw [hstring] at h; cases h; exact Or.inl rfl
  | some token => rw [hstring] at h; exact Or.inr (emailOfToken_error loads h)

/-- **The address that is read**: what a token claims that is a string. -/
theorem decodeEmailFromIdToken_eq_some_iff (loads : Text → JsonEnd) (idToken : Json)
    (claimed : Text) :
    decodeEmailFromIdToken loads idToken = .ok (some claimed) ↔
      ∃ token, idToken.string = some token ∧ emailOfToken loads token = .ok (some claimed) := by
  rw [decodeEmailFromIdToken]
  by_cases htruthy : idToken.Truthy
  · rw [if_pos htruthy]
    cases idToken.string <;> simp
  · rw [if_neg htruthy]
    refine iff_of_false (fun h => by cases h) ?_
    rintro ⟨token, htoken, hclaimed⟩
    -- a falsy string is empty, and has no three parts
    have hempty : token = [] := by
      cases idToken with
      | str text =>
        obtain rfl := Option.some.inj htoken
        exact not_not.mp htruthy
      | surrogates units =>
        obtain rfl := Option.some.inj htoken
        obtain rfl : units = [] := not_not.mp htruthy
        rfl
      | _ => cases htoken
    subst hempty
    cases hclaimed

end TokenClient

end MailAggregator
