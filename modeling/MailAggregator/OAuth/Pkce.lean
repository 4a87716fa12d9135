import MailAggregator.Lib.Base64
import MailAggregator.Lib.FormUrl
import MailAggregator.OAuth.OneShot

set_option relaxedAutoImplicit false
set_option autoImplicit false

/-!
# PKCE

Each start of an authorisation draws a verifier, keeps it in Redis with the state, and puts its hash
into the URL at which the consent is given. A code is issued for the consent at a URL, and the token
endpoint takes it only with a verifier that has the hash in that URL. So a code is of no use to a
callback that presents the state of another start, whoever has sent the callback and whatever else
happens at the same time.

## Main definitions

* `MailAggregator.OutlookOAuthService.mintStateAndUrl` — `_mint_state_and_url`.
* `MailAggregator.OutlookOAuthService.queryValue` — how a server reads the URL.
* `MailAggregator.OutlookOAuthService.Redeems` — the check of the token endpoint.
* `MailAggregator.OutlookOAuthService.BoundTo` — what ties a callback to a start.

## Main results

* `MailAggregator.OutlookOAuthService.readQuery_authorizeUrl` — the parameters are read back.
* `MailAggregator.OutlookOAuthService.boundTo_of_linked` — a callback that links a mailbox has
  consumed the start at whose URL the consent was given.
-/

namespace MailAggregator

open PyText TokenClient Transition

/-- The settings of the Azure app. -/
structure OutlookApp where
  clientId : Text
  redirectUri : Text
  tenant : Text
  deriving DecidableEq, Repr

/-- The tenant does not end the path of the URL. -/
def OutlookApp.PlainTenant (app : OutlookApp) : Prop := '?' ∉ app.tenant ∧ '#' ∉ app.tenant

instance (app : OutlookApp) : Decidable app.PlainTenant := inferInstanceAs (Decidable (_ ∧ _))

namespace OutlookOAuthService

/-! ## The authorize URL -/

/-- `OUTLOOK_SCOPES`. -/
def outlookScopes : List Text :=
  ["https://outlook.office.com/IMAP.AccessAsUser.All", "https://outlook.office.com/SMTP.Send",
    "offline_access", "openid", "email", "profile"].map String.toList

/-- `outlook_authorize_endpoint`. -/
def outlookAuthorizeEndpoint (app : OutlookApp) : Text :=
  "https://login.microsoftonline.com/".toList ++ (app.tenant ++ "/oauth2/v2.0/authorize".toList)

/-- The `params` of `_mint_state_and_url`. -/
def authorizeParams (app : OutlookApp) (state challenge : Text) : List (Text × Text) :=
  [("client_id".toList, app.clientId), ("response_type".toList, "code".toList),
    ("redirect_uri".toList, app.redirectUri),
    ("scope".toList, [' '].intercalate outlookScopes), ("state".toList, state),
    ("code_challenge".toList, challenge), ("code_challenge_method".toList, "S256".toList),
    ("prompt".toList, "select_account".toList)]

/-- The `authorize_url` of `_mint_state_and_url`. -/
def authorizeUrl (app : OutlookApp) (state challenge : Text) : Text :=
  outlookAuthorizeEndpoint app ++ '?' :: FormUrl.urlencode (authorizeParams app state challenge)

/-- The fields in the query of a URL: what stands behind the first `?`, up to a `#`. -/
def readQuery (url : Text) : Option (List (Text × Text)) :=
  FormUrl.parseQuery ((url.takeWhile (· ≠ '#')).dropWhile (· ≠ '?')).tail

/-- The value of a parameter in a URL, as a server reads it. -/
def queryValue (url : Text) (name : String) : Option Text :=
  (readQuery url).bind fun fields =>
    (fields.find? fun field => field.1 = name.toList).map Prod.snd

/-- Nothing before the query begins or ends it. -/
theorem not_mem_outlookAuthorizeEndpoint {app : OutlookApp} (htenant : app.PlainTenant) :
    '?' ∉ outlookAuthorizeEndpoint app ∧ '#' ∉ outlookAuthorizeEndpoint app := by
  have hparts : ∀ {c}, c ∈ outlookAuthorizeEndpoint app →
      c ∈ "https://login.microsoftonline.com/".toList ∨ c ∈ app.tenant ∨
        c ∈ "/oauth2/v2.0/authorize".toList :=
    fun h => (List.mem_append.mp h).imp_right List.mem_append.mp
  constructor
  · intro h
    rcases hparts h with h | h | h
    · exact absurd h (by decide +kernel)
    · exact htenant.1 h
    · exact absurd h (by decide +kernel)
  · intro h
    rcases hparts h with h | h | h
    · exact absurd h (by decide +kernel)
    · exact htenant.2 h
    · exact absurd h (by decide +kernel)

/-- **The parameters are read back.** -/
theorem readQuery_authorizeUrl {app : OutlookApp} (htenant : app.PlainTenant)
    (state challenge : Text) :
    readQuery (authorizeUrl app state challenge) = some (authorizeParams app state challenge) := by
  have hpath := not_mem_outlookAuthorizeEndpoint htenant
  have hhash : '#' ∉ authorizeUrl app state challenge := by
    rw [authorizeUrl, List.mem_append, List.mem_cons]
    rintro (hmem | hmem | hmem)
    · exact hpath.2 hmem
    · exact absurd hmem (by decide)
    · exact FormUrl.not_mem_urlencode (by decide) hmem
  have htake : (authorizeUrl app state challenge).takeWhile (· ≠ '#') =
      authorizeUrl app state challenge := by
    refine List.takeWhile_eq_self_iff.mpr fun c hc => decide_eq_true ?_
    rintro rfl
    exact hhash hc
  have hbefore : ∀ c ∈ outlookAuthorizeEndpoint app, decide (c ≠ '?') = true := by
    refine fun c hc => decide_eq_true ?_
    rintro rfl
    exact hpath.1 hc
  rw [readQuery, htake, authorizeUrl, List.dropWhile_append_of_pos hbefore]
  simp only [ne_eq, not_true_eq_false, decide_false, Bool.false_eq_true, not_false_eq_true,
    List.dropWhile_cons_of_neg, List.tail_cons]
  exact FormUrl.parseQuery_urlencode _

/-! ## Verifiers and their hashes -/

variable (sha256 : List ℕ → List (Fin 0x100))

/-- The `code_challenge` of a `code_verifier`. -/
def challengeOf (verifier : Text) : Text :=
  Base64.encodeNoPad ((sha256 (Utf8.encode verifier)).map Fin.val)

/-- `_make_pkce_pair`, of the bytes that are drawn. -/
def makePkcePair (drawn : List ℕ) : Text × Text :=
  (Base64.encodeNoPad drawn, challengeOf sha256 (Base64.encodeNoPad drawn))

/-- `_mint_state_and_url` for `crm_state`, of the bytes that are drawn: the state, what Redis gets,
and the URL. -/
def mintStateAndUrl (app : OutlookApp) (drawnState drawnVerifier : List ℕ) (crmState : Text) :
    Text × OAuthState × Text :=
  let state := Base64.encodeNoPad drawnState
  let (verifier, challenge) := makePkcePair sha256 drawnVerifier
  (state, ⟨verifier, some crmState⟩, authorizeUrl app state challenge)

/-- The URL of a start. -/
def Mint.url (app : OutlookApp) (m : Mint) : Text :=
  authorizeUrl app m.state (challengeOf sha256 m.payload.codeVerifier)

/-- The URL that `_mint_state_and_url` returns is that of the start it makes. -/
theorem url_mintStateAndUrl (app : OutlookApp) (drawnState drawnVerifier : List ℕ)
    (crmState : Text) (id : ℕ) (expiresAt : Instant) :
    (mintStateAndUrl sha256 app drawnState drawnVerifier crmState).2.2 =
      Mint.url sha256 app
        ⟨id, (mintStateAndUrl sha256 app drawnState drawnVerifier crmState).1,
          (mintStateAndUrl sha256 app drawnState drawnVerifier crmState).2.1, expiresAt⟩ := rfl

/-- The token endpoint takes a verifier for a code that it has issued for the consent at a URL. -/
def Redeems (url verifier : Text) : Prop :=
  queryValue url "code_challenge_method" = some "S256".toList ∧
    queryValue url "code_challenge" = some (challengeOf sha256 verifier)

/-- Different hashes are different challenges. -/
theorem sha256_eq_of_challengeOf {verifier verifier' : Text}
    (h : challengeOf sha256 verifier = challengeOf sha256 verifier') :
    sha256 (Utf8.encode verifier) = sha256 (Utf8.encode verifier') := by
  have hbytes : ∀ data, ∀ b ∈ (sha256 data).map Fin.val, b < 0x100 := by
    intro data b hb
    obtain ⟨byte, -, rfl⟩ := List.mem_map.mp hb
    exact byte.isLt
  exact List.map_injective_iff.mpr Fin.val_injective
    (Base64.encodeNoPad_injective (hbytes _) (hbytes _) h)

/-- **The URL of a start redeems exactly the verifiers with the hash of its own.** -/
theorem redeems_authorizeUrl_iff {app : OutlookApp} (htenant : app.PlainTenant)
    (state verifier verifier' : Text) :
    Redeems sha256 (authorizeUrl app state (challengeOf sha256 verifier)) verifier' ↔
      sha256 (Utf8.encode verifier) = sha256 (Utf8.encode verifier') := by
  have hread := readQuery_authorizeUrl htenant state (challengeOf sha256 verifier)
  have hmethod : queryValue (authorizeUrl app state (challengeOf sha256 verifier))
      "code_challenge_method" = some "S256".toList := by
    rw [queryValue, hread]
    rfl
  have hchallenge : queryValue (authorizeUrl app state (challengeOf sha256 verifier))
      "code_challenge" = some (challengeOf sha256 verifier) := by
    rw [queryValue, hread]
    rfl
  rw [Redeems, hmethod, hchallenge, Option.some.injEq]
  constructor
  · exact fun h => sha256_eq_of_challengeOf sha256 (Option.some.inj h.2)
  · intro h
    exact ⟨rfl, by rw [challengeOf, h, challengeOf]⟩

/-! ## Codes are bound to starts -/

variable (consentUrl : Text → Option Text)

/-- **The condition on a step.** The token endpoint answers a code with tokens only if the verifier
is one of the consent that the code was issued for. -/
def ChecksVerifier : FlowLabel → Prop
  | .finish _ w => ∀ code verifier tokens,
    post w.repr (w.endpoint (.authorizationCode code verifier)) = .ok tokens →
      ∃ url, consentUrl code = some url ∧ Redeems sha256 url verifier
  | _ => True

/-- No two starts have verifiers with the same hash. -/
def HashesDiffer (s : FlowState) : Prop :=
  ∀ m ∈ s.minted, ∀ m' ∈ s.minted,
    sha256 (Utf8.encode m.payload.codeVerifier) = sha256 (Utf8.encode m'.payload.codeVerifier) →
      m = m'

/-- The callbacks that have written the table were given tokens for a verifier of the consent. -/
def Verified (s : FlowState) : Prop :=
  ∀ p ∈ s.linked, ∃ st url, p.consumed = .ok st ∧ consentUrl p.code = some url ∧
    Redeems sha256 url st.codeVerifier

variable {dump : OAuthState → Text} {validate : Text → Option OAuthState} {ttl : ℕ}
  {sha256 consentUrl}

/-- A step whose endpoint checks the verifier keeps this. -/
theorem Verified.next {s s' : FlowState} {a : FlowLabel} (h : Verified sha256 consentUrl s)
    (hchecks : ChecksVerifier sha256 consentUrl a)
    (hn : (flowSystem dump validate ttl).next s a = some s') :
    Verified sha256 consentUrl s' := by
  cases flowStep_of_next dump ttl hn with
  | mint state payload => exact h
  | consume q w replyLost code state => exact h
  | link i w p accounts st hp hst hcrm hexchange =>
    intro q hq
    rcases List.mem_append.mp hq with hq | hq
    · exact h q hq
    · obtain rfl := List.mem_singleton.mp hq
      obtain ⟨st', tokens, email, userId, hst', -, hresolve, -⟩ :=
        exchangeCodeHeadless_eq_ok hexchange
      obtain rfl := Except.ok.inj hst'
      obtain ⟨hpost, -⟩ := (exchangeAndResolve_eq_ok_iff _).mp hresolve
      obtain ⟨url, hurl, hredeems⟩ := hchecks _ _ _ hpost
      exact ⟨st, url, hst, hurl, hredeems⟩
  | elsewhere accounts => exact h
  | keep _ _ hkeeps _ =>
    intro p hp
    rw [hkeeps.linked] at hp
    exact h p hp

/-- **What ties a callback to a start**: it has consumed the start with the state that it presents,
the consent for its code was given at a URL with the challenge of this start, and if this is the URL
of any start at all, then it is that of this one. -/
structure BoundTo (app : OutlookApp) (sha256 : List ℕ → List (Fin 0x100))
    (consentUrl : Text → Option Text) (s : FlowState) (p : PendingCallback) (m : Mint) : Prop where
  minted : m ∈ s.minted
  state_eq : m.state = p.state
  payload : p.consumed = .ok m.payload
  consumed : ∃ time, ⟨m, p.callback, time⟩ ∈ s.consumed
  challenge : ∃ url, consentUrl p.code = some url ∧ Redeems sha256 url m.payload.codeVerifier
  only : ∀ m' ∈ s.minted, consentUrl p.code = some (m'.url sha256 app) → m' = m

/-- **Codes are bound to starts**, in every interleaving of starts, callbacks, losses and other
writers of the table: a callback that links a mailbox has consumed the start at whose URL the
consent for its code was given, and no start links two.

**Proof sketch.** The callback has consumed a start and holds its payload, as the states are
one-shot; the exchange has succeeded with the verifier of this payload, so the URL of the consent
has its challenge. The URL of a start redeems only verifiers with the hash of its own, and these
differ. -/
theorem boundTo_of_linked {app : OutlookApp} (hround : ∀ st, validate (dump st) = some st)
    (htenant : app.PlainTenant) {s : FlowState}
    (hs : (flowSystem dump validate ttl).ReachableWhen
      (fun _ a => ChecksVerifier sha256 consentUrl a) s)
    (hdiffer : HashesDiffer sha256 s) :
    (∀ p ∈ s.linked, ∃ m, BoundTo app sha256 consentUrl s p m) ∧
      ∀ p ∈ s.linked, ∀ p' ∈ s.linked, ∀ m, BoundTo app sha256 consentUrl s p m →
        BoundTo app sha256 consentUrl s p' m → p.callback = p'.callback := by
  have honce := oauth_state_one_shot dump ttl hround (hs.mono fun _ _ _ => trivial)
  have hverified : Verified sha256 consentUrl s := by
    refine hs.invariant (fun s₀ hinit p hp => ?_) fun _ _ _ h hchecks hn => h.next hchecks hn
    rw [hinit.2.2.2.2] at hp
    cases hp
  constructor
  · intro p hp
    obtain ⟨st, hst, -, ⟨mint, callback, time⟩, hc, rfl, hstate, rfl⟩ := honce.linked p hp
    obtain ⟨st', url, hst', hurl, hredeems⟩ := hverified p hp
    obtain rfl := Except.ok.inj (hst'.symm.trans hst)
    refine ⟨mint, (honce.inTime _ hc).1, hstate, hst, ⟨time, hc⟩, ⟨url, hurl, hredeems⟩,
      fun m' hm' hurl' => ?_⟩
    obtain rfl := Option.some.inj (hurl.symm.trans hurl')
    exact hdiffer m' hm' mint (honce.inTime _ hc).1
      ((redeems_authorizeUrl_iff sha256 htenant _ _ _).mp hredeems)
  · intro p _ p' _ m h h'
    obtain ⟨time, hc⟩ := h.consumed
    obtain ⟨time', hc'⟩ := h'.consumed
    have heq := List.inj_on_of_nodup_map honce.once hc hc' rfl
    exact congrArg Consumption.callback heq

/-! ### A code of another start -/

/-- The app of the default tenant. -/
def consumersApp : OutlookApp where
  clientId := "mail".toList
  redirectUri := "https://mail.example/callback".toList
  tenant := "consumers".toList

/-- The verifier of 32 equal bytes. -/
def uniformVerifier (byte : ℕ) : Text := Base64.encodeNoPad (List.replicate 32 byte)

/-- SHA-256, of two verifiers. -/
def sha256OfTwo (data : List ℕ) : List (Fin 0x100) :=
  if data = Utf8.encode (uniformVerifier 0) then
    [15, 0, 115, 133, 182, 249, 212, 183, 238, 178, 116, 134, 5, 175, 225, 169, 132, 160, 163, 191,
      163, 240, 20, 208, 158, 42, 120, 76, 233, 229, 205, 26]
  else if data = Utf8.encode (uniformVerifier 1) then
    [86, 213, 250, 115, 51, 246, 215, 71, 219, 66, 194, 57, 64, 126, 93, 164, 195, 47, 76, 121, 243,
      93, 9, 43, 19, 79, 211, 90, 64, 45, 156, 92]
  else []

/-- The start that draws equal bytes. -/
def uniformStart (byte : ℕ) : Text × OAuthState × Text :=
  mintStateAndUrl sha256OfTwo consumersApp (List.replicate 32 byte) (List.replicate 32 byte)
    "crm".toList

/-- The consent for the code `c` was given at the URL of the first start. -/
def firstConsent (code : Text) : Option Text :=
  if code = "c".toList then some (uniformStart 0).2.2 else none

/-- The token endpoint takes this code with the verifier of the first start. -/
def checkingCallback : CallbackWorld :=
  { linkingCallback with
    endpoint := fun request =>
      if request = .authorizationCode "c".toList (uniformVerifier 0) then
        linkingCallback.endpoint (.authorizationCode "c".toList "v".toList)
      else .response 400 .valueError }

/-- A callback with the code `c`. -/
def presenting (state : Text) : CallbackQuery where
  code := some "c".toList
  state := some state

/-- The code comes with the state of the second start, and then with that of the first. -/
def injection : List FlowLabel :=
  [.mint (uniformStart 0).1 (uniformStart 0).2.1, .mint (uniformStart 1).1 (uniformStart 1).2.1,
    .callback (presenting (uniformStart 1).1) checkingCallback false, .finish 0 checkingCallback,
    .callback (presenting (uniformStart 0).1) checkingCallback false, .finish 0 checkingCallback]

/-- The steps of the injection meet the condition. -/
theorem checksVerifier_injection : ∀ a ∈ injection, ChecksVerifier sha256OfTwo firstConsent a := by
  have hfinish : ∀ i, ChecksVerifier sha256OfTwo firstConsent (.finish i checkingCallback) := by
    intro i code verifier tokens hpost
    by_cases hrequest : TokenRequest.authorizationCode code verifier =
        .authorizationCode "c".toList (uniformVerifier 0)
    · obtain ⟨rfl, rfl⟩ := TokenRequest.authorizationCode.inj hrequest
      refine ⟨(uniformStart 0).2.2, if_pos rfl, ?_⟩
      exact (redeems_authorizeUrl_iff sha256OfTwo (by decide) _ _ _).mpr rfl
    · simp only [checkingCallback, if_neg hrequest, post] at hpost
      cases hpost
  intro a ha
  simp only [injection, List.mem_cons, List.not_mem_nil, or_false] at ha
  rcases ha with rfl | rfl | rfl | rfl | rfl | rfl
  · trivial
  · trivial
  · trivial
  · exact hfinish 0
  · trivial
  · exact hfinish 0

/-- A code is refused with the state of another start, and links a mailbox with that of its own. -/
theorem boundTo_of_linked_injection : ∃ s,
    (flowSystem dumpJson validateJson 600).run idleFlow injection = some s ∧
      s.consumed.length = 2 ∧ s.linked.map PendingCallback.callback = [1] ∧
      ∀ p ∈ s.linked, ∃ m, BoundTo consumersApp sha256OfTwo firstConsent s p m := by
  have hrun : ((flowSystem dumpJson validateJson 600).run idleFlow injection).map
      (fun s => (s.minted, s.consumed.length, s.linked.map PendingCallback.callback)) =
      some ([⟨0, (uniformStart 0).1, (uniformStart 0).2.1, 600⟩,
        ⟨1, (uniformStart 1).1, (uniformStart 1).2.1, 600⟩], 2, [1]) := by decide +kernel
  obtain ⟨s, hs, hvalues⟩ := Option.map_eq_some_iff.mp hrun
  simp only [Prod.mk.injEq] at hvalues
  obtain ⟨hminted, hconsumed, hlinked⟩ := hvalues
  have hreaches : (flowSystem dumpJson validateJson 600).ReachesBy
      (ChecksVerifier sha256OfTwo firstConsent) idleFlow s :=
    ⟨injection, checksVerifier_injection, hs⟩
  have hreachable := hreaches.invariant (P := (flowSystem dumpJson validateJson 600).ReachableWhen
    fun _ a => ChecksVerifier sha256OfTwo firstConsent a)
    (fun _ _ _ h ha hn => .step h ha hn) (.init ⟨rfl, rfl, rfl, rfl, rfl⟩)
  have hdiffer : HashesDiffer sha256OfTwo s := by
    rw [HashesDiffer, hminted]
    decide +kernel
  exact ⟨s, hs, hconsumed, hlinked,
    (boundTo_of_linked validateJson_dumpJson (by decide) hreachable hdiffer).1⟩

end OutlookOAuthService

end MailAggregator
