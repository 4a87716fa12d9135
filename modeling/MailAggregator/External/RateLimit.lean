import MailAggregator.Lib.PyText

set_option relaxedAutoImplicit false
set_option autoImplicit false

/-!
# Rate limiting by client address

Every route of the machine API first charges the request to a counter in Redis, whose key holds
the address of the client. Behind nginx the application finds that address in
`X-Forwarded-For`: nginx appends the address of its peer to whatever list the client sent, and
`client_ip` takes the first element. So the client picks the element.

## Main definitions

* `MailAggregator.RateLimit.clientIp` — the address a request is charged to.
* `MailAggregator.RateLimit.forward` — the request as nginx passes it on.
* `MailAggregator.RateLimit.claimedAddress` — the address that a client's headers name first.
* `MailAggregator.RateLimit.consume` — charge a request to a key.
* `MailAggregator.RateLimit.authorizeWrite` — rate limit, API key and write gate.

## Main results

* `MailAggregator.RateLimit.same_key_iff` — two requests from one peer are charged to one key
  exactly when they name the same address.
* `MailAggregator.RateLimit.clientIp_forge` — any address can be named.
* `MailAggregator.RateLimit.never_limited` — a client that names a new address in every request
  is never refused by the limiter, however often it guesses the API key.
-/

namespace MailAggregator

open PyText

namespace RateLimit

/-! ## The client address -/

/-- What the routes read of a request: three headers, and the host of the socket. -/
structure Request where
  xForwardedFor : Option Text
  xApiKey : Option Text
  authorization : Option Text
  client : Option Text
  deriving DecidableEq, Repr

/-- `xff.split(",")[0]`. -/
def firstElement (xff : Text) : Text := xff.takeWhile (· ≠ ',')

/-- `client_ip`. -/
def clientIp (request : Request) : Text :=
  match request.xForwardedFor with
  | some (c :: xff) => strip (firstElement (c :: xff))
  | _ => request.client.getD "0.0.0.0".toList

/-- The address of a TCP peer, as nginx writes it. -/
structure PeerAddress where
  text : Text
  ne_nil : text ≠ []
  no_comma : ',' ∉ text
  stripped : strip text = text

/-- `$proxy_add_x_forwarded_for`: the `X-Forwarded-For` lines of the request and then the peer,
separated by a comma and a blank. -/
def proxyAddXForwardedFor (lines : List Text) (peer : PeerAddress) : Text :=
  lines.flatMap (· ++ ", ".toList) ++ peer.text

/-- What a client sends: its `X-Forwarded-For` lines, and the two headers that may hold a key. -/
structure ClientRequest where
  xForwardedFor : List Text
  xApiKey : Option Text
  authorization : Option Text
  deriving DecidableEq, Repr

/-- The request that nginx passes on, over a connection from `proxy`. -/
def forward (proxy : Option Text) (peer : PeerAddress) (sent : ClientRequest) : Request where
  xForwardedFor := some (proxyAddXForwardedFor sent.xForwardedFor peer)
  xApiKey := sent.xApiKey
  authorization := sent.authorization
  client := proxy

/-- The address that the client names first: the first element of its first line, and the peer
itself if it sends no line. -/
def claimedAddress (peer : PeerAddress) (lines : List Text) : Text :=
  match lines with
  | [] => peer.text
  | line :: _ => strip (firstElement line)

/-- Before a comma, the rest of the text does not count. -/
theorem firstElement_append_comma (line rest : Text) :
    firstElement (line ++ ',' :: rest) = firstElement line := by
  induction line with
  | nil => simp [firstElement]
  | cons c line ih =>
    simp only [firstElement, List.cons_append] at ih ⊢
    by_cases hc : c = ','
    · simp [hc]
    · rw [List.takeWhile_cons_of_pos (by simpa using hc),
        List.takeWhile_cons_of_pos (by simpa using hc), ih]

/-- A text without a comma is its own first element. -/
theorem firstElement_eq_self {text : Text} (h : ',' ∉ text) : firstElement text = text := by
  rw [firstElement, List.takeWhile_eq_self_iff]
  intro c hc
  have hne : c ≠ ',' := fun heq => h (heq ▸ hc)
  simpa using hne

theorem clientIp_of_ne_nil {request : Request} {xff : Text} (h : request.xForwardedFor = some xff)
    (hne : xff ≠ []) : clientIp request = strip (firstElement xff) := by
  cases xff with
  | nil => exact absurd rfl hne
  | cons c xff => rw [clientIp, h]

/-- nginx never passes on an empty list. -/
theorem proxyAddXForwardedFor_ne_nil (lines : List Text) (peer : PeerAddress) :
    proxyAddXForwardedFor lines peer ≠ [] := by
  rw [proxyAddXForwardedFor]
  exact List.append_ne_nil_of_right_ne_nil _ peer.ne_nil

/-- **Behind nginx the client address is the one the client names first.** -/
theorem clientIp_forward (proxy : Option Text) (peer : PeerAddress) (sent : ClientRequest) :
    clientIp (forward proxy peer sent) = claimedAddress peer sent.xForwardedFor := by
  rw [clientIp_of_ne_nil rfl (proxyAddXForwardedFor_ne_nil sent.xForwardedFor peer)]
  cases sent.xForwardedFor with
  | nil =>
    rw [proxyAddXForwardedFor, List.flatMap_nil, List.nil_append,
      firstElement_eq_self peer.no_comma, peer.stripped, claimedAddress]
  | cons line lines =>
    have hcomma : proxyAddXForwardedFor (line :: lines) peer =
        line ++ ',' :: (' ' :: lines.flatMap (· ++ ", ".toList) ++ peer.text) := by
      simp [proxyAddXForwardedFor]
    rw [hcomma, firstElement_append_comma, claimedAddress]

/-- **Any address can be named.** A client that sends `address` as its header is taken for it. -/
theorem clientIp_forge (proxy : Option Text) (peer : PeerAddress) (sent : ClientRequest)
    {address : Text} (hcomma : ',' ∉ address) (hstrip : strip address = address) :
    clientIp (forward proxy peer { sent with xForwardedFor := [address] }) = address := by
  rw [clientIp_forward, claimedAddress, firstElement_eq_self hcomma, hstrip]

/-! ## Counters in Redis -/

/-- A counter, with the time at which it expires. Times are in milliseconds. -/
structure Counter where
  value : ℕ
  expiresAt : Option ℕ
  deriving DecidableEq, Repr

/-- The counters. -/
abbrev Redis := Text → Option Counter

/-- The counter of a key. One whose time has passed is gone. -/
def Redis.get (redis : Redis) (now : ℕ) (key : Text) : Option Counter :=
  (redis key).filter fun c => c.expiresAt.all (now ≤ ·)

/-- `INCR`. -/
def Redis.incr (redis : Redis) (now : ℕ) (key : Text) : Redis × ℕ :=
  let c := (redis.get now key).getD { value := 0, expiresAt := none }
  (Function.update redis key (some { c with value := c.value + 1 }), c.value + 1)

/-- `EXPIRE … NX`: a counter without an expiry gets one. -/
def Redis.expireNx (redis : Redis) (now : ℕ) (key : Text) (seconds : ℕ) : Redis :=
  match redis.get now key with
  | none => redis
  | some c =>
    if c.expiresAt = none then
      Function.update redis key (some { c with expiresAt := some (now + 1000 * seconds) })
    else redis

/-- `TTL`: the seconds left, `-1` for a counter that does not expire, `-2` for none at all. -/
def Redis.ttl (redis : Redis) (now : ℕ) (key : Text) : ℤ :=
  match redis.get now key with
  | none => -2
  | some { expiresAt := none, .. } => -1
  | some { expiresAt := some t, .. } => ((t - now + 500) / 1000 : ℕ)

/-- A policy: `capacity` requests per `windowSeconds`. -/
structure Limit where
  name : Text
  capacity : ℕ
  windowSeconds : ℕ
  deriving DecidableEq, Repr

/-- `LIMIT_EXTERNAL_API`. -/
def limitExternalApi : Limit := ⟨"external_api".toList, 120, 60⟩

/-- `LIMIT_EXTERNAL_WRITE`. -/
def limitExternalWrite : Limit := ⟨"external_write".toList, 60, 60⟩

/-- `RateLimitedError`. -/
structure RateLimited where
  retryAfter : ℤ
  deriving DecidableEq, Repr

/-- The key of a counter. -/
def redisKey (limit : Limit) (key : Text) : Text :=
  "rl:".toList ++ limit.name ++ ':' :: key

/-- The times at which the three commands of a call run. -/
structure CommandTimes where
  incr : ℕ
  expire : ℕ
  ttl : ℕ

/-- `INCR` and `EXPIRE … NX` of a call. -/
def countRequest (limit : Limit) (key : Text) (times : CommandTimes) (redis : Redis) : Redis × ℕ :=
  let (redis, current) := redis.incr times.incr (redisKey limit key)
  (redis.expireNx times.expire (redisKey limit key) limit.windowSeconds, current)

/-- The `Retry-After` of a refusal: the seconds that the counter has left. -/
def retryAfter (limit : Limit) (ttl : ℤ) : ℤ := if 0 < ttl then max ttl 1 else limit.windowSeconds

/-- `consume`. -/
def consume (limit : Limit) (key : Text) (times : CommandTimes) (redis : Redis) :
    Redis × Except RateLimited Unit :=
  if key = [] then (redis, .ok ())
  else
    let (redis, current) := countRequest limit key times redis
    if limit.capacity < current then
      (redis, .error ⟨retryAfter limit (redis.ttl times.ttl (redisKey limit key))⟩)
    else (redis, .ok ())

theorem Redis.get_of_none {redis : Redis} {key : Text} (h : redis key = none) (now : ℕ) :
    redis.get now key = none := by
  rw [Redis.get, h, Option.filter_none]

theorem Redis.incr_of_ne (redis : Redis) (now : ℕ) {key other : Text} (h : other ≠ key) :
    (redis.incr now key).1 other = redis other :=
  Function.update_of_ne h _ _

theorem Redis.expireNx_of_ne (redis : Redis) (now : ℕ) {key other : Text} (seconds : ℕ)
    (h : other ≠ key) : redis.expireNx now key seconds other = redis other := by
  rw [Redis.expireNx]
  cases redis.get now key with
  | none => rfl
  | some c =>
    by_cases hc : c.expiresAt = none
    · simp only [if_pos hc]
      exact Function.update_of_ne h _ _
    · simp only [if_neg hc]

/-- The value that a call finds in the counter of its key. -/
def found (limit : Limit) (key : Text) (times : CommandTimes) (redis : Redis) : ℕ :=
  ((redis.get times.incr (redisKey limit key)).getD ⟨0, none⟩).value

@[simp] theorem countRequest_snd (limit : Limit) (key : Text) (times : CommandTimes)
    (redis : Redis) :
    (countRequest limit key times redis).2 = found limit key times redis + 1 := rfl

theorem countRequest_of_ne (limit : Limit) (key : Text) (times : CommandTimes) (redis : Redis)
    {other : Text} (h : other ≠ redisKey limit key) :
    (countRequest limit key times redis).1 other = redis other :=
  (Redis.expireNx_of_ne _ _ _ h).trans (Redis.incr_of_ne _ _ h)

/-- A call leaves the counters of the other keys alone. -/
theorem consume_of_ne (limit : Limit) (key : Text) (times : CommandTimes) (redis : Redis)
    {other : Text} (h : other ≠ redisKey limit key) :
    (consume limit key times redis).1 other = redis other := by
  have hcount := countRequest_of_ne limit key times redis h
  rw [consume]
  by_cases hkey : key = []
  · rw [if_pos hkey]
  · rw [if_neg hkey]
    by_cases hcap : limit.capacity < (countRequest limit key times redis).2
    · simp only [if_pos hcap, hcount]
    · simp only [if_neg hcap, hcount]

/-- **A call is refused exactly when the counter was at the capacity already.** -/
theorem consume_ok_iff (limit : Limit) {key : Text} (times : CommandTimes) (redis : Redis)
    (hkey : key ≠ []) :
    (consume limit key times redis).2 = .ok () ↔ found limit key times redis < limit.capacity := by
  rw [consume, if_neg hkey]
  by_cases hcap : limit.capacity < (countRequest limit key times redis).2
  · simp only [if_pos hcap]
    rw [countRequest_snd] at hcap
    constructor
    · intro h
      cases h
    · intro h
      omega
  · simp only [if_neg hcap]
    rw [countRequest_snd] at hcap
    constructor
    · intro
      omega
    · intro
      trivial

theorem retryAfter_pos (limit : Limit) (hwindow : 0 < limit.windowSeconds) (ttl : ℤ) :
    0 < retryAfter limit ttl := by
  rw [retryAfter]
  split_ifs <;> omega

/-- A refused client is told to wait for a positive number of seconds. -/
theorem consume_retryAfter_pos (limit : Limit) (key : Text) (times : CommandTimes) (redis : Redis)
    (hwindow : 0 < limit.windowSeconds) {e : RateLimited}
    (h : (consume limit key times redis).2 = .error e) : 0 < e.retryAfter := by
  rw [consume] at h
  by_cases hkey : key = []
  · rw [if_pos hkey] at h
    cases h
  · rw [if_neg hkey] at h
    by_cases hcap : limit.capacity < (countRequest limit key times redis).2
    · simp only [if_pos hcap] at h
      cases h
      exact retryAfter_pos limit hwindow _
    · simp only [if_neg hcap] at h
      cases h

theorem redisKey_injective (limit : Limit) : Function.Injective (redisKey limit) := by
  intro key key' h
  simpa [redisKey] using h

/-! ## Two requests from one peer -/

/-- The key a request is charged to. -/
def chargedKey (limit : Limit) (request : Request) : Text :=
  redisKey limit ("ip:".toList ++ clientIp request)

/-- Requests are charged to one key exactly when they have the same client address. -/
theorem chargedKey_eq_iff (limit : Limit) (request request' : Request) :
    chargedKey limit request = chargedKey limit request' ↔
      clientIp request = clientIp request' := by
  rw [chargedKey, chargedKey, (redisKey_injective limit).eq_iff, List.append_cancel_left_eq]

/-- **Two requests from one peer have the same client address and the same rate-limit key exactly
when they name the same address.** -/
theorem same_key_iff (proxy proxy' : Option Text) (peer : PeerAddress)
    (sent sent' : ClientRequest) :
    (clientIp (forward proxy peer sent) = clientIp (forward proxy' peer sent') ∧
      ∀ limit, chargedKey limit (forward proxy peer sent) =
        chargedKey limit (forward proxy' peer sent')) ↔
      claimedAddress peer sent.xForwardedFor = claimedAddress peer sent'.xForwardedFor := by
  simp only [chargedKey_eq_iff, clientIp_forward]
  exact ⟨fun h => h.1, fun h => ⟨h, fun _ => h⟩⟩

/-- The peer `198.51.100.7`. -/
def peer : PeerAddress := ⟨"198.51.100.7".toList, by decide, by decide, by decide⟩

/-- A request that sends one `X-Forwarded-For` line is not taken for one that sends none. -/
theorem forged_header :
    ¬ ∀ (proxy proxy' : Option Text) (peer : PeerAddress) (sent sent' : ClientRequest),
      clientIp (forward proxy peer sent) = clientIp (forward proxy' peer sent') ∧
        ∀ limit, chargedKey limit (forward proxy peer sent) =
          chargedKey limit (forward proxy' peer sent') := by
  intro h
  have hsame := (h none none peer ⟨["203.0.113.9".toList], none, none⟩ ⟨[], none, none⟩).1
  exact absurd hsame (by decide)

/-! ## Guessing the API key -/

/-- Settings of the machine API. -/
structure ApiSettings where
  externalApiKey : Text := []
  externalWriteRateLimitPerMinute : ℕ := 60
  externalWriteEnabled : Bool := false
  externalWriteRateLimit_within :
    1 ≤ externalWriteRateLimitPerMinute ∧ externalWriteRateLimitPerMinute ≤ 10000 := by decide

/-- How `_authorize_write` ends when it raises. The last one is `TypeError`: `compare_digest` takes
ASCII text only. -/
inductive WriteRefusal where
  | rateLimited (e : RateLimited)
  | notAuthenticated
  | forbidden
  | typeError
  deriving DecidableEq, Repr

/-- `_bearer`. -/
def bearer (authorization : Option Text) : Option Text :=
  match authorization with
  | none => none
  | some text =>
    match text.dropWhile (· ≠ ' ') with
    | [] => none
    | _ :: rest =>
      if lower (text.takeWhile (· ≠ ' ')) = "bearer".toList ∧ strip rest ≠ [] then
        some (strip rest)
      else none

/-- The key that a request presents. -/
def providedKey (request : Request) : Option Text :=
  match request.xApiKey with
  | some (c :: key) => some (c :: key)
  | _ => bearer request.authorization

/-- `_authenticate`. -/
def authenticate (settings : ApiSettings) (request : Request) : Except WriteRefusal Unit :=
  if settings.externalApiKey = [] then .error .notAuthenticated
  else
    match providedKey request with
    | none => .error .notAuthenticated
    | some key =>
      if ∀ c ∈ key ++ settings.externalApiKey, c.toNat < 128 then
        if key = settings.externalApiKey then .ok () else .error .notAuthenticated
      else .error .typeError

/-- The policy of the write routes. -/
def writeLimit (settings : ApiSettings) : Limit :=
  { limitExternalWrite with capacity := settings.externalWriteRateLimitPerMinute }

/-- `_authorize_write` after the limiter: the key is compared, and then the gate is checked. -/
def checkWrite (settings : ApiSettings) (request : Request) : Except WriteRefusal Unit :=
  match authenticate settings request with
  | .error e => .error e
  | .ok () => if settings.externalWriteEnabled then .ok () else .error .forbidden

/-- `_authorize_write`. -/
def authorizeWrite (settings : ApiSettings) (request : Request) (times : CommandTimes)
    (redis : Redis) : Redis × Except WriteRefusal Unit :=
  match consume (writeLimit settings) ("ip:".toList ++ clientIp request) times redis with
  | (redis, .error e) => (redis, .error (.rateLimited e))
  | (redis, .ok ()) => (redis, checkWrite settings request)

/-- A run of requests, each with the times of its commands. -/
def authorizeAll (settings : ApiSettings) :
    List (Request × CommandTimes) → Redis → List (Except WriteRefusal Unit)
  | [], _ => []
  | (request, times) :: rest, redis =>
    (authorizeWrite settings request times redis).2 ::
      authorizeAll settings rest (authorizeWrite settings request times redis).1

/-- The first request of an address is not limited, and the counters of the others stay. -/
theorem authorizeWrite_fresh (settings : ApiSettings) (request : Request) (times : CommandTimes)
    {redis : Redis} (h : redis (chargedKey (writeLimit settings) request) = none) :
    (authorizeWrite settings request times redis).2 = checkWrite settings request ∧
      ∀ other, other ≠ chargedKey (writeLimit settings) request →
        (authorizeWrite settings request times redis).1 other = redis other := by
  have hfound : found (writeLimit settings) ("ip:".toList ++ clientIp request) times redis = 0 := by
    rw [found, show redis.get times.incr (redisKey _ _) = none from Redis.get_of_none h _]
    rfl
  have hok : (consume (writeLimit settings) ("ip:".toList ++ clientIp request) times redis).2 =
      .ok () := by
    have hkey : "ip:".toList ++ clientIp request ≠ [] := List.cons_ne_nil _ _
    rw [consume_ok_iff _ _ _ hkey, hfound]
    exact settings.externalWriteRateLimit_within.1
  have hframe := fun other => @consume_of_ne (writeLimit settings)
    ("ip:".toList ++ clientIp request) times redis other
  rw [authorizeWrite]
  rcases hcall : consume (writeLimit settings) ("ip:".toList ++ clientIp request) times redis with
    ⟨redis', result⟩
  rw [hcall] at hok hframe
  obtain rfl : result = .ok () := hok
  exact ⟨rfl, hframe⟩

/-- **Guessing is not limited.** A client that names a new address in every request gets the
answer of the key comparison and the write gate every time, whatever the capacity.

**Proof sketch.** Induction on the requests. The first is charged to a key without a counter and
leaves the keys of the others alone, so these find no counter either. -/
theorem never_limited (settings : ApiSettings) (requests : List (Request × CommandTimes))
    {redis : Redis}
    (hnew : ∀ r ∈ requests, redis (chargedKey (writeLimit settings) r.1) = none)
    (hdistinct : requests.Pairwise fun r r' => clientIp r.1 ≠ clientIp r'.1) :
    authorizeAll settings requests redis = requests.map fun r => checkWrite settings r.1 := by
  induction requests generalizing redis with
  | nil => rfl
  | cons r requests ih =>
    obtain ⟨hhead, htail⟩ := List.pairwise_cons.mp hdistinct
    obtain ⟨hresult, hframe⟩ :=
      authorizeWrite_fresh settings r.1 r.2 (hnew r List.mem_cons_self)
    have hrest : ∀ r' ∈ requests, (authorizeWrite settings r.1 r.2 redis).1
        (chargedKey (writeLimit settings) r'.1) = none := by
      intro r' hr'
      have hne : chargedKey (writeLimit settings) r'.1 ≠ chargedKey (writeLimit settings) r.1 :=
        fun heq => hhead r' hr' ((chargedKey_eq_iff _ _ _).mp heq.symm)
      rw [hframe _ hne]
      exact hnew r' (List.mem_cons_of_mem r hr')
    rw [authorizeAll, hresult, ih hrest htail, List.map_cons]

end RateLimit

end MailAggregator
