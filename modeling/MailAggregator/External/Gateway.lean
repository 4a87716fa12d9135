import MailAggregator.External.RateLimit
import MailAggregator.Lib.JsonText

set_option relaxedAutoImplicit false
set_option autoImplicit false

/-!
# The gateway of the machine API

Every route checks a request in the same order: the query and the path are bound, the request is
charged to a counter, the key is compared, and the write routes check their gate. Only then does a
service see the request. A refusal is answered by one of the exception handlers.

## Main definitions

* `MailAggregator.Gateway.Deployment` — the settings, and what the services do.
* `MailAggregator.Gateway.respond` — the answer to a request.
* `MailAggregator.Gateway.serve` — the answers to a run of requests.
* `MailAggregator.Gateway.Stranger` — a request that does not present the key.
* `MailAggregator.Gateway.verdicts` — the verdicts of the limiter over a run of requests.

## Main results

* `MailAggregator.Gateway.serve_stranger` — what strangers are answered is decided by the two
  capacities and the counters.
* `MailAggregator.Gateway.serve_opaque` — so strangers cannot tell two deployments apart.
* `MailAggregator.Gateway.verdicts_isolated` — the budgets of reading and writing, and those of
  different addresses, are separate.
-/

namespace MailAggregator

open PyText JsonText RateLimit

namespace Gateway

/-! ## Errors and their answers -/

/-- A `DomainError`. -/
structure DomainError where
  statusCode : ℕ
  code : Text
  message : Text
  field : Option Text := none
  details : List (Text × Value) := []
  retryAfter : Option ℤ := none

/-- A `JSONResponse`. -/
structure Response where
  statusCode : ℕ
  content : Value
  headers : List (Text × Text) := []

/-- `_payload`. -/
def payload (err : DomainError) : Value :=
  .obj [("error".toList, .obj
    ([("code".toList, .str err.code), ("message".toList, .str err.message)] ++
      (err.field.map fun field => ("field".toList, .str field)).toList ++
      if err.details = [] then [] else [("details".toList, .obj err.details)]))]

/-- `_headers`. -/
def headers (err : DomainError) : List (Text × Text) :=
  (err.retryAfter.map fun seconds => ("Retry-After".toList, intRepr seconds)).toList

/-- `_domain_handler`. -/
def domainHandler (err : DomainError) : Response where
  statusCode := err.statusCode
  content := payload err
  headers := headers err

/-- `_validation_handler`, of the field paths and the types of the errors. -/
def validationHandler (errors : List (Text × Text)) : Response where
  statusCode := 400
  content := .obj [("error".toList, .obj
    [("code".toList, .str "validation_error".toList),
      ("message".toList, .str "Request validation failed".toList),
      ("details".toList, .obj [("errors".toList, .arr (errors.map fun err =>
        .obj [("loc".toList, .str err.1), ("type".toList, .str err.2)]))])])]

/-- `_unhandled_handler`. -/
def unhandledHandler : Response where
  statusCode := 500
  content := .obj [("error".toList, .obj
    [("code".toList, .str "internal_error".toList),
      ("message".toList, .str "An internal error occurred.".toList)])]

/-- The `RateLimitedError` of `consume`. -/
def rateLimitedError (e : RateLimited) : DomainError where
  statusCode := 429
  code := "rate_limited".toList
  message := "Rate limit exceeded.".toList
  retryAfter := some e.retryAfter

/-- `NotAuthenticatedError()`. -/
def notAuthenticatedError : DomainError where
  statusCode := 401
  code := "not_authenticated".toList
  message := "not_authenticated".toList

/-- The `ForbiddenError` of the write gate. -/
def forbiddenError : DomainError where
  statusCode := 403
  code := "forbidden".toList
  message := "External write is disabled".toList

/-- `NotFoundError()`. -/
def notFoundError : DomainError where
  statusCode := 404
  code := "not_found".toList
  message := "not_found".toList

/-- The answer to a request that is refused before a service sees it. -/
def refuse : WriteRefusal → Response
  | .rateLimited e => domainHandler (rateLimitedError e)
  | .notAuthenticated => domainHandler notAuthenticatedError
  | .forbidden => domainHandler forbiddenError
  | .typeError => unhandledHandler

/-! ## The routes -/

/-- The routes of `/api/external`. -/
inductive Route where
  | listMessages
  | listMailboxes
  | mailboxTest
  | mailboxCreate
  | mailboxUpdate
  | mailboxDelete
  | mailboxSync
  | mailboxSend
  | oauthAuthorize
  | oauthCallback
  deriving DecidableEq, Repr

/-- The routes of the read section. -/
def Route.isRead : Route → Bool
  | .listMessages | .listMailboxes => true
  | _ => false

section Serving

variable {ι δ : Type}

/-- A request to a route. The errors are those of binding its path and its query, which come before
the route; the input is whatever else the services read. -/
structure Call (ι : Type) where
  route : Route
  request : Request
  bindErrors : List (Text × Text) := []
  input : ι
  times : CommandTimes

/-- What a deployment has: its settings, and what its services do with a request and the stored
data. -/
structure Deployment (ι δ : Type) where
  api : ApiSettings := {}
  externalApiRateLimitPerMinute : ℕ := 120
  outlookOauthEnabled : Bool := false
  handle : Route → ι → δ → δ × Response

/-- The policy of a route. -/
def limitOf (d : Deployment ι δ) (route : Route) : Limit :=
  if route.isRead then { limitExternalApi with capacity := d.externalApiRateLimitPerMinute }
  else writeLimit d.api

/-- The first step of every route: `consume`. -/
def charge (d : Deployment ι δ) (call : Call ι) (redis : Redis) :
    Redis × Except RateLimited Unit :=
  consume (limitOf d call.route) ("ip:".toList ++ clientIp call.request) call.times redis

/-- The steps after the limiter and before the service. The callback carries no key. -/
def check (d : Deployment ι δ) (call : Call ι) : Except Response Unit :=
  let outlook : Except Response Unit :=
    if d.outlookOauthEnabled then .ok () else .error (domainHandler notFoundError)
  match call.route with
  | .oauthCallback => outlook
  | .oauthAuthorize => (checkWrite d.api call.request).mapError refuse >>= fun _ => outlook
  | .listMessages | .listMailboxes => (authenticate d.api call.request).mapError refuse
  | _ => (checkWrite d.api call.request).mapError refuse

/-- The answer to a request. -/
def respond (d : Deployment ι δ) (call : Call ι) (redis : Redis) (db : δ) :
    Redis × δ × Response :=
  if call.bindErrors = [] then
    match charge d call redis with
    | (redis, .error e) => (redis, db, refuse (.rateLimited e))
    | (redis, .ok ()) =>
      match check d call with
      | .error response => (redis, db, response)
      | .ok () =>
        let (db, response) := d.handle call.route call.input db
        (redis, db, response)
  else (redis, db, validationHandler call.bindErrors)

/-- The counters and the data after a run of requests, and the answers. -/
def serve (d : Deployment ι δ) : List (Call ι) → Redis → δ → Redis × δ × List Response
  | [], redis, db => (redis, db, [])
  | call :: calls, redis, db =>
    let (redis, db, response) := respond d call redis db
    let (redis, db, responses) := serve d calls redis db
    (redis, db, response :: responses)

/-! ## Strangers -/

/-- Text that `compare_digest` takes. -/
def Ascii (text : Text) : Prop := ∀ c ∈ text, c.toNat < 128

/-- A request to a route with a key, which presents none or one that is not that of the
deployment. -/
structure Stranger (d : Deployment ι δ) (call : Call ι) : Prop where
  keyed : call.route ≠ .oauthCallback
  ascii : ∀ key ∈ providedKey call.request, Ascii key
  wrong : d.api.externalApiKey ≠ [] → providedKey call.request ≠ some d.api.externalApiKey

variable {d d' : Deployment ι δ} {call : Call ι}

theorem authenticate_stranger (hkey : Ascii d.api.externalApiKey) (h : Stranger d call) :
    authenticate d.api call.request = .error .notAuthenticated := by
  unfold authenticate
  by_cases hoff : d.api.externalApiKey = []
  · rw [if_pos hoff]
  · rw [if_neg hoff]
    cases hprovided : providedKey call.request with
    | none => rfl
    | some key =>
      have hascii : ∀ c ∈ key ++ d.api.externalApiKey, c.toNat < 128 := by
        intro c hc
        rcases List.mem_append.mp hc with hc | hc
        · exact h.ascii key hprovided c hc
        · exact hkey c hc
      have hne : key ≠ d.api.externalApiKey := by
        rintro rfl
        exact h.wrong hoff hprovided
      simp only [if_pos hascii, if_neg hne]

/-- A stranger is refused by the key, whatever the gate and the features are. -/
theorem check_stranger (hkey : Ascii d.api.externalApiKey) (h : Stranger d call) :
    check d call = .error (refuse .notAuthenticated) := by
  have hauth := authenticate_stranger hkey h
  have hwrite : checkWrite d.api call.request = .error .notAuthenticated := by
    rw [checkWrite, hauth]
  unfold check
  cases hroute : call.route with
  | oauthCallback => exact absurd hroute h.keyed
  | listMessages | listMailboxes =>
    simp only [hauth]
    rfl
  | oauthAuthorize | mailboxTest | mailboxCreate | mailboxUpdate | mailboxDelete | mailboxSync
  | mailboxSend =>
    simp only [hwrite]
    rfl

/-- What a stranger is answered: the errors of binding, the limiter, or the missing key. -/
def refuseStranger (d : Deployment ι δ) (call : Call ι) (redis : Redis) : Redis × Response :=
  if call.bindErrors = [] then
    match charge d call redis with
    | (redis, .error e) => (redis, refuse (.rateLimited e))
    | (redis, .ok ()) => (redis, refuse .notAuthenticated)
  else (redis, validationHandler call.bindErrors)

/-- **A stranger changes nothing but a counter.** -/
theorem respond_stranger (hkey : Ascii d.api.externalApiKey) (h : Stranger d call) (redis : Redis)
    (db : δ) :
    respond d call redis db =
      ((refuseStranger d call redis).1, db, (refuseStranger d call redis).2) := by
  unfold respond refuseStranger
  by_cases hbind : call.bindErrors = []
  · rw [if_pos hbind, if_pos hbind]
    rcases charge d call redis with ⟨redis, _ | _⟩
    · rfl
    · simp only [check_stranger hkey h]
  · rw [if_neg hbind, if_neg hbind]

/-- The answers to strangers, one after the other. -/
def refuseAll (d : Deployment ι δ) : List (Call ι) → Redis → Redis × List Response
  | [], redis => (redis, [])
  | call :: calls, redis =>
    let (redis, response) := refuseStranger d call redis
    let (redis, responses) := refuseAll d calls redis
    (redis, response :: responses)

/-- **What strangers see.** Induction on the run: each leaves the data as they are. -/
theorem serve_stranger (hkey : Ascii d.api.externalApiKey) {calls : List (Call ι)}
    (h : ∀ call ∈ calls, Stranger d call) (redis : Redis) (db : δ) :
    serve d calls redis db = ((refuseAll d calls redis).1, db, (refuseAll d calls redis).2) := by
  induction calls generalizing redis with
  | nil => rfl
  | cons call calls ih =>
    have hhead := respond_stranger hkey (h call List.mem_cons_self) redis db
    rw [serve, refuseAll, hhead]
    simp only [ih fun call hcall => h call (List.mem_cons_of_mem _ hcall)]

/-- The capacities of the two budgets are all that a stranger can see of a deployment. -/
theorem refuseAll_congr
    (hread : d.externalApiRateLimitPerMinute = d'.externalApiRateLimitPerMinute)
    (hwrite : d.api.externalWriteRateLimitPerMinute = d'.api.externalWriteRateLimitPerMinute)
    (calls : List (Call ι)) (redis : Redis) :
    refuseAll d calls redis = refuseAll d' calls redis := by
  have hlimit : limitOf d = limitOf d' := by
    funext route
    rw [limitOf, limitOf, hread, writeLimit, writeLimit, hwrite]
  have hone : refuseStranger d = refuseStranger d' := by
    funext call redis
    rw [refuseStranger, refuseStranger, charge, charge, hlimit]
  induction calls generalizing redis with
  | nil => rfl
  | cons call calls ih =>
    rw [refuseAll, refuseAll, hone]
    simp only [ih]

/-- **Strangers cannot tell two deployments apart.** Take two deployments with the same capacities:
they may have different keys, one of them may have no key at all, their write gates and their
features may be set differently, and their services and their data may be different. Requests
without the key of either are answered the same by both, and leave the data of both as they are. -/
theorem serve_opaque (hkey : Ascii d.api.externalApiKey) (hkey' : Ascii d'.api.externalApiKey)
    (hread : d.externalApiRateLimitPerMinute = d'.externalApiRateLimitPerMinute)
    (hwrite : d.api.externalWriteRateLimitPerMinute = d'.api.externalWriteRateLimitPerMinute)
    {calls : List (Call ι)} (h : ∀ call ∈ calls, Stranger d call)
    (h' : ∀ call ∈ calls, Stranger d' call) (redis : Redis) (db db' : δ) :
    (serve d calls redis db).2.2 = (serve d' calls redis db').2.2 ∧
      (serve d calls redis db).2.1 = db ∧ (serve d' calls redis db').2.1 = db' := by
  rw [serve_stranger hkey h, serve_stranger hkey' h', refuseAll_congr hread hwrite]
  exact ⟨rfl, rfl, rfl⟩

end Serving

/-- A deployment with a key, an open gate, and a service that counts the requests it sees. -/
def configured : Deployment Unit ℕ where
  api := { externalApiKey := "k1".toList, externalWriteEnabled := true }
  outlookOauthEnabled := true
  handle _ _ db := (db + 1, { statusCode := 200, content := .null })

/-- A deployment without a key. -/
def unconfigured : Deployment Unit ℕ where
  handle _ _ db := (db, domainHandler notFoundError)

/-- A request to send a message, with a key that is a guess. -/
def guess : Call Unit where
  route := .mailboxSend
  request := ⟨none, some "k2".toList, none, none⟩
  input := ()
  times := ⟨0, 0, 0⟩

/-- Two guesses, with a key configured and without. -/
theorem serve_opaque_guess :
    (serve configured [guess, guess] (fun _ => none) 5).2.2 =
        (serve unconfigured [guess, guess] (fun _ => none) 9).2.2 ∧
      (serve configured [guess, guess] (fun _ => none) 5).2.1 = 5 ∧
      (serve unconfigured [guess, guess] (fun _ => none) 9).2.1 = 9 := by
  have hascii : ∀ key ∈ providedKey guess.request, Ascii key := by
    rintro key ⟨⟩
    unfold Ascii
    decide
  have hconfigured : Stranger configured guess := ⟨by decide, hascii, fun _ => by decide⟩
  have hunconfigured : Stranger unconfigured guess := ⟨by decide, hascii, fun h => absurd rfl h⟩
  have h : ∀ call ∈ [guess, guess], Stranger configured call := by simpa using hconfigured
  have h' : ∀ call ∈ [guess, guess], Stranger unconfigured call := by simpa using hunconfigured
  have hread : configured.externalApiRateLimitPerMinute =
      unconfigured.externalApiRateLimitPerMinute := rfl
  have hwrite : configured.api.externalWriteRateLimitPerMinute =
      unconfigured.api.externalWriteRateLimitPerMinute := rfl
  exact serve_opaque (by unfold Ascii; decide) (by unfold Ascii; decide) hread hwrite h h' _ 5 9

/-! ## The budgets -/

section Budgets

variable {ι δ : Type} {d : Deployment ι δ} {call : Call ι}

/-- The key of the counter that a request is charged to. -/
def counterOf (d : Deployment ι δ) (call : Call ι) : Text :=
  chargedKey (limitOf d call.route) call.request

/-- The requests of a run that were bound, with the verdict of the limiter on each. -/
def verdicts (d : Deployment ι δ) :
    List (Call ι) → Redis → δ → List (Call ι × Except RateLimited Unit)
  | [], _, _ => []
  | call :: calls, redis, db =>
    let (redis', db', _) := respond d call redis db
    if call.bindErrors = [] then (call, (charge d call redis).2) :: verdicts d calls redis' db'
    else verdicts d calls redis' db'

section Counters

variable {redis redis' : Redis} {key : Text}

theorem get_congr (h : redis key = redis' key) (now : ℕ) :
    redis.get now key = redis'.get now key := by
  rw [Redis.get, Redis.get, h]

theorem incr_congr (h : redis key = redis' key) (now : ℕ) :
    (redis.incr now key).1 key = (redis'.incr now key).1 key ∧
      (redis.incr now key).2 = (redis'.incr now key).2 := by
  simp only [Redis.incr, get_congr h now, Function.update_self, and_self]

theorem expireNx_congr (h : redis key = redis' key) (now seconds : ℕ) :
    redis.expireNx now key seconds key = redis'.expireNx now key seconds key := by
  rw [Redis.expireNx, Redis.expireNx, get_congr h now]
  cases redis'.get now key with
  | none => exact h
  | some c =>
    by_cases hc : c.expiresAt = none
    · simp only [if_pos hc, Function.update_self]
    · simp only [if_neg hc]
      exact h

theorem ttl_congr (h : redis key = redis' key) (now : ℕ) :
    redis.ttl now key = redis'.ttl now key := by
  rw [Redis.ttl, Redis.ttl, get_congr h now]

/-- **A call sees its own counter only.** -/
theorem consume_congr (limit : Limit) (key : Text) (times : CommandTimes)
    (h : redis (redisKey limit key) = redis' (redisKey limit key)) :
    (consume limit key times redis).2 = (consume limit key times redis').2 ∧
      (consume limit key times redis).1 (redisKey limit key) =
        (consume limit key times redis').1 (redisKey limit key) := by
  obtain ⟨hcount, hvalue⟩ := incr_congr h times.incr
  have hcount' := expireNx_congr hcount times.expire limit.windowSeconds
  have httl := ttl_congr hcount' times.ttl
  unfold consume countRequest
  by_cases hkey : key = []
  · rw [if_pos hkey, if_pos hkey]
    exact ⟨rfl, h⟩
  · rw [if_neg hkey, if_neg hkey]
    simp only [hvalue, httl]
    split_ifs <;> exact ⟨rfl, hcount'⟩

end Counters

/-- What a request does to the counters does not depend on the services. -/
theorem respond_fst (d : Deployment ι δ) (call : Call ι) (redis : Redis) (db : δ) :
    (respond d call redis db).1 =
      if call.bindErrors = [] then (charge d call redis).1 else redis := by
  unfold respond
  by_cases hbind : call.bindErrors = []
  · rw [if_pos hbind, if_pos hbind]
    rcases charge d call redis with ⟨redis, _ | _⟩
    · rfl
    · simp only
      cases check d call <;> rfl
  · rw [if_neg hbind, if_neg hbind]

/-- A request leaves the counters alone that it is not charged to. -/
theorem respond_of_ne {key : Text} (h : key ≠ counterOf d call) (redis : Redis) (db : δ) :
    (respond d call redis db).1 key = redis key := by
  rw [respond_fst]
  split_ifs
  · exact consume_of_ne _ _ _ _ h
  · rfl

/-- **Separate budgets.** If the requests of a kind share no counter with the others, then their
verdicts in a run are those of the run without the others.

**Proof sketch.** Induction on the run, over counters that agree for the requests of the kind. A
request of the kind sees its own counter only, and leaves counters that agree; any other leaves all
of these as they are. -/
theorem filter_verdicts {P : Call ι → Bool}
    (hP : ∀ c c' : Call ι, P c = true → P c' = false → counterOf d c ≠ counterOf d c')
    (calls : List (Call ι)) {redis redis' : Redis} (db db' : δ)
    (h : ∀ c, P c = true → redis (counterOf d c) = redis' (counterOf d c)) :
    (verdicts d calls redis db).filter (fun v => P v.1) =
      verdicts d (calls.filter P) redis' db' := by
  induction calls generalizing redis redis' db db' with
  | nil => rfl
  | cons call calls ih =>
    rw [verdicts]
    by_cases hcall : P call = true
    · have hsame := consume_congr (limitOf d call.route) ("ip:".toList ++ clientIp call.request)
        call.times (h call hcall)
      have hnext : ∀ c, P c = true → (respond d call redis db).1 (counterOf d c) =
          (respond d call redis' db').1 (counterOf d c) := by
        intro c hc
        by_cases hkey : counterOf d c = counterOf d call
        · rw [respond_fst, respond_fst, hkey]
          split_ifs
          · exact hsame.2
          · exact h call hcall
        · rw [respond_of_ne hkey, respond_of_ne hkey]
          exact h c hc
      rw [List.filter_cons_of_pos hcall, verdicts]
      by_cases hbind : call.bindErrors = []
      · simp only [if_pos hbind]
        rw [List.filter_cons_of_pos (by exact hcall), ih _ _ hnext]
        exact congrArg (· :: _) (Prod.ext rfl hsame.1)
      · simp only [if_neg hbind]
        exact ih _ _ hnext
    · rw [List.filter_cons_of_neg hcall]
      have hnext : ∀ c, P c = true → (respond d call redis db).1 (counterOf d c) =
          redis' (counterOf d c) := by
        intro c hc
        rw [respond_of_ne (hP c call hc (Bool.not_eq_true _ ▸ hcall))]
        exact h c hc
      by_cases hbind : call.bindErrors = []
      · simp only [if_pos hbind]
        rw [List.filter_cons_of_neg (by exact hcall)]
        exact ih _ _ hnext
      · simp only [if_neg hbind]
        exact ih _ _ hnext

/-- Reading and writing are charged to different counters. -/
theorem counterOf_ne {c c' : Call ι} (h : c.route.isRead = true) (h' : c'.route.isRead = false) :
    counterOf d c ≠ counterOf d c' := by
  have hread : (limitOf d c.route).name = "external_api".toList := by rw [limitOf, if_pos h]; rfl
  have hwrite : (limitOf d c'.route).name = "external_write".toList := by
    rw [limitOf, if_neg (by simp [h'])]
    rfl
  intro heq
  rw [counterOf, counterOf, chargedKey, chargedKey, redisKey, redisKey, hread, hwrite] at heq
  have hchar := congrArg (fun text : Text => text[12]?) heq
  simp at hchar

/-- One counter is charged for one address. -/
theorem clientIp_of_counterOf_eq {c c' : Call ι} (h : counterOf d c = counterOf d c') :
    clientIp c.request = clientIp c'.request := by
  have hread : c.route.isRead = c'.route.isRead := by
    by_contra hne
    cases hc : c.route.isRead <;> cases hc' : c'.route.isRead
    · exact hne (hc.trans hc'.symm)
    · exact counterOf_ne hc' hc h.symm
    · exact counterOf_ne hc hc' h
    · exact hne (hc.trans hc'.symm)
  have hlimit : limitOf d c.route = limitOf d c'.route := by
    rw [limitOf, limitOf, hread]
  rw [counterOf, counterOf, hlimit] at h
  exact (chargedKey_eq_iff _ _ _).mp h

/-- **The budgets of reading and writing are separate, and so are those of different addresses.** In
a run of requests, the verdicts on the reading ones are those of the run without the writing ones,
and the other way around; and the verdicts on the requests of an address are those of the run
without the other addresses.

**Proof sketch.** A verdict reads and writes the counter of its own key only. Steps of other keys
leave that counter alone, and time is shared; so the verdicts of a key in a run are those of the run
without the steps of the other keys. -/
theorem verdicts_isolated (d : Deployment ι δ) (calls : List (Call ι)) (redis : Redis) (db : δ) :
    (∀ read : Bool, (verdicts d calls redis db).filter (fun v => v.1.route.isRead == read) =
        verdicts d (calls.filter fun c => c.route.isRead == read) redis db) ∧
      ∀ ip : Text, (verdicts d calls redis db).filter (fun v => clientIp v.1.request == ip) =
        verdicts d (calls.filter fun c => clientIp c.request == ip) redis db := by
  constructor
  · intro read
    refine filter_verdicts (P := fun c => c.route.isRead == read) (fun c c' hc hc' => ?_) calls db
      db fun _ _ => rfl
    cases read with
    | true =>
      rw [beq_iff_eq] at hc
      exact counterOf_ne hc (by simpa using hc')
    | false =>
      rw [beq_iff_eq] at hc
      exact (counterOf_ne (by simpa using hc') hc).symm
  · intro ip
    refine filter_verdicts (P := fun c => clientIp c.request == ip) (fun c c' hc hc' heq => ?_)
      calls db db fun _ _ => rfl
    rw [beq_iff_eq] at hc
    rw [← clientIp_of_counterOf_eq heq, hc] at hc'
    simp at hc'

end Budgets

end Gateway

end MailAggregator
