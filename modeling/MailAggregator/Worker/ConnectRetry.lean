import MailAggregator.Worker.SyncAccount

set_option relaxedAutoImplicit false
set_option autoImplicit false

/-!
# Connecting, with retries

An attempt opens a connection and then authenticates. The handler of the loop stands around the
second step alone: what the opening raises leaves the loop at once, while a retryable failure of the
login is repeated as long as the budget lasts.

## Main definitions

* `MailAggregator.ConnectRetry.Retryable` — the failures that are worth another attempt.
* `MailAggregator.ConnectRetry.connectAndLogin` — the loop.
* `MailAggregator.ConnectRetry.Covered` — what a retry of both steps promises.

## Main results

* `MailAggregator.ConnectRetry.loggedOut_of_opened` — a mailbox is returned or logged out.
* `MailAggregator.ConnectRetry.covered_iff` — exactly when both steps are covered.
-/

namespace MailAggregator

open PyText ErrorClassify

namespace ConnectRetry

/-! ## What is retried -/

/-- `_RETRYABLE_ERRNOS`: `ECONNREFUSED`, `ECONNRESET`, `EHOSTUNREACH`, `ENETUNREACH`. -/
def retryableErrnos : List ℕ := [111, 104, 113, 101]

/-- `_RETRYABLE_IMAP_SUBSTRINGS`. -/
def retryableImapSubstrings : List Text :=
  ["authenticated but not connected", "not connected", "try again", "temporarily",
    "too many"].map String.toList

/-- `_PERMANENT_IMAP_SUBSTRINGS_PASSWORD`. -/
def permanentImapSubstringsPassword : List Text :=
  ["authenticationfailed", "login failed", "invalid credentials", "account is disabled",
    "account has been blocked"].map String.toList

/-- `_PERMANENT_IMAP_SUBSTRINGS_OAUTH`. -/
def permanentImapSubstringsOauth : List Text :=
  ["invalid credentials", "account is disabled", "account has been blocked"].map String.toList

/-- `_RETRYABLE_IMAP_SUBSTRINGS_OAUTH`. -/
def retryableImapSubstringsOauth : List Text :=
  retryableImapSubstrings ++ ["login failed", "authenticationfailed"].map String.toList

/-- `_is_retryable_connect_error`. -/
def isRetryableConnectError (exc : PyException) : Bool :=
  if exc.IsInstance [.timeoutError] then false
  else if exc.IsInstance [.gaierror, .connectionError] then true
  else if exc.IsInstance [.osError] then exc.errno.any (· ∈ retryableErrnos)
  else false

/-- `_is_retryable_imap_error`. -/
def isRetryableImapError (oauth : Bool) (exc : PyException) : Bool :=
  if ¬ exc.IsInstance [.imap4Error, .imap4Abort] then false
  else
    let permanent :=
      if oauth then permanentImapSubstringsOauth else permanentImapSubstringsPassword
    let retryable := if oauth then retryableImapSubstringsOauth else retryableImapSubstrings
    let text := lower exc.text
    if HasAny text permanent then false else HasAny text retryable

/-- A failure that is worth another attempt. -/
def Retryable (oauth : Bool) (exc : PyException) : Prop :=
  isRetryableConnectError exc ∨ isRetryableImapError oauth exc

instance (oauth : Bool) : DecidablePred (Retryable oauth) :=
  fun exc => inferInstanceAs (Decidable (isRetryableConnectError exc ∨ _))

/-! ## The loop -/

/-- What an account is connected with, and how each attempt ends. -/
structure ConnectWorld where
  password : Option Text
  accessToken : Option Text
  /-- `SYNC_OAUTH_LOGIN_FAILED_TRANSIENT`. -/
  oauthLoginFailedTransient : Bool := true
  /-- How the opening of each attempt ends. -/
  opening : ℕ → Except PyException Unit
  /-- How `login` or `xoauth2` of each attempt ends. -/
  login : ℕ → Except PyException Unit

/-- How an attempt ends. -/
inductive AttemptEnd where
  | openingFailed (exc : PyException)
  | loginFailed (exc : PyException)
  | success

/-- The failure of an attempt. -/
def AttemptEnd.failure : AttemptEnd → Option PyException
  | openingFailed exc | loginFailed exc => some exc
  | success => none

/-- How the loop ends: with the mailbox of an attempt, or with what an attempt has raised. -/
inductive ConnectEnd where
  | returned (attempt : ℕ)
  | raised (attempt : ℕ) (exc : PyException)

/-- The end of the loop, how many attempts it has made, the mailboxes that it has opened and those
that it has tried to log out, by attempt, and how long it has slept in between. -/
structure ConnectTrace where
  result : ConnectEnd
  attempts : ℕ
  opened : List ℕ := []
  loggedOut : List ℕ := []
  sleptMs : List ℕ := []

/-- `_RETRY_BACKOFFS`, in milliseconds. -/
def retryBackoffsMs : List ℕ := [500, 1000, 2000]

/-- The backoff after an attempt: the last one of the schedule is repeated. -/
def backoffMs (attempt : ℕ) : ℕ :=
  retryBackoffsMs.getD (min attempt (retryBackoffsMs.length - 1)) 0

/-- The `AssertionError` of an account without credentials. -/
def noCredentials : PyException :=
  SyncCycle.assertionError "fetch_blocking needs a password or an access_token".toList

variable (w : ConnectWorld)

/-- The authentication of an attempt. -/
def authenticate (attempt : ℕ) : Except PyException Unit :=
  match w.accessToken, w.password with
  | none, none => .error noCredentials
  | _, _ => w.login attempt

/-- How an attempt ends. -/
def attemptEnd (attempt : ℕ) : AttemptEnd :=
  match w.opening attempt with
  | .error exc => .openingFailed exc
  | .ok () =>
    match authenticate w attempt with
    | .error exc => .loginFailed exc
    | .ok () => .success

/-- The tolerance for failed logins: it is that of the XOAUTH2 path, if the switch is on. -/
def ConnectWorld.oauth : Bool := w.accessToken.isSome && w.oauthLoginFailedTransient

/-- The loop from an attempt on, with so many retries left. -/
def connectLoop : ℕ → ℕ → ConnectTrace
  | retries, attempt =>
    match attemptEnd w attempt with
    -- `_open_mailbox` stands outside of the `try`
    | .openingFailed exc => { result := .raised attempt exc, attempts := attempt + 1 }
    | .success => { result := .returned attempt, attempts := attempt + 1, opened := [attempt] }
    | .loginFailed exc =>
      match retries with
      | 0 =>
        { result := .raised attempt exc, attempts := attempt + 1, opened := [attempt],
          loggedOut := [attempt] }
      | retries + 1 =>
        if Retryable w.oauth exc then
          let later := connectLoop retries (attempt + 1)
          { later with
            opened := attempt :: later.opened
            -- an exception of `logout` is suppressed
            loggedOut := attempt :: later.loggedOut
            sleptMs := backoffMs attempt :: later.sleptMs }
        else
          { result := .raised attempt exc, attempts := attempt + 1, opened := [attempt],
            loggedOut := [attempt] }

/-- `_connect_and_login`, with `SYNC_CONNECT_RETRIES`. -/
def connectAndLogin (retries : ℕ) : ConnectTrace := connectLoop w retries 0

/-! ## What the loop promises -/

/-- An attempt fails, at its opening or its login, in a way that is worth another attempt. -/
def FailsRetryably (attempt : ℕ) : Prop :=
  ∃ exc ∈ (attemptEnd w attempt).failure, Retryable w.oauth exc

/-- The attempts from one on, up to another, all fail in such a way. -/
def FailUntil (first attempt : ℕ) : Prop := ∀ i, first ≤ i → i < attempt → FailsRetryably w i

/-- **A retry of both steps**, from an attempt on and up to the last one. -/
structure Covered (first last : ℕ) (t : ConnectTrace) : Prop where
  attempts_le : t.attempts ≤ last + 1
  /-- After retryable failures, the mailbox of the first success is returned. -/
  returned : ∀ k, first ≤ k → k ≤ last → FailUntil w first k → attemptEnd w k = .success →
    t.result = .returned k
  /-- A failure that is not retryable is raised at once. -/
  raised : ∀ k exc, first ≤ k → k ≤ last → FailUntil w first k →
    exc ∈ (attemptEnd w k).failure → ¬ Retryable w.oauth exc →
    t.result = .raised k exc ∧ t.attempts = k + 1
  /-- When the budget is used up, the last failure is raised. -/
  exhausted : FailUntil w first (last + 1) →
    ∃ exc ∈ (attemptEnd w last).failure, t.result = .raised last exc ∧ t.attempts = last + 1
  /-- A mailbox that was opened and is not returned was tried to be logged out. -/
  loggedOut : ∀ k ∈ t.opened, t.result ≠ .returned k → k ∈ t.loggedOut

/-- **No opening is missed**: where the attempts before it have all failed retryably, an opening
before the last attempt does not fail retryably. -/
def OpeningsHold (first last : ℕ) : Prop :=
  ∀ k exc, first ≤ k → k < last → FailUntil w first k →
    attemptEnd w k = .openingFailed exc → ¬ Retryable w.oauth exc

section Loop

variable {w} {first last k retries : ℕ} {exc : PyException} {t : ConnectTrace}

theorem failUntil_self : FailUntil w first first := fun _ hle hlt => absurd hlt (not_lt.mpr hle)

theorem failUntil_iff (h : first < k) :
    FailUntil w first k ↔ FailsRetryably w first ∧ FailUntil w (first + 1) k := by
  constructor
  · exact fun hfail => ⟨hfail first le_rfl h, fun i hle hlt => hfail i (by omega) hlt⟩
  · rintro ⟨hfirst, hlater⟩ i hle hlt
    rcases eq_or_lt_of_le hle with rfl | hlt'
    · exact hfirst
    · exact hlater i hlt' hlt

theorem failsRetryably_iff (h : exc ∈ (attemptEnd w k).failure) :
    FailsRetryably w k ↔ Retryable w.oauth exc := by
  constructor
  · rintro ⟨exc', hexc', hretryable⟩
    obtain rfl : exc' = exc := Option.mem_unique hexc' h
    exact hretryable
  · exact fun hretryable => ⟨exc, h, hretryable⟩

theorem not_failsRetryably_of_success (h : attemptEnd w k = .success) : ¬ FailsRetryably w k := by
  rintro ⟨exc, hexc, -⟩
  rw [h] at hexc
  cases hexc

/-- An attempt that does not fail retryably, or is the last one, is where both steps would stop. -/
theorem exists_decisive (first n : ℕ) :
    ∃ k, first ≤ k ∧ k ≤ first + n ∧ FailUntil w first k ∧
      (k = first + n ∨ ¬ FailsRetryably w k) := by
  induction n generalizing first with
  | zero => exact ⟨first, le_rfl, le_rfl, failUntil_self, Or.inl rfl⟩
  | succ n ih =>
    by_cases hfirst : FailsRetryably w first
    · obtain ⟨k, hle, hlast, huntil, hstop⟩ := ih (first + 1)
      refine ⟨k, by omega, by omega, (failUntil_iff (by omega)).mpr ⟨hfirst, huntil⟩, ?_⟩
      exact hstop.imp_left fun h => by omega
    · exact ⟨first, le_rfl, by omega, failUntil_self, Or.inr hfirst⟩

/-! ### Where the loop stops -/

/-- A stop with the failure of an attempt that is the last one or not retryable. -/
theorem covered_of_raised (hle : first ≤ last) (hfailure : exc ∈ (attemptEnd w first).failure)
    (hstop : first = last ∨ ¬ Retryable w.oauth exc) (hresult : t.result = .raised first exc)
    (hattempts : t.attempts = first + 1) (hlogout : ∀ k ∈ t.opened, k ∈ t.loggedOut) :
    Covered w first last t := by
  have hlater {k : ℕ} (hlt : first < k) (hk : k ≤ last) : ¬ FailUntil w first k := by
    intro huntil
    have hretryable := (failsRetryably_iff hfailure).mp (huntil first le_rfl hlt)
    rcases hstop with rfl | hnot
    · omega
    · exact hnot hretryable
  refine ⟨by omega, fun k hge hk huntil hsuccess => ?_, fun k exc' hge hk huntil hexc' _ => ?_,
    fun huntil => ?_, fun k hk _ => hlogout k hk⟩
  · rcases eq_or_lt_of_le hge with rfl | hlt
    · rw [hsuccess] at hfailure
      cases hfailure
    · exact absurd huntil (hlater hlt hk)
  · rcases eq_or_lt_of_le hge with rfl | hlt
    · obtain rfl : exc' = exc := Option.mem_unique hexc' hfailure
      exact ⟨hresult, hattempts⟩
    · exact absurd huntil (hlater hlt hk)
  · have hretryable := (failsRetryably_iff hfailure).mp (huntil first le_rfl (by omega))
    rcases hstop with rfl | hnot
    · exact ⟨exc, hfailure, hresult, hattempts⟩
    · exact absurd hretryable hnot

/-- A stop with a mailbox. -/
theorem covered_of_returned (hle : first ≤ last) (hsuccess : attemptEnd w first = .success)
    (hresult : t.result = .returned first) (hattempts : t.attempts = first + 1)
    (hopened : t.opened = [first]) : Covered w first last t := by
  have hlater {k : ℕ} (hlt : first < k) : ¬ FailUntil w first k := fun huntil =>
    not_failsRetryably_of_success hsuccess (huntil first le_rfl hlt)
  refine ⟨by omega, fun k hge _ huntil _ => ?_, fun k exc' hge _ huntil hexc' _ => ?_,
    fun huntil => absurd huntil (hlater (by omega)), fun k hk hnot => ?_⟩
  · rcases eq_or_lt_of_le hge with rfl | hlt
    · exact hresult
    · exact absurd huntil (hlater hlt)
  · rcases eq_or_lt_of_le hge with rfl | hlt
    · rw [hsuccess] at hexc'
      cases hexc'
    · exact absurd huntil (hlater hlt)
  · rw [hopened, List.mem_singleton] at hk
    rw [hk] at hnot
    exact absurd hresult hnot

/-- The loop goes on after a login that has failed retryably.

**Proof sketch.** The first attempt has failed retryably, so that a later one decides in either
range. What is promised about attempts from the second on is the same for both; the first one itself
is opened and logged out. -/
theorem covered_of_retried (hlt : first < last) (hfailed : FailsRetryably w first)
    (hlogout : ∀ k ∈ t.opened, t.result ≠ .returned k → k ∈ t.loggedOut) (sleptMs : List ℕ) :
    Covered w first last
        { t with opened := first :: t.opened, loggedOut := first :: t.loggedOut, sleptMs } ↔
      Covered w (first + 1) last t := by
  have huntil {k : ℕ} (hk : first + 1 ≤ k) :
      FailUntil w first k ↔ FailUntil w (first + 1) k := by
    rw [failUntil_iff (by omega), and_iff_right hfailed]
  constructor
  · intro h
    exact ⟨h.attempts_le,
      fun k hge hk hfail => h.returned k (by omega) hk ((huntil hge).mpr hfail),
      fun k exc hge hk hfail => h.raised k exc (by omega) hk ((huntil hge).mpr hfail),
      fun hfail => h.exhausted ((huntil (by omega)).mpr hfail), hlogout⟩
  · intro h
    refine ⟨h.attempts_le, fun k hge hk hfail hsuccess => ?_,
      fun k exc hge hk hfail hexc hnot => ?_,
      fun hfail => h.exhausted ((huntil (by omega)).mp hfail), fun k hk hnot => ?_⟩
    · rcases eq_or_lt_of_le hge with rfl | hlt'
      · exact absurd hfailed (not_failsRetryably_of_success hsuccess)
      · exact h.returned k hlt' hk ((huntil hlt').mp hfail) hsuccess
    · rcases eq_or_lt_of_le hge with rfl | hlt'
      · exact absurd ((failsRetryably_iff hexc).mp hfailed) hnot
      · exact h.raised k exc hlt' hk ((huntil hlt').mp hfail) hexc hnot
    · rcases List.mem_cons.mp hk with rfl | hk
      · exact List.mem_cons_self
      · exact List.mem_cons_of_mem _ (hlogout k hk hnot)

/-- A failure of the opening that is retryable and not the last one is not covered.

**Proof sketch.** The loop has ended at the first attempt, although there are attempts left. Some
later attempt decides what should have happened: it succeeds, it fails for good, or it is the last
one. Each of these promises an end at that attempt, which is not the first. -/
theorem not_covered_of_openingFailed (hlt : first < last) (hfailed : FailsRetryably w first)
    (hresult : t.result = .raised first exc) : ¬ Covered w first last t := by
  intro h
  obtain ⟨n, rfl⟩ := Nat.exists_eq_add_of_le hlt.le
  obtain ⟨k, hge, hk, huntil, hstop⟩ := exists_decisive (w := w) first n
  have hne : k ≠ first := by
    rintro rfl
    rcases hstop with hlast | hnot
    · omega
    · exact hnot hfailed
  by_cases hk' : FailsRetryably w k
  · -- the budget is used up later on
    obtain rfl : k = first + n := hstop.resolve_right (not_not.mpr hk')
    have hall : FailUntil w first (first + n + 1) := by
      intro i hi hlt'
      rcases Nat.lt_succ_iff_lt_or_eq.mp hlt' with hlt' | rfl
      · exact huntil i hi hlt'
      · exact hk'
    obtain ⟨exc', -, hraised, -⟩ := h.exhausted hall
    rw [hresult, ConnectEnd.raised.injEq] at hraised
    exact hne hraised.1.symm
  · cases hend : attemptEnd w k with
    | success =>
      have hreturned := h.returned k hge hk huntil hend
      rw [hresult] at hreturned
      cases hreturned
    | openingFailed exc' | loginFailed exc' =>
      have hexc' : exc' ∈ (attemptEnd w k).failure := by rw [hend]; rfl
      obtain ⟨hraised, -⟩ := h.raised k exc' hge hk huntil hexc'
        fun hretryable => hk' ((failsRetryably_iff hexc').mpr hretryable)
      rw [hresult, ConnectEnd.raised.injEq] at hraised
      exact hne hraised.1.symm

/-! ### The loop -/

/-- **A mailbox that was opened is returned, or tried to be logged out.** -/
theorem loggedOut_of_opened (retries attempt : ℕ) :
    ∀ k ∈ (connectLoop w retries attempt).opened,
      (connectLoop w retries attempt).result ≠ .returned k →
        k ∈ (connectLoop w retries attempt).loggedOut := by
  induction retries generalizing attempt with
  | zero =>
    unfold connectLoop
    cases attemptEnd w attempt with
    | openingFailed exc => simp
    | success => simp
    | loginFailed exc => simp
  | succ retries ih =>
    unfold connectLoop
    cases attemptEnd w attempt with
    | openingFailed exc => simp
    | success => simp
    | loginFailed exc =>
      by_cases hretryable : Retryable w.oauth exc
      · simp only [if_pos hretryable]
        intro k hk hnot
        rcases List.mem_cons.mp hk with rfl | hk
        · exact List.mem_cons_self
        · exact List.mem_cons_of_mem _ (ih (attempt + 1) k hk hnot)
      · simp [if_neg hretryable]

/-- The openings hold from an attempt on, where it fails retryably at its login, exactly if they
hold from the next one on. -/
theorem openingsHold_of_retried (hlogin : attemptEnd w first = .loginFailed exc)
    (hfailed : FailsRetryably w first) :
    OpeningsHold w first last ↔ OpeningsHold w (first + 1) last := by
  constructor
  · intro h k exc' hge hk hfail hend
    exact h k exc' (by omega) hk ((failUntil_iff (by omega)).mpr ⟨hfailed, hfail⟩) hend
  · intro h k exc' hge hk hfail hend
    rcases eq_or_lt_of_le hge with rfl | hlt
    · rw [hlogin] at hend
      cases hend
    · exact h k exc' hlt hk ((failUntil_iff hlt).mp hfail).2 hend

/-- An attempt that does not fail retryably is the end of the condition on the openings. -/
theorem openingsHold_of_not_failsRetryably (h : ¬ FailsRetryably w first) :
    OpeningsHold w first last := by
  intro k exc' hge _ hfail hend hretryable
  rcases eq_or_lt_of_le hge with rfl | hlt
  · exact h ⟨exc', by rw [hend]; rfl, hretryable⟩
  · exact h (hfail first le_rfl hlt)

/-- **The loop covers its attempts exactly when the openings hold.**

**Proof sketch.** Induction over the retries that are left. An attempt that succeeds or fails with
an error that may not be retried ends the loop, which is what is promised. If the login fails with
one that may be, the next attempt follows in both, and the induction hypothesis is about the rest.
If the opening fails so, the loop ends although it should go on, and the openings do not hold; that
is the only way in which the two sides could differ. -/
theorem covered_connectLoop (retries first : ℕ) :
    Covered w first (first + retries) (connectLoop w retries first) ↔
      OpeningsHold w first (first + retries) := by
  induction retries generalizing first with
  | zero =>
    have hopenings : OpeningsHold w first (first + 0) := fun k _ hge hk => by omega
    refine iff_of_true ?_ hopenings
    unfold connectLoop
    cases hend : attemptEnd w first with
    | openingFailed exc =>
      exact covered_of_raised le_rfl (by rw [hend]; rfl) (Or.inl rfl) rfl rfl (by simp)
    | success => exact covered_of_returned le_rfl hend rfl rfl rfl
    | loginFailed exc =>
      exact covered_of_raised le_rfl (by rw [hend]; rfl) (Or.inl rfl) rfl rfl (by simp)
  | succ retries ih =>
    have hlt : first < first + (retries + 1) := by omega
    unfold connectLoop
    cases hend : attemptEnd w first with
    | openingFailed exc =>
      have hfailure : exc ∈ (attemptEnd w first).failure := by rw [hend]; rfl
      by_cases hretryable : Retryable w.oauth exc
      · have hfailed := (failsRetryably_iff hfailure).mpr hretryable
        refine iff_of_false (not_covered_of_openingFailed hlt hfailed rfl) fun h => ?_
        exact h first exc le_rfl hlt failUntil_self hend hretryable
      · refine iff_of_true
          (covered_of_raised hlt.le hfailure (Or.inr hretryable) rfl rfl (by simp)) ?_
        exact openingsHold_of_not_failsRetryably (mt (failsRetryably_iff hfailure).mp hretryable)
    | success =>
      exact iff_of_true (covered_of_returned hlt.le hend rfl rfl rfl)
        (openingsHold_of_not_failsRetryably (not_failsRetryably_of_success hend))
    | loginFailed exc =>
      have hfailure : exc ∈ (attemptEnd w first).failure := by rw [hend]; rfl
      by_cases hretryable : Retryable w.oauth exc
      · have hfailed := (failsRetryably_iff hfailure).mpr hretryable
        simp only [if_pos hretryable]
        rw [covered_of_retried hlt hfailed (loggedOut_of_opened retries (first + 1)),
          openingsHold_of_retried hend hfailed, show first + (retries + 1) = first + 1 + retries by
            omega]
        exact ih (first + 1)
      · simp only [if_neg hretryable]
        refine iff_of_true
          (covered_of_raised hlt.le hfailure (Or.inr hretryable) rfl rfl (by simp)) ?_
        exact openingsHold_of_not_failsRetryably (mt (failsRetryably_iff hfailure).mp hretryable)

end Loop

/-- **Exactly when the retry covers both steps**: if and only if no opening fails retryably while
the budget lasts, and all attempts before it have failed retryably too.

**Proof sketch.** Induction on the budget. At each attempt both sides are decided by how it ends:
a success, a failure that is not retryable and one that ends the budget are covered; a retryable
failure of the login hands over to the next attempt; and a retryable failure of the opening is
raised, while both steps together would have gone on. -/
theorem covered_iff (w : ConnectWorld) (retries : ℕ) :
    Covered w 0 retries (connectAndLogin w retries) ↔ OpeningsHold w 0 retries := by
  have hloop := covered_connectLoop (w := w) retries 0
  rwa [Nat.zero_add] at hloop

/-- A name that does not resolve at first. -/
def unresolved : PyException where
  typeName := "gaierror".toList
  text := "[Errno -3] Temporary failure in name resolution".toList
  classes := [.gaierror, .osError]

/-- The first opening fails, and everything after it succeeds. -/
def flakyResolver : ConnectWorld where
  password := some "p".toList
  accessToken := none
  opening attempt := if attempt = 0 then .error unresolved else .ok ()
  login _ := .ok ()

/-- With a budget of three retries, one failure of the resolver is raised at once. -/
theorem opening_not_retried :
    Retryable false unresolved ∧ (connectAndLogin flakyResolver 3).attempts = 1 ∧
      ¬ ∀ w retries, Covered w 0 retries (connectAndLogin w retries) := by
  have hretryable : Retryable false unresolved := by decide
  refine ⟨hretryable, rfl, fun h => ?_⟩
  exact (covered_iff flakyResolver 3).mp (h flakyResolver 3) 0 unresolved le_rfl (by decide)
    failUntil_self rfl hretryable

end ConnectRetry

end MailAggregator
