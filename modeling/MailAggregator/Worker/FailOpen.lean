import MailAggregator.Worker.SyncAccount

set_option relaxedAutoImplicit false
set_option autoImplicit false

/-!
# Which exceptions disable a mailbox

An exception anywhere in an attempt, outside the decryption of the stored credentials, with a text
that names no failure of authentication or decryption. The classifier sees the exception but not
where it comes from, so it is not always taken as transient.

## Main definitions

* `MailAggregator.SyncCycle.Raises` — an exception ends an attempt, and where it is raised.
* `MailAggregator.SyncCycle.NoMarker` — a text without the markers of the permanent rules.
* `MailAggregator.SyncCycle.Spared` — the condition under which the exception fails open.

## Main results

* `MailAggregator.SyncCycle.failOpen_iff` — the attempt is recorded transient and the account
  stays active exactly when the condition holds.
* `MailAggregator.SyncCycle.assertion_disables` — a failed assertion while messages are parsed
  disables the mailbox.
-/

namespace MailAggregator

open PyText ErrorClassify

namespace SyncCycle

/-! ## Where an attempt raises -/

/-- The places where an attempt raises, outside the decryption of the stored credentials. -/
inductive RaiseSite where
  /-- The token service. -/
  | token
  /-- `assert_public_host_async`. -/
  | host
  /-- `fetch_blocking`: connecting, searching, fetching, and everything done to a message. -/
  | fetch
  /-- The transactions of the messages and of the success. -/
  | store
  /-- A write to `last_sync_error`. -/
  | record
  deriving DecidableEq, Repr

/-- The exception `exc` is raised in the attempt at a site, and ends it. -/
inductive Raises (S : Settings) (account : MailAccount) (env : SyncEnv) (exc : PyException) :
    RaiseSite → Prop
  | token (hrecord : env.record = none) (hauth : account.authType = .oauthOutlook)
      (hneeds : account.oauthNeedsConsent = false)
      (hstale : OutlookTokenService.cachedAccessToken env.startedAt account = .stale)
      (hrefresh : account.oauthRefreshTokenEncrypted ≠ none) (code : Text)
      (hnot : ¬ exc.IsInstance [.oauthRefreshInvalidError])
      (htoken : env.token = .raised exc code hnot) : Raises S account env exc .token
  | host (hrecord : env.record = none) (persisted : Option (Instant × TokenResponse))
      (hready : resolveCredentials account env = .ready persisted) (message : Text)
      (hhost : env.host = some (exc, message)) : Raises S account env exc .host
  | fetch (hrecord : env.record = none) (persisted : Option (Instant × TokenResponse))
      (hready : resolveCredentials account env = .ready persisted) (hhost : env.host = none)
      (hfetch : env.fetch = .error exc) : Raises S account env exc .fetch
  | store (persisted : Option (Instant × TokenResponse))
      (hready : resolveCredentials account env = .ready persisted) (hhost : env.host = none)
      (box : Option ℕ × ℕ) (hfetch : env.fetch = .ok box) (hstore : env.store = .error exc) :
      Raises S account env exc .store
  | recordError (hrecord : env.record = some exc) (cause : PyException) (detail : Text)
      (persisted : Option (Instant × TokenResponse))
      (hover : HandsOver account env cause detail persisted)
      (hwrites : (handleSyncError S env.now account cause detail).2 ≠ []) :
      Raises S account env exc .record
  | recordMarker (hrecord : env.record = some exc)
      (hneeds : resolveCredentials account env = .needsConsent) : Raises S account env exc .record

/-- The attempt is recorded transient: it returned that outcome, or an exception left it and the
runner records it. -/
def RecordedTransient {account : MailAccount} (att : Attempt account) : Prop :=
  (∃ r, att.result = .ok r ∧ r.outcome = .transient) ∨ ∃ exc, att.result = .error exc

/-! ## The markers -/

/-- The words of rules 8 and 9. -/
def permanentMarkers : List Text :=
  authSubstrings ++ ["invalid_grant", "invalidtag", "decrypt_fail"].map String.toList

/-- A text without the words of rules 8 and 9. -/
def NoMarker (text : Text) : Prop := ¬ HasAny (lower text) permanentMarkers

instance (text : Text) : Decidable (NoMarker text) := inferInstanceAs (Decidable (¬ _))

variable {S : Settings} {account : MailAccount} {env : SyncEnv} {exc : PyException}

theorem hasAny_append (text : Text) (ns ns' : List Text) :
    HasAny text (ns ++ ns') ↔ HasAny text ns ∨ HasAny text ns' := by
  simp only [HasAny, List.mem_append, or_and_right, exists_or]

theorem matchesPermanent_iff (exc : Option PyException) (text : Text) :
    MatchesPermanent exc text ↔ IsInstance exc decryptTypes ∨ HasAny text permanentMarkers := by
  have hlast : HasAny text (["invalid_grant", "invalidtag", "decrypt_fail"].map String.toList) ↔
      Contains "invalid_grant".toList text ∨ Contains "invalidtag".toList text ∨
        Contains "decrypt_fail".toList text := by
    simp only [HasAny, List.map_cons, List.map_nil, List.mem_cons, List.not_mem_nil, or_false,
      exists_eq_or_imp, exists_eq_left]
  rw [permanentMarkers, hasAny_append, hlast, MatchesPermanent]
  exact (or_congr_right or_left_comm).trans or_left_comm

/-- A marker in the text that is classified comes from the name of the type or from the text of the
exception: no marker contains a colon or starts with a space.

**Proof sketch.** The text is the name of the type, a colon, a space and the text of the exception.
A marker without a colon lies on one side of the colon, and if it lies on the right it does not
begin with the space. -/
theorem hasAny_normalise (exc : PyException) :
    HasAny (normalise (.exc exc)).1 permanentMarkers ↔
      HasAny (lower exc.typeName) permanentMarkers ∨ HasAny (lower exc.text) permanentMarkers := by
  have hmarkers : ∀ n ∈ permanentMarkers, ':' ∉ n ∧ n.head?.any (· ≠ ' ') := by decide
  have hsplit : (normalise (.exc exc)).1 =
      lower exc.typeName ++ ':' :: (' ' :: lower exc.text) := by
    rw [normalise, lower_append, lower_append, List.append_assoc]
    rfl
  have hiff : ∀ n ∈ permanentMarkers, (Contains n (normalise (.exc exc)).1 ↔
      Contains n (lower exc.typeName) ∨ Contains n (lower exc.text)) := by
    intro n hn
    obtain ⟨hcolon, hhead⟩ := hmarkers n hn
    rw [hsplit, contains_append_cons hcolon]
    refine or_congr_right ⟨fun h => ?_, fun h => List.infix_cons h⟩
    refine (List.infix_cons_iff.mp h).resolve_left fun hprefix => ?_
    cases n with
    | nil => cases hhead
    | cons c n =>
      obtain rfl := (List.cons_prefix_cons.mp hprefix).1
      simp at hhead
  constructor
  · rintro ⟨n, hn, hc⟩
    rcases (hiff n hn).mp hc with h | h
    · exact Or.inl ⟨n, hn, h⟩
    · exact Or.inr ⟨n, hn, h⟩
  · rintro (⟨n, hn, h⟩ | ⟨n, hn, h⟩)
    · exact ⟨n, hn, (hiff n hn).mpr (Or.inl h)⟩
    · exact ⟨n, hn, (hiff n hn).mpr (Or.inr h)⟩

/-- The exception is not classified permanent: a transient rule matches it, or neither its type nor
the name of its type is that of a credential failure. -/
def NotPermanent (S : Settings) (account : MailAccount) (exc : PyException) : Prop :=
  MatchesTransient (some exc) (normalise (.exc exc)).1 (classifierAuthType S account) ∨
    ¬ exc.IsInstance decryptTypes ∧ NoMarker exc.typeName

theorem classify_eq_transient_iff (htext : NoMarker exc.text) :
    classify (.exc exc) (classifierAuthType S account) = .transient ↔
      NotPermanent S account exc := by
  have hpermanent : MatchesPermanent (some exc) (normalise (.exc exc)).1 ↔
      exc.IsInstance decryptTypes ∨ ¬ NoMarker exc.typeName := by
    rw [matchesPermanent_iff, hasAny_normalise, or_iff_left htext, NoMarker, not_not]
    simp only [IsInstance, Option.mem_def, Option.some.injEq, exists_eq_left']
  unfold classify NotPermanent
  change (if MatchesTransient (some exc) (normalise (.exc exc)).1 _ then ErrorClass.transient
    else if MatchesPermanent (some exc) (normalise (.exc exc)).1 then .permanent
    else .transient) = _ ↔ _
  split_ifs with ht hp
  · simp [ht]
  · simp only [ht, false_or, false_iff, not_and_or, not_not]
    exact hpermanent.mp hp
  · simp only [ht, false_or, true_iff]
    rw [hpermanent, not_or, not_not] at hp
    exact hp

/-! ## The attempt -/

/-- Which exceptions fail open at a site. Only a rejected host is caught there, so any other
exception of the check is recorded by the runner, as are those of the store and of the writes to
`last_sync_error`. -/
def Spared (S : Settings) (account : MailAccount) (exc : PyException) : RaiseSite → Prop
  | .token | .fetch => NotPermanent S account exc
  | .host => ¬ exc.IsInstance [.invalidHostError] ∨ NotPermanent S account exc
  | .store | .record => True

theorem handleSyncError_transient_iff (S : Settings) (now : Instant) (account : MailAccount)
    (exc : PyException) (detail : Text) :
    (handleSyncError S now account exc detail).1.outcome = .transient ↔
      classify (.exc exc) (classifierAuthType S account) = .transient := by
  unfold handleSyncError
  by_cases h : classify (.exc exc) (classifierAuthType S account) = .transient
  · exact iff_of_true (by rw [if_pos h]) h
  · exact iff_of_false (by rw [if_neg h]; exact nofun) h

/-- An exception that is handed over, where the error can be recorded. -/
theorem recordedTransient_of_handsOver {detail : Text}
    {persisted : Option (Instant × TokenResponse)} (hrecord : env.record = none)
    (h : HandsOver account env exc detail persisted) (htext : NoMarker exc.text) :
    RecordedTransient (syncOneAccount S account env) ↔ NotPermanent S account exc := by
  rw [syncOneAccount_of_handsOver h, handled_of_record hrecord, ← classify_eq_transient_iff htext,
    ← handleSyncError_transient_iff S env.now account exc detail]
  constructor
  · rintro (⟨r, hr, htransient⟩ | ⟨e, he⟩)
    · obtain rfl := Except.ok.inj hr
      exact htransient
    · cases he
  · exact fun htransient => Or.inl ⟨_, rfl, htransient⟩

/-- An exception that leaves the attempt. -/
theorem recordedTransient_escaped (writes : List (Instant × RowWrite)) (exc : PyException) :
    RecordedTransient (Attempt.escaped account writes exc) :=
  Or.inr ⟨exc, rfl⟩

/-- **The sites one by one**: an exception is recorded as transient exactly if the site spares it.

**Proof sketch.** By the site that raises. An error of the token, of the host check with its own
class, or of the fetch is handed over to the error handler, and is transient exactly as the
classifier says for it. Everything else leaves the attempt, and the runner records what leaves it as
transient; the condition holds at these sites by definition. -/
theorem recordedTransient_iff {site : RaiseSite} (h : Raises S account env exc site)
    (htext : NoMarker exc.text) :
    RecordedTransient (syncOneAccount S account env) ↔ Spared S account exc site := by
  cases h with
  | token hrecord hauth hneeds hstale hrefresh code hnot htoken =>
    have hfailed : ∃ detail, resolveCredentials account env = .failed exc detail := by
      simp only [resolveCredentials, resolveOauthAccessToken, hauth, hneeds, hstale, htoken,
        if_neg hrefresh]
      by_cases hoauth : exc.IsInstance [.oauthError]
      · exact ⟨_, if_pos hoauth⟩
      · exact ⟨_, if_neg hoauth⟩
    obtain ⟨detail, hfailed⟩ := hfailed
    exact recordedTransient_of_handsOver hrecord (.credentials hfailed) htext
  | host hrecord persisted hready message hhost =>
    by_cases hexc : exc.IsInstance [.invalidHostError]
    · rw [recordedTransient_of_handsOver hrecord (.host hready hhost hexc) htext, Spared,
        or_iff_right (not_not.mpr hexc)]
    · refine iff_of_true ?_ (Or.inl hexc)
      unfold syncOneAccount
      simp only [hready, hhost, if_neg hexc]
      exact recordedTransient_escaped _ exc
  | fetch hrecord persisted hready hhost hfetch =>
    exact recordedTransient_of_handsOver hrecord (.fetch hready hhost hfetch rfl) htext
  | store persisted hready hhost box hfetch hstore =>
    refine iff_of_true ?_ trivial
    unfold syncOneAccount
    simp only [hready, hhost, hfetch, hstore]
    exact recordedTransient_escaped _ exc
  | recordError hrecord cause detail persisted hover hwrites =>
    refine iff_of_true ?_ trivial
    rw [syncOneAccount_of_handsOver hover, handled_of_record_fails hrecord hwrites]
    exact recordedTransient_escaped _ exc
  | recordMarker hrecord hneeds =>
    refine iff_of_true ?_ trivial
    unfold syncOneAccount
    simp only [hneeds, hrecord]
    exact recordedTransient_escaped _ exc

/-! ## The pass -/

section Pass

/-- A pass over some accounts, where each attempt meets its own surroundings. -/
def runPass (S : Settings) (fdiv : ℕ → ℕ → ℚ) (now : Instant) (table accounts : List MailAccount)
    (env : MailAccount → SyncEnv) : PassResult :=
  runForAccounts S fdiv now table accounts fun a => syncOneAccount S a (env a)

variable (S : Settings) (fdiv : ℕ → ℕ → ℚ) (now : Instant) {table accounts : List MailAccount}
  (env : MailAccount → SyncEnv)

/-- A pass does not disable an account whose attempt it records transient. -/
theorem isActive_of_recordedTransient (hn : (accounts.map MailAccount.id).Nodup)
    (ht : (table.map MailAccount.id).Nodup) (ha : account ∈ accounts) {row : MailAccount}
    (hrow : MailAccountsRepo.getById table account.id = some row)
    (h : RecordedTransient (syncOneAccount S account (env account))) :
    ∃ after, MailAccountsRepo.getById (runPass S fdiv now table accounts env).table account.id =
      some after ∧ after.isActive = row.isActive := by
  have hnot : ¬ IsPermanent accounts (fun a => syncOneAccount S a (env a)) account.id := by
    rintro ⟨a, haccounts, hid, r, hr, hpermanent⟩
    obtain rfl := List.inj_on_of_nodup_map hn haccounts ha hid
    rcases h with ⟨r', hr', htransient⟩ | ⟨exc, hexc⟩
    · obtain rfl := Except.ok.inj (hr.symm.trans hr')
      rw [hpermanent] at htransient
      cases htransient
    · rw [hexc] at hr
      cases hr
  obtain ⟨after, hafter, _, hother, _⟩ :=
    (@runForAccounts_spec accounts (fun a => syncOneAccount S a (env a)) S fdiv now table hn ht).2
      account.id row hrow
  exact ⟨after, hafter, (hother hnot).2⟩

/-- **When an exception fails open.** Let an exception be raised in the attempt of an active
account, outside the decryption of its stored credentials, with a text without the words of rules
8 and 9. The attempt is recorded transient and the account is active after the pass exactly when
it is an exception that its site spares. -/
theorem failOpen_iff (hn : (accounts.map MailAccount.id).Nodup)
    (ht : (table.map MailAccount.id).Nodup) (ha : account ∈ accounts) {row : MailAccount}
    (hrow : MailAccountsRepo.getById table account.id = some row) (hactive : row.isActive = true)
    {site : RaiseSite} (hraise : Raises S account (env account) exc site)
    (htext : NoMarker exc.text) :
    (RecordedTransient (syncOneAccount S account (env account)) ∧
        ∃ after, MailAccountsRepo.getById (runPass S fdiv now table accounts env).table
          account.id = some after ∧ after.isActive = true) ↔
      Spared S account exc site := by
  rw [← recordedTransient_iff hraise htext]
  refine and_iff_left_of_imp fun h => ?_
  obtain ⟨after, hafter, heq⟩ := isActive_of_recordedTransient S fdiv now env hn ht ha hrow h
  exact ⟨after, hafter, heq.trans hactive⟩

end Pass

/-! ## One mailbox whose messages do not parse -/

/-- An exception while a message is parsed. -/
def parseFails (exc : PyException) : SyncEnv where
  fetch := .error exc

theorem raises_parseFails (S : Settings) (exc : PyException) :
    Raises S passwordMailbox (parseFails exc) exc .fetch :=
  .fetch rfl none rfl rfl rfl

/-- A pass over the mailbox. -/
def parsePass (exc : PyException) : PassResult :=
  runPass .defaults (fun p t => p / t) 0 [passwordMailbox] [passwordMailbox] fun _ => parseFails exc

/-- A failed assertion while a message is parsed disables the mailbox. -/
theorem assertion_disables :
    ¬ ∀ (S : Settings) (fdiv : ℕ → ℕ → ℚ) (now : Instant) (table accounts : List MailAccount)
      (env : MailAccount → SyncEnv) (account row : MailAccount) (site : RaiseSite)
      (exc : PyException), (accounts.map MailAccount.id).Nodup → (table.map MailAccount.id).Nodup →
      account ∈ accounts → MailAccountsRepo.getById table account.id = some row →
      row.isActive = true → Raises S account (env account) exc site → NoMarker exc.text →
      RecordedTransient (syncOneAccount S account (env account)) ∧
        ∃ after, MailAccountsRepo.getById (runPass S fdiv now table accounts env).table
          account.id = some after ∧ after.isActive = true := by
  intro h
  have hrow : (MailAccountsRepo.getById (parsePass (assertionError [])).table 1).map
      MailAccount.isActive = some false := by decide
  obtain ⟨_, after, hafter, hactive⟩ := h .defaults (fun p t => p / t) 0 [passwordMailbox]
    [passwordMailbox] (fun _ => parseFails (assertionError [])) passwordMailbox passwordMailbox
    .fetch (assertionError []) (by decide) (by decide) (List.mem_singleton.mpr rfl) rfl rfl
    (raises_parseFails _ _) (by decide)
  have heq := congrArg (Option.map MailAccount.isActive) hafter
  rw [Option.map_some, hactive] at heq
  cases heq.symm.trans hrow

/-- The exception of a bad value. -/
def valueError : PyException where
  typeName := "ValueError".toList
  text := "not a valid date".toList

/-- A bad value while a message is parsed leaves the mailbox active. -/
theorem failOpen_valueError :
    ∃ after, MailAccountsRepo.getById (parsePass valueError).table 1 = some after ∧
      after.isActive = true :=
  ((failOpen_iff .defaults (fun p t => p / t) 0 (fun _ => parseFails valueError)
    (by decide) (by decide) (List.mem_singleton.mpr rfl) rfl rfl
    (raises_parseFails .defaults valueError) (by decide)).mpr
    (Or.inr ⟨by decide, by decide⟩)).2

end SyncCycle

end MailAggregator
