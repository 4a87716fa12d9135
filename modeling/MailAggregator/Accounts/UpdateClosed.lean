import MailAggregator.Accounts.UpdateFrame

set_option relaxedAutoImplicit false
set_option autoImplicit false

/-!
# Which outcomes of a mailbox update are documented

A request succeeds, or fails with a domain error, unless an exception of another kind gets out of
the service: a stored secret that does not open, a probe request that its schema refuses, an
exception that the testers do not translate, or an `UPDATE` that the database refuses.

## Main definitions

* `MailAggregator.ExternalMailboxService.Documented` — the outcome is a documented one.
* `MailAggregator.ExternalMailboxService.ProbeRaises`,
  `MailAggregator.ExternalMailboxService.ProbePasses` — how the servers answer a probe.
* `MailAggregator.ExternalMailboxService.Closes` — the condition on a request and a row.

## Main results

* `MailAggregator.MailAccountService.stored_write` — a write keeps the constraints of the table.
* `MailAggregator.ExternalMailboxService.documented_iff` — which outcomes are documented.
* `MailAggregator.ExternalMailboxService.patch_undocumented` — an address that is not one.
-/

namespace MailAggregator

open PyText Credentials MailAccountsRepo MailAccountService Testers

/-! ## Probes -/

namespace Testers

/-- An exception that neither a domain error nor the deadline accounts for. -/
def Raised.Escapes (e : Raised) : Prop := e ≠ .timeoutError ∧ ∀ d, e ≠ .domainError d

section Probe

variable (servers : MailServers) (r : MailAccountTestRequest)

/-- The guard lets a host pass. -/
def HostPasses (host : Text) : Prop :=
  servers.isProd = false ∨ servers.resolve host = .publicAddresses

/-- The resolver raises something that the guard does not translate. -/
def HostRaises (host : Text) : Prop :=
  servers.isProd = true ∧ ∃ e, servers.resolve host = .raised e ∧ e.Escapes

/-- The IMAP stage succeeds. -/
def ImapPasses : Prop :=
  servers.deadline ≠ some .imap ∧ HostPasses servers r.imapHost ∧
    servers.imapLogin r.imapHost r.imapPort r.imapSsl r.email r.password = .ok

/-- In the IMAP stage something is raised that no `except` clause names. -/
def ImapRaises : Prop :=
  servers.deadline ≠ some .imap ∧ (HostRaises servers r.imapHost ∨
    (HostPasses servers r.imapHost ∧ ∃ e, (imapLoginError e).Escapes ∧
      servers.imapLogin r.imapHost r.imapPort r.imapSsl r.email r.password = .raised e))

/-- The login of the SMTP stage. -/
def smtpAnswer : LoginEnd :=
  servers.smtpLogin r.smtpHost r.smtpPort r.smtpSsl r.smtpStarttls
    ((normalizeOptionalLogin r.smtpUsername).getD r.email)
    ((normalizeOptionalSecret r.smtpPassword).getD r.password)

/-- The SMTP stage succeeds. -/
def SmtpPasses : Prop :=
  servers.deadline ≠ some .smtp ∧ HostPasses servers r.smtpHost ∧ smtpAnswer servers r = .ok

/-- In the SMTP stage something is raised that no `except` clause names. -/
def SmtpRaises : Prop :=
  servers.deadline ≠ some .smtp ∧ (HostRaises servers r.smtpHost ∨
    (HostPasses servers r.smtpHost ∧ ∃ e, (smtpLoginError e).Escapes ∧
      smtpAnswer servers r = .raised e))

/-- Both stages succeed. -/
def ProbePasses : Prop := ImapPasses servers r ∧ SmtpPasses servers r

/-- A stage that is reached raises something untranslated. -/
def ProbeRaises : Prop := ImapRaises servers r ∨ (ImapPasses servers r ∧ SmtpRaises servers r)

/-- How a run ends: it succeeds, or it raises something that escapes, or a domain error; `Passes`
and `Raises` tell the first two. -/
structure EndsAs (run : Except Raised Unit) (Passes Raises : Prop) : Prop where
  ok_iff : run = .ok () ↔ Passes
  escapes_iff : (∃ e, run = .error e ∧ e.Escapes) ↔ Raises

variable {servers r}

/-- The guard, on an accepted host and port. -/
theorem assertPublicHost_endsAs (servers : MailServers) {host : Text} {port : ℕ} (hhost : host ≠ [])
    (hport : PortOk (some port)) :
    EndsAs (assertPublicHost servers host port) (HostPasses servers host)
      (HostRaises servers host) := by
  unfold assertPublicHost HostPasses HostRaises
  rw [if_neg hhost, if_neg (not_not.mpr hport)]
  by_cases hprod : servers.isProd
  · simp only [hprod, not_true_eq_false, if_false, Bool.true_eq_false, false_or, true_and]
    cases hres : servers.resolve host with
    | publicAddresses => exact ⟨by simp, by simp⟩
    | privateAddress =>
      exact ⟨by simp, by simp [Raised.Escapes, invalidHostError]⟩
    | unresolvable =>
      exact ⟨by simp, by simp [Raised.Escapes, invalidHostError]⟩
    | raised e => exact ⟨by simp, by simp⟩
  · exact ⟨by simp [hprod], by simp [hprod]⟩

/-- How one run after another ends. -/
theorem EndsAs.andThen {first second : Except Raised Unit} {P R P' R' : Prop}
    (hfirst : EndsAs first P R) (hsecond : EndsAs second P' R') :
    EndsAs (andThen first second) (P ∧ P') (R ∨ (P ∧ R')) := by
  obtain ⟨hok, hescapes⟩ := hfirst
  obtain ⟨hok', hescapes'⟩ := hsecond
  cases first with
  | error e =>
    have hp : ¬ P := fun h => by cases hok.mpr h
    refine ⟨by simp [Testers.andThen, hp], ?_⟩
    rw [← hescapes]
    simp [Testers.andThen, hp]
  | ok u =>
    have hp : P := hok.mp rfl
    have hr : ¬ R := fun h => by
      obtain ⟨e, he, -⟩ := hescapes.mpr h
      cases he
    exact ⟨by simp [Testers.andThen, hp, hok'], by simp [Testers.andThen, hp, hr, hescapes']⟩

/-- A stage under the deadline. -/
theorem EndsAs.withDeadline {run : Except Raised Unit} {P R : Prop} (h : EndsAs run P R)
    (stage : Stage) :
    EndsAs (withDeadline servers stage run) (servers.deadline ≠ some stage ∧ P)
      (servers.deadline ≠ some stage ∧ R) := by
  have hdomain : ∃ d, deadlineError stage = .domainError d := by
    cases stage <;> exact ⟨_, rfl⟩
  obtain ⟨d, hd⟩ := hdomain
  have hnot : ¬ (deadlineError stage).Escapes := fun hesc => hesc.2 d hd
  unfold Testers.withDeadline
  by_cases hdead : servers.deadline = some stage
  · rw [if_pos hdead]
    exact ⟨by simp [hdead], by simp [hdead, hnot]⟩
  · rw [if_neg hdead]
    obtain ⟨hok, hescapes⟩ := h
    constructor
    · rw [← hok]
      split <;> simp [hdead]
    · rw [← hescapes]
      split
      · simp only [Except.error.injEq, exists_eq_left', hnot, hdead, ne_eq, not_false_eq_true,
          true_and, false_iff]
        exact fun hesc => hesc.1 rfl
      · simp [hdead]

/-- The IMAP login, without the guard. -/
theorem imapLogin_endsAs (login : LoginEnd) :
    EndsAs (imapLoginResult login) (login = .ok)
      (∃ e, (imapLoginError e).Escapes ∧ login = .raised e) := by
  cases login with
  | ok => exact ⟨by simp [imapLoginResult], by simp [imapLoginResult]⟩
  | raised e => exact ⟨by simp [imapLoginResult], by simp [imapLoginResult]⟩
  | waitForTimeout =>
    exact ⟨by simp [imapLoginResult],
      by simp [imapLoginResult, Raised.Escapes, imapLoginFailedError]⟩

/-- The SMTP login, without the guard. -/
theorem smtpLogin_endsAs (login : LoginEnd) :
    EndsAs (smtpLoginResult login) (login = .ok)
      (∃ e, (smtpLoginError e).Escapes ∧ login = .raised e) := by
  cases login with
  | ok => exact ⟨by simp [smtpLoginResult], by simp [smtpLoginResult]⟩
  | raised e => exact ⟨by simp [smtpLoginResult], by simp [smtpLoginResult]⟩
  | waitForTimeout =>
    exact ⟨by simp [smtpLoginResult],
      by simp [smtpLoginResult, Raised.Escapes, smtpLoginFailedError]⟩

/-- **How the probe of an accepted request ends.** -/
theorem testCredentials_endsAs (servers : MailServers) (h : r.Accepted) :
    EndsAs (testCredentials servers r) (ProbePasses servers r) (ProbeRaises servers r) := by
  obtain ⟨-, -, himapHost, himapPort, hsmtpHost, hsmtpPort, -, -, hssl, -⟩ := h
  have hssl' : ¬ (r.smtpSsl = true ∧ r.smtpStarttls = true) := hssl
  have himap := (assertPublicHost_endsAs servers
    (List.ne_nil_of_length_pos himapHost.1) himapPort).andThen
      (imapLogin_endsAs (servers.imapLogin r.imapHost r.imapPort r.imapSsl r.email r.password))
  have hsmtp := (assertPublicHost_endsAs servers
    (List.ne_nil_of_length_pos hsmtpHost.1) hsmtpPort).andThen
      (smtpLogin_endsAs (smtpAnswer servers r))
  unfold testCredentials imapTestLogin smtpTestLogin
  rw [if_neg hssl']
  exact (himap.withDeadline .imap).andThen (hsmtp.withDeadline .smtp)

/-- No `TimeoutError` gets out of a stage. -/
theorem withDeadline_ne_timeoutError (stage : Stage) (run : Except Raised Unit) :
    withDeadline servers stage run ≠ .error .timeoutError := by
  intro h
  unfold Testers.withDeadline at h
  have hdead : deadlineError stage ≠ .timeoutError := fun h => by cases stage <;> cases h
  split_ifs at h
  · exact hdead (Except.error.inj h)
  · split at h
    · exact hdead (Except.error.inj h)
    · next hne => exact hne h

/-- No `TimeoutError` gets out of one run after another if none gets out of either. -/
theorem andThen_ne_timeoutError {first second : Except Raised Unit}
    (hfirst : first ≠ .error .timeoutError) (hsecond : second ≠ .error .timeoutError) :
    andThen first second ≠ .error .timeoutError := by
  cases first with
  | error e => exact hfirst
  | ok _ => exact hsecond

/-- Whatever `TimeoutError` gets out of a probe was turned into the one of the deadline. -/
theorem testCredentials_ne_timeoutError : testCredentials servers r ≠ .error .timeoutError :=
  andThen_ne_timeoutError (withDeadline_ne_timeoutError .imap _)
    (withDeadline_ne_timeoutError .smtp _)

/-- What a probe of an accepted request raises: something that escapes, or a domain error. -/
theorem testCredentials_error {e : Raised} (h : testCredentials servers r = .error e) :
    e.Escapes ∨ ∃ d, e = .domainError d := by
  by_cases hd : ∃ d, e = .domainError d
  · exact Or.inr hd
  · refine Or.inl ⟨fun htimeout => ?_, fun d hd' => hd ⟨d, hd'⟩⟩
    exact testCredentials_ne_timeoutError (htimeout ▸ h)

end Probe

end Testers

/-! ## The table -/

namespace MailAccountService

section Table

variable {accounts accounts' : List MailAccount} {accountId : ℕ} {acc : MailAccount}
  {set : MailAccount → MailAccount}

/-- A write that the database accepts. -/
theorem write_ok_iff (set : MailAccount → MailAccount)
    (hget : getById accounts accountId = some acc) :
    (∃ t, write accounts accountId set = .ok t) ↔
      TextsStorable (set acc) ∧ Checked (set acc) ∧ ¬ AddressTaken accounts (set acc) := by
  unfold write updateFields
  rw [hget]
  dsimp only
  split_ifs with htexts hrefused
  · simp only [Except.mapError, reduceCtorEq, exists_false, false_iff]
    rintro ⟨-, hchecked, hfree⟩
    exact hrefused.elim (fun h => h hchecked) hfree
  · rw [not_or, not_not] at hrefused
    simp [Except.mapError, htexts, hrefused]
  · simp [Except.mapError, htexts]

/-- **A write keeps the constraints of the table.**

**Proof sketch.** The written row was checked. Another row is as before, and if it now shares owner
and address with the written row, then the address was taken for the written row. -/
theorem stored_write (hs : Stored accounts) (hid : ∀ a, (set a).id = a.id)
    (h : write accounts accountId set = .ok accounts') : Stored accounts' := by
  have hwritten := write_eq_ok h
  cases hget : getById accounts accountId with
  | none =>
    rw [updateWhereId_of_getById_eq_none hget] at hwritten
    rwa [hwritten]
  | some a =>
    obtain ⟨htexts, hchecked, hfree⟩ := (write_ok_iff _ hget).mp ⟨_, h⟩
    subst hwritten
    have hida := id_of_getById hget
    have hrow : ∀ b ∈ updateWhereId accounts accountId set,
        b = set a ∨ (b ∈ accounts ∧ b.id ≠ accountId) := by
      intro b hb
      obtain ⟨b', hb', rfl⟩ := List.mem_map.mp hb
      split_ifs with hb''
      · have hsame : a = b' :=
          Option.some.inj (hget.symm.trans (hb'' ▸ getById_of_mem hs.ids hb'))
        exact Or.inl (hsame ▸ rfl)
      · exact Or.inr ⟨hb', hb''⟩
    have hids : (set a).id = accountId := (hid a).trans hida
    constructor
    case ids =>
      rw [map_id_updateWhereId hid]
      exact hs.ids
    case texts =>
      intro b hb
      rcases hrow b hb with rfl | ⟨hold, -⟩
      · exact htexts
      · exact hs.texts b hold
    case checks =>
      intro b hb
      rcases hrow b hb with rfl | ⟨hold, -⟩
      · exact hchecked
      · exact hs.checks b hold
    case unique =>
      rintro b hb ⟨c, hc, hne, huser, hemail⟩
      rcases hrow b hb with rfl | ⟨hb, hbid⟩
      · rcases hrow c hc with rfl | ⟨hc, -⟩
        · exact hne rfl
        · exact hfree ⟨c, hc, hne, huser, hemail⟩
      · rcases hrow c hc with rfl | ⟨hc, -⟩
        · exact hfree ⟨b, hb, hids ▸ hbid, huser.symm, hemail.symm⟩
        · exact hs.unique b hb ⟨c, hc, hne, huser, hemail⟩

/-- A write that fails is refused by the database. -/
theorem write_eq_error {e : UpdateError} (h : write accounts accountId set = .error e) :
    ∃ r, e = .refused r := by
  unfold write at h
  cases hrun : updateFields accounts accountId set with
  | error r =>
    rw [hrun] at h
    exact ⟨r, (Except.error.inj h).symm⟩
  | ok t =>
    rw [hrun] at h
    cases h

/-- The database accepts a row that keeps the constrained columns. -/
theorem write_ok_of_same (hs : Stored accounts) (hget : getById accounts accountId = some acc)
    (htexts : updatedTexts (set acc) = updatedTexts acc)
    (hchecked : Checked (set acc) ↔ Checked acc)
    (htaken : AddressTaken accounts (set acc) ↔ AddressTaken accounts acc) :
    ∃ t, write accounts accountId set = .ok t := by
  have hmem : acc ∈ accounts := mem_of_getById hget
  refine (write_ok_iff _ hget).mpr ⟨?_, hchecked.mpr (hs.checks acc hmem),
    fun h => hs.unique acc hmem (htaken.mp h)⟩
  intro t ht
  rw [htexts] at ht
  exact hs.texts acc hmem t ht

/-- **The switch is never refused.** -/
theorem setActiveOn_ok (hs : Stored accounts) (hget : getById accounts accountId = some acc)
    (now : Instant) (isActive : Bool) :
    ∃ t, setActiveOn now accounts accountId isActive = .ok t := by
  unfold setActiveOn
  rw [hget]
  refine write_ok_of_same hs hget ?_ ?_ ?_ <;> rw [setActive_eq]
  · rfl
  · rfl
  · rfl

end Table

/-! ## The probe of an update -/

section Update

variable {servers : MailServers} {payload : MailAccountUpdateRequest} {acc : MailAccount}

/-- The probe does not get out of hand: the stored secrets that it needs open, the schema accepts
its request, and the servers raise nothing that the testers do not translate. -/
def ProbeCloses (servers : MailServers) (payload : MailAccountUpdateRequest) (acc : MailAccount) :
    Prop :=
  ∃ passwords, probePasswords payload acc = some passwords ∧
    (testPayload (resolve payload acc) passwords).Accepted ∧
    ¬ ProbeRaises servers (testPayload (resolve payload acc) passwords).scrub

/-- The probe succeeds. -/
def ProbeSucceeds (servers : MailServers) (payload : MailAccountUpdateRequest)
    (acc : MailAccount) : Prop :=
  ∃ passwords, probePasswords payload acc = some passwords ∧
    (testPayload (resolve payload acc) passwords).Accepted ∧
    ProbePasses servers (testPayload (resolve payload acc) passwords).scrub

theorem probe_ok_iff : probe servers payload acc = .ok () ↔ ProbeSucceeds servers payload acc := by
  unfold probe ProbeSucceeds
  cases hopen : probePasswords payload acc with
  | none => simp
  | some passwords =>
    by_cases haccepted : (testPayload (resolve payload acc) passwords).Accepted
    · have hends := testCredentials_endsAs servers haccepted.scrub
      simp only [haccepted, not_true_eq_false, if_false, Option.some.injEq, exists_eq_left',
        true_and, ← hends.ok_iff]
      cases testCredentials servers (testPayload (resolve payload acc) passwords).scrub with
      | error e => simp [Except.mapError]
      | ok u => simp [Except.mapError]
    · simp [haccepted]

/-- **The errors of the probe.**

**Proof sketch.** If the secrets do not open, what is raised is no domain error. If the schema
refuses the request, that is none either. Otherwise the probe is the test of the request, whose
errors are domain errors or escape. -/
theorem probe_closes_iff :
    (∀ e, probe servers payload acc = .error e → ∃ d, e = .domainError d) ↔
      ProbeCloses servers payload acc := by
  unfold probe ProbeCloses
  cases hopen : probePasswords payload acc with
  | none =>
    have hraised : ∀ d, (if Submitted payload.password then .invalidTag else secretError acc) ≠
        UpdateError.domainError d := by
      intro d
      split_ifs <;> simp
    simpa using hraised
  | some passwords =>
    by_cases haccepted : (testPayload (resolve payload acc) passwords).Accepted
    · have hends := testCredentials_endsAs servers haccepted.scrub
      simp only [haccepted, not_true_eq_false, if_false, Option.some.injEq, exists_eq_left',
        true_and, ← hends.escapes_iff]
      cases hrun : testCredentials servers (testPayload (resolve payload acc) passwords).scrub with
      | ok u => simp [Except.mapError]
      | error e =>
        simp only [Except.mapError, Except.error.injEq, forall_eq', exists_eq_left']
        rcases testCredentials_error hrun with hescapes | ⟨d, rfl⟩
        · refine iff_of_false ?_ (not_not.mpr hescapes)
          rintro ⟨d, hd⟩
          cases e with
          | domainError d => exact hescapes.2 d rfl
          | _ => cases hd
        · exact iff_of_true ⟨d, rfl⟩ fun hescapes => hescapes.2 d rfl
    · simp [haccepted]

/-- The `CHECK` constraints hold of the row that an update writes.

**Proof sketch.** Each constraint is about a few columns. A column keeps its value, for which the
constraint held, or gets one from the request, whose schema gives the same bound; the names are
stripped and not empty, the ports are in range, and the two flags of SMTP exclude each other by the
hypothesis. -/
theorem checked_accountWrites (payload : MailAccountUpdateRequest) (h : Checked acc) (now : Instant)
    (hssl : acc.authType = .password →
      ¬ ((resolve payload acc).smtpSsl ∧ (resolve payload acc).smtpStarttls)) :
    Checked (accountWrites payload acc now acc) := by
  obtain ⟨himapPort, hsmtpPort, hxor, hname, hpassword, hoauth⟩ := h
  obtain ⟨-, -, hnameBound, -, himapBound, -, hsmtpBound, -, -⟩ := payload.inBounds
  have hnewName : ∀ t ∈ (resolve payload acc).displayName.getD acc.displayName,
      1 ≤ t.length ∧ t.length ≤ 100 := by
    intro t ht
    simp only [resolve] at ht
    split_ifs at ht
    · cases ht
    · cases hsent : payload.displayName with
      | none =>
        rw [hsent] at ht
        exact hname t ht
      | some v =>
        rw [hsent] at ht
        obtain rfl := Option.some.inj ht
        exact ⟨List.length_pos_of_ne_nil (payload.displayName_ne_nil _ hsent),
          hnameBound _ hsent⟩
  have hport : ∀ {value : Option ℕ} {stored : ℕ}, PortOk value → PortOk (some stored) →
      PortOk (some (value.getD stored)) := by
    intro value stored hv hs
    cases value with
    | none => exact hs
    | some p => exact hv
  cases hauth : acc.authType with
  | oauthOutlook =>
    rcases accountWrites_oauth payload hauth now acc with hsame | ⟨displayName, hnew, hwritten⟩
    · rw [hsame]
      exact ⟨himapPort, hsmtpPort, hxor, hname, hpassword, hoauth⟩
    · rw [hwritten]
      rw [hnew] at hnewName
      exact ⟨himapPort, hsmtpPort, hxor, hnewName, hpassword, hoauth⟩
  | password =>
    have hstored : (sealed payload.password acc.id <|> acc.encryptedPassword) ≠ none := by
      cases hsealed : sealed payload.password acc.id with
      | none => exact hpassword hauth
      | some blob => exact fun h => by cases h
    have hsettings : Checked (updateSettings (resolve payload acc) now acc) :=
      ⟨hport himapBound himapPort, hport hsmtpBound hsmtpPort, hssl hauth, hnewName,
        fun _ => hstored, fun h => by cases hauth.symm.trans h⟩
    rw [accountWrites_eq, fieldWrites, hauth]
    dsimp only
    split_ifs
    · rw [setActive_eq]
      exact hsettings
    · exact hsettings

end Update

end MailAccountService

namespace ExternalMailboxService

/-! ## Closure -/

section Closed

variable (env : Env) (accounts : List MailAccount) (accountId : ℕ)

/-- The row that the account fields are written to stays storable: its texts hold no U+0000, and its
owner has the address in no other row. -/
def Storable (payload : MailAccountUpdateRequest) (acc : MailAccount) : Prop :=
  TextsStorable (accountWrites payload acc env.now acc) ∧
    ¬ AddressTaken accounts (accountWrites payload acc env.now acc)

/-- **The condition on a request and the row it finds.** An allowed change of an OAuth account is
storable. For a password account whose SMTP switches do not exclude each other, the probe of new
credentials closes; and if it succeeds, or is not needed, the change is storable. -/
def Closes (payload : MailAccountUpdateRequest) (acc : MailAccount) : Prop :=
  match acc.authType with
  | .oauthOutlook => ¬ ForbiddenChanges payload acc → Storable env accounts payload acc
  | .password =>
    ¬ ((resolve payload acc).smtpSsl ∧ (resolve payload acc).smtpStarttls) →
      (CredsChanged payload → ProbeCloses env.servers payload acc) ∧
        ((CredsChanged payload → ProbeSucceeds env.servers payload acc) →
          Storable env accounts payload acc)

/-- **The outcome is documented**: the change is committed, or a domain error with one of the
documented statuses leaves the table as it was. -/
def Documented (payload : ExternalMailboxUpdateRequest) : Prop :=
  (∃ acc, (patch env accounts accountId payload).2 = .ok acc) ∨
    ∃ d, (patch env accounts accountId payload).2 = .error (.domainError d) ∧
      d.errorClass.statusCode ∈ [400, 404, 409, 422, 503] ∧
      (patch env accounts accountId payload).1 = accounts

variable {env accounts accountId} {payload : ExternalMailboxUpdateRequest}

/-- Every domain error has a documented status. -/
theorem statusCode_documented (d : DomainError) :
    d.errorClass.statusCode ∈ [400, 404, 409, 422, 503] := by
  cases d.errorClass <;> decide

/-- An outcome is documented exactly when only domain errors are raised. -/
theorem documented_iff_error :
    Documented env accounts accountId payload ↔
      ∀ e, update env accounts accountId payload = .error e → ∃ d, e = .domainError d := by
  unfold Documented patch
  cases hrun : update env accounts accountId payload with
  | ok result => simp
  | error e =>
    simp only [reduceCtorEq, exists_false, false_or, Except.error.injEq, and_true, forall_eq']
    exact ⟨fun ⟨d, hd, _⟩ => ⟨d, hd⟩, fun ⟨d, hd⟩ => ⟨d, hd, statusCode_documented d⟩⟩

/-- **The errors of the account update.**

**Proof sketch.** A visible account is given. A request without new values writes what is stored.
For an OAuth account the forbidden changes are refused with a domain error and the name is written.
For a password account the probe comes first, if there are new credentials, and then the write; the
write is closed exactly when the values can be stored, as the constraints hold of the row by the
schema of the request. -/
theorem accountUpdate_closes_iff (hs : Stored accounts) {payload : MailAccountUpdateRequest}
    {acc : MailAccount} (hget : getById accounts accountId = some acc) :
    (∀ e, MailAccountService.update env.servers env.now accounts accountId payload = .error e →
        ∃ d, e = .domainError d) ↔ Closes env accounts payload acc := by
  have hmem : acc ∈ accounts := mem_of_getById hget
  have hwrite (hssl : acc.authType = .password →
      ¬ ((resolve payload acc).smtpSsl ∧ (resolve payload acc).smtpStarttls)) :
      (∀ e, write accounts accountId (accountWrites payload acc env.now) = .error e →
        ∃ d, e = .domainError d) ↔ Storable env accounts payload acc := by
    have hok := write_ok_iff (accountWrites payload acc env.now) hget
    have hchecked := checked_accountWrites payload (hs.checks acc hmem) env.now hssl
    rw [Storable]
    constructor
    · intro hclosed
      cases hrun : write accounts accountId (accountWrites payload acc env.now) with
      | ok t =>
        obtain ⟨htexts, -, hfree⟩ := hok.mp ⟨t, hrun⟩
        exact ⟨htexts, hfree⟩
      | error e =>
        obtain ⟨d, rfl⟩ := hclosed e hrun
        obtain ⟨r, hr⟩ := write_eq_error hrun
        cases hr
    · rintro ⟨htexts, hfree⟩ e he
      obtain ⟨t, ht⟩ := hok.mpr ⟨htexts, hchecked, hfree⟩
      rw [ht] at he
      cases he
  unfold MailAccountService.update Closes
  rw [hget]
  dsimp only
  cases hauth : acc.authType with
  | oauthOutlook =>
    dsimp only
    have hwrite := hwrite fun h => by cases hauth.symm.trans h
    split_ifs with hforbidden hname
    · simp [hforbidden]
    · have hsame : accountWrites payload acc env.now acc = acc := by
        rcases accountWrites_oauth payload hauth env.now acc with hsame | ⟨_, hnew, -⟩
        · exact hsame
        · rw [hname] at hnew
          cases hnew
      refine iff_of_true (fun e he => by cases he) fun _ => ?_
      rw [Storable, hsame]
      exact ⟨hs.texts acc hmem, hs.unique acc hmem⟩
    · rw [hwrite]
      exact ⟨fun h _ => h, fun h => h hforbidden⟩
  | password =>
    dsimp only
    split_ifs with hssl hcreds
    · simp [hssl]
    · rw [← probe_closes_iff, ← probe_ok_iff]
      have hwrite := hwrite fun _ => hssl
      cases hprobe : probe env.servers payload acc with
      | error e => simp [hcreds, hssl]
      | ok u => simp [hcreds, hssl, hwrite]
    · rw [hwrite fun _ => hssl]
      simp [hcreds, hssl]

/-- The switch succeeds on a row of a table that meets its constraints. -/
theorem updateActive_ok (env : Env) (payload : ExternalMailboxUpdateRequest)
    (hs : Stored accounts) {acc : MailAccount}
    (hget : getById accounts accountId = some acc) :
    ∃ t a, updateActive env accounts accountId payload = .ok t ∧ getById t accountId = some a := by
  unfold updateActive
  split_ifs with hswitch hempty
  · obtain ⟨t, ht⟩ := setActiveOn_ok hs hget env.now (payload.isActive.getD false)
    refine ⟨t, setActive (payload.isActive.getD false) env.now acc, ht, ?_⟩
    rw [setActiveOn_eq_ok ht, getById_updateWhereId (setActive_id _ _), hget]
    simp
  · rw [hget] at hempty
    cases hempty.2
  · exact ⟨accounts, acc, rfl, hget⟩

/-- A successful update of an account keeps the constraints of the table. -/
theorem stored_update (hs : Stored accounts) {servers : MailServers} {now : Instant}
    {payload : MailAccountUpdateRequest} {accounts' : List MailAccount}
    (h : MailAccountService.update servers now accounts accountId payload = .ok accounts') :
    Stored accounts' := by
  unfold MailAccountService.update at h
  split at h
  · cases h
  · next acc hacc =>
    have hwrite (h : write accounts accountId (accountWrites payload acc now) = .ok accounts') :
        Stored accounts' := stored_write hs (accountWrites_id payload acc now) h
    cases hauth : acc.authType with
    | oauthOutlook =>
      simp only [hauth] at h
      split_ifs at h
      · rw [← Except.ok.inj h]
        exact hs
      · exact hwrite h
    | password =>
      simp only [hauth] at h
      split_ifs at h
      · split at h
        · cases h
        · exact hwrite h
      · exact hwrite h

/-- Without a row the service answers that there is none. -/
theorem update_of_no_row (huser : env.crmServiceUser ≠ none)
    (hget : getById accounts accountId = none) :
    update env accounts accountId payload = .error (.domainError notFoundError) := by
  unfold update updateAccount updateActive setActiveOn MailAccountService.update
  rw [if_neg huser]
  by_cases hhas : payload.HasAccountFields
  · simp [hhas, hget]
  · by_cases hswitch : payload.setIsActive
    · simp [hhas, hget, hswitch]
    · simp [hhas, hget, hswitch]

/-- With a row, only the update of the account can fail. -/
theorem update_error_iff (huser : env.crmServiceUser ≠ none) (hs : Stored accounts)
    {acc : MailAccount} (hget : getById accounts accountId = some acc) {e : UpdateError} :
    update env accounts accountId payload = .error e ↔
      updateAccount env accounts accountId payload = .error e := by
  unfold update
  rw [if_neg huser]
  cases hrun : updateAccount env accounts accountId payload with
  | error e' => simp
  | ok mid =>
    obtain ⟨hmid, m, hm⟩ : Stored mid ∧ ∃ m, getById mid accountId = some m := by
      unfold updateAccount at hrun
      split_ifs at hrun with hhas
      · obtain ⟨acc', -, -, -, hwritten⟩ := MailAccountService.update_eq_ok hrun
        refine ⟨stored_update hs hrun, ?_⟩
        rw [hwritten, getById_updateWhereId (accountWrites_id _ acc' _), hget]
        exact ⟨_, rfl⟩
      · obtain rfl := Except.ok.inj hrun
        exact ⟨hs, acc, hget⟩
    obtain ⟨t, a, ht, ha⟩ := updateActive_ok env payload hmid hm
    simp [ht, ha]

/-- **Which outcomes are documented.** Over a table that meets its constraints, a request has a
documented outcome exactly when the row it finds and its account fields meet the condition.

**Proof sketch.** The service without its technical user and a missing row raise domain errors. The
update of the account is closed exactly under the condition. The switch finds the row that the
update has left, and keeps the constrained columns, so it is never refused. -/
theorem documented_iff (hs : Stored accounts) :
    Documented env accounts accountId payload ↔
      ∀ acc, env.crmServiceUser ≠ none → getById accounts accountId = some acc →
        payload.HasAccountFields → Closes env accounts (.ofExternal payload) acc := by
  rw [documented_iff_error]
  by_cases huser : env.crmServiceUser = none
  · simp [update, huser]
  · cases hget : getById accounts accountId with
    | none =>
      rw [update_of_no_row huser hget]
      simp
    | some acc =>
      simp only [update_error_iff huser hs hget, updateAccount]
      by_cases hhas : payload.HasAccountFields
      · simp only [if_pos hhas, accountUpdate_closes_iff hs hget]
        simp [huser, hhas]
      · simp [hhas]

end Closed

/-! ## Requests -/

/-- The table with one mailbox meets the constraints. -/
theorem stored_activeMailbox : Stored [activeMailbox] where
  ids := List.nodup_singleton _
  texts a ha := by
    obtain rfl := List.mem_singleton.mp ha
    decide
  checks a ha := by
    obtain rfl := List.mem_singleton.mp ha
    decide
  unique a ha := by
    obtain rfl := List.mem_singleton.mp ha
    decide

/-- The outcome of a new name is documented. -/
theorem documented_displayName :
    ∃ payload, ExternalMailboxUpdateRequest.modelValidate { displayName := some "Sales".toList } =
        some payload ∧ Documented openEnv [activeMailbox] 1 payload := by
  obtain ⟨payload, hbody, hcreds, hstorable⟩ : ∃ payload,
      ExternalMailboxUpdateRequest.modelValidate { displayName := some "Sales".toList } =
          some payload ∧ ¬ CredsChanged (.ofExternal payload) ∧
        TextsStorable (accountWrites (.ofExternal payload) activeMailbox 1 activeMailbox) ∧
        ¬ AddressTaken [activeMailbox]
          (accountWrites (.ofExternal payload) activeMailbox 1 activeMailbox) :=
    ⟨_, rfl, by decide, by decide, by decide⟩
  refine ⟨payload, hbody, (documented_iff stored_activeMailbox).mpr fun acc _ hget _ => ?_⟩
  obtain rfl : activeMailbox = acc := Option.some.inj hget
  exact fun _ => ⟨fun h => absurd h hcreds, fun _ => hstorable⟩

/-- **An undocumented outcome**: a new password together with an address that is not one. The body
is accepted, and the probe request raises a validation error of its own. -/
theorem patch_undocumented :
    ¬ ∀ (env : Env) (accounts : List MailAccount) (accountId : ℕ) (body : ExternalMailboxUpdateBody)
      (payload : ExternalMailboxUpdateRequest), Stored accounts →
      ExternalMailboxUpdateRequest.modelValidate body = some payload →
      Documented env accounts accountId payload := by
  intro h
  obtain ⟨payload, hbody, hrun⟩ : ∃ payload,
      ExternalMailboxUpdateRequest.modelValidate
          { email := some "broken".toList, password := some "new".toList } = some payload ∧
        update openEnv [activeMailbox] 1 payload = .error .schemaError := ⟨_, rfl, rfl⟩
  have hdocumented := h openEnv [activeMailbox] 1 _ payload stored_activeMailbox hbody
  obtain ⟨d, hd⟩ := documented_iff_error.mp hdocumented _ hrun
  cases hd

end ExternalMailboxService

end MailAggregator
