import MailAggregator.Accounts.Testers
import MailAggregator.Lib.Transition
import MailAggregator.Shared.HostGuard
import MailAggregator.Shared.Models

set_option relaxedAutoImplicit false
set_option autoImplicit false

/-!
# The connections to mail servers

Every connection is opened in two steps: the host guard looks the name of the host up and checks
the answers, and then the client library looks the same name up again, once for each attempt to
connect, and tries the addresses of that answer in their order. The resolver may answer each lookup
as it likes.

## Main definitions

* `MailAggregator.Connections.Site` — the places that open connections.
* `MailAggregator.Connections.system` — sessions of guard and attempts, and the addresses tried.
* `MailAggregator.Connections.NoRebinding` — the condition on the lookups.

## Main results

* `MailAggregator.Connections.not_forbidden` — as long as no later lookup brings in a forbidden
  address that the guard was not shown, no connection goes to a forbidden address.
* `MailAggregator.Connections.assertPublicHost_eq` — the guard of the login probes is the host
  guard, up to what the probes read of a lookup.
-/

namespace MailAggregator

open PyText Lib Transition HostGuard

namespace Connections

/-! ## The guard of the login probes -/

/-- What the login probes read of a lookup. -/
def resolution (resolver : Resolver) (host : Text) : Testers.Resolution :=
  match resolver host with
  | .error .gaierror => .unresolvable
  | .error .unicodeError => .raised .other
  | .ok answers =>
    match checkAnswers answers with
    | .ok () => .publicAddresses
    | .error (.invalidHost _) => .privateAddress
    | .error _ => .raised .other

/-- An exception of the guard, as the login probes see it. -/
def raisedOf : GuardError → Testers.Raised
  | .invalidHost message => .domainError { errorClass := .invalidHost, message }
  | .valueError | .unicodeError => .other

/-- **The guard of the login probes is the host guard.**

**Proof sketch.** Both test the host and the port first, with the same bounds. Outside of production
nothing is resolved. In production both look at the answers of the same resolver in the same order,
and each error of the one is an error of the other. -/
theorem assertPublicHost_eq (servers : MailServers) (resolver : Resolver)
    (hres : servers.resolve = resolution resolver) (host : Text) (port : ℕ) :
    Testers.assertPublicHost servers host port =
      (HostGuard.assertPublicHost servers.isProd resolver host port).mapError raisedOf := by
  rw [Testers.assertPublicHost, HostGuard.assertPublicHost]
  by_cases hhost : host = []
  · rw [if_pos hhost, if_pos hhost]
    rfl
  rw [if_neg hhost, if_neg hhost]
  have hport : PortOk (some port) ↔ 1 ≤ port ∧ port ≤ 65535 := by
    simp [PortOk]
  by_cases hok : 1 ≤ port ∧ port ≤ 65535
  · rw [if_neg (not_not_intro (hport.mpr hok)), if_neg (not_not_intro hok)]
    cases hprod : servers.isProd with
    | false => rfl
    | true =>
      simp only [not_true_eq_false, if_false, Bool.true_eq_false, hres, resolution]
      cases hlookup : resolver host with
      | error e => cases e <;> rfl
      | ok answers =>
        simp only
        cases hcheck : checkAnswers answers with
        | ok u => rfl
        | error e =>
          rcases checkAnswers_error_cases hcheck with rfl | rfl
          · rfl
          · rfl
  · rw [if_pos fun h => hok (hport.mp h), if_pos hok]
    rfl

/-! ## Sessions -/

/-- The places that open connections, with what they know of the server. -/
inductive Site where
  /-- `sync_one_account`, with `SYNC_CONNECT_RETRIES`. -/
  | syncOneAccount (account : MailAccount) (retries : ℕ)
  /-- `smtp_send_message`. -/
  | smtpSendMessage (account : MailAccount)
  /-- The append to the Sent folder in `_send_transport`. -/
  | sentAppend (account : MailAccount)
  | imapTestLogin (host : Text) (port : ℕ)
  | smtpTestLogin (host : Text) (port : ℕ)
  | imapTestOauth (host : Text) (port : ℕ)
  | smtpTestOauth (host : Text) (port : ℕ)
  deriving DecidableEq

/-- The host that a site connects to. -/
def Site.host : Site → Text
  | syncOneAccount account _ | sentAppend account => account.imapHost
  | smtpSendMessage account => account.smtpHost
  | imapTestLogin host _ | smtpTestLogin host _ | imapTestOauth host _ | smtpTestOauth host _ =>
    host

/-- The port that a site connects to. -/
def Site.port : Site → ℕ
  | syncOneAccount account _ | sentAppend account => account.imapPort
  | smtpSendMessage account => account.smtpPort
  | imapTestLogin _ port | smtpTestLogin _ port | imapTestOauth _ port | smtpTestOauth _ port =>
    port

/-- How often a site tries to connect: the sync retries, the others do not. -/
def Site.maxAttempts : Site → ℕ
  | syncOneAccount _ retries => retries + 1
  | _ => 1

/-- How far a session is: the guard has not run, or has accepted some answers and so many attempts
to connect are left. -/
inductive Phase where
  | opened
  | guarded (answers : List Text) (attemptsLeft : ℕ)
  deriving DecidableEq

/-- A session of a site. -/
structure Session where
  site : Site
  phase : Phase
  deriving DecidableEq

/-- The sessions, and the addresses that were connected to. -/
structure NetState where
  sessions : ℕ → Option Session
  connected : List IpAddress

/-- What a lookup answers. -/
abbrev Lookup := Except ResolveError (List Text)

/-- The steps. -/
inductive NetLabel where
  | start (n : ℕ) (site : Site)
  /-- The guard runs, and the resolver answers it. -/
  | guard (n : ℕ) (lookup : Lookup)
  /-- The library looks the name up and tries the first addresses of the answer. -/
  | connect (n : ℕ) (lookup : Lookup) (tried : ℕ)
  /-- The session ends. -/
  | finish (n : ℕ)

/-- Change one session. -/
def setSession (s : NetState) (n : ℕ) (session : Option Session) : NetState :=
  { s with sessions := Function.update s.sessions n session }

/-- The session after the guard: an exception ends it. -/
def afterGuard (site : Site) (lookup : Lookup) : Option Session :=
  match lookup with
  | .error _ => none
  | .ok answers =>
    if HostGuard.assertPublicHost true (fun _ => lookup) site.host site.port = .ok () then
      some ⟨site, .guarded answers site.maxAttempts⟩
    else none

/-- The addresses that an attempt connects to: the first of those that the lookup answers. -/
def triedAddresses (lookup : Lookup) (tried : ℕ) : List IpAddress :=
  match lookup with
  | .error _ => []
  | .ok answers => (answers.filterMap denotes).take tried

/-- The state after a step. -/
def next (s : NetState) : NetLabel → Option NetState
  | .start n site =>
    match s.sessions n with
    | none => some (setSession s n (some ⟨site, .opened⟩))
    | some _ => none
  | .guard n lookup =>
    match s.sessions n with
    | some ⟨site, .opened⟩ => some (setSession s n (afterGuard site lookup))
    | _ => none
  | .connect n lookup tried =>
    match s.sessions n with
    | some ⟨site, .guarded answers (left + 1)⟩ =>
      some { setSession s n (some ⟨site, .guarded answers left⟩) with
        connected := s.connected ++ triedAddresses lookup tried }
    | _ => none
  | .finish n =>
    match s.sessions n with
    | some _ => some (setSession s n none)
    | none => none

/-- The connections of a process in production. -/
def system : System NetState NetLabel where
  init s := (∀ n, s.sessions n = none) ∧ s.connected = []
  next := next

/-- **The condition on the lookups.** The guard is shown no hidden address, and no later lookup of
its session brings in a forbidden address that the guard was not shown. -/
def NoRebinding (s : NetState) : NetLabel → Prop
  | .guard _ (.ok answers) =>
    ∀ answer ∈ answers, ∀ ip, denotes answer = some ip → ¬ Hidden ip
  | .connect n (.ok answers) _ =>
    ∀ site shown left, s.sessions n = some ⟨site, .guarded shown left⟩ →
      ∀ answer ∈ answers, ∀ ip, denotes answer = some ip → Forbidden ip →
        ∃ answer' ∈ shown, denotes answer' = some ip
  | _ => True

/-- No answer of the list denotes a forbidden address. -/
def AllPublic (answers : List Text) : Prop :=
  ∀ answer ∈ answers, ∀ ip, denotes answer = some ip → ¬ Forbidden ip

/-- **The invariant**: the guards that have accepted were shown no forbidden address, and none was
connected to. -/
structure NetInv (s : NetState) : Prop where
  shown : ∀ n site answers left, s.sessions n = some ⟨site, .guarded answers left⟩ →
    AllPublic answers
  connected : ∀ ip ∈ s.connected, ¬ Forbidden ip

variable {s t : NetState}

/-- Accepted answers without a hidden address are public. -/
theorem allPublic_of_checkAnswers {answers : List Text} (hok : checkAnswers answers = .ok ())
    (hhidden : ∀ answer ∈ answers, ∀ ip, denotes answer = some ip → ¬ Hidden ip) :
    AllPublic answers := by
  intro answer hmem ip hip hforbidden
  rcases (forbidden_iff ip).mp hforbidden with hprivate | hh
  · have hrefused : Refused answer := Or.inr ⟨ip, denotes_eq_some_iff.mp hip, hprivate⟩
    exact (checkAnswers_ok_iff answers).mp hok answer hmem hrefused
  · exact hhidden answer hmem ip hip hh

/-- **What the guard leaves behind**: a session that has all its attempts left and whose answers
were accepted. -/
theorem afterGuard_eq_some {site : Site} {lookup : Lookup} {session : Session}
    (h : afterGuard site lookup = some session) :
    ∃ answers, lookup = .ok answers ∧ checkAnswers answers = .ok () ∧
      session = ⟨site, .guarded answers site.maxAttempts⟩ := by
  cases lookup with
  | error e => cases h
  | ok answers =>
    rw [afterGuard] at h
    by_cases hok : HostGuard.assertPublicHost true (fun _ => .ok answers) site.host site.port =
        .ok ()
    · rw [if_pos hok] at h
      exact ⟨answers, rfl, checkAnswers_of_assertPublicHost rfl hok, (Option.some.inj h).symm⟩
    · rw [if_neg hok] at h
      cases h

/-- Changing one session keeps the invariant if the new session, if it is guarded, was shown public
answers. -/
theorem NetInv.setSession (h : NetInv s) (n : ℕ) {session : Option Session}
    (hnew : ∀ site answers left, session = some ⟨site, .guarded answers left⟩ →
      AllPublic answers) : NetInv (setSession s n session) where
  shown := by
    intro n' site answers left hn'
    by_cases hn : n' = n
    · subst hn
      simp only [Connections.setSession, Function.update_self] at hn'
      exact hnew site answers left hn'
    · simp only [Connections.setSession, Function.update_of_ne hn] at hn'
      exact h.shown n' site answers left hn'
  connected := h.connected

/-- **One step keeps the invariant** if it meets the condition.

**Proof sketch.** By cases on the step. A start and an end leave no guarded session behind. A guard
that accepts has looked at every answer, so that what it shows is public, given that its lookup
hides nothing from it. A connection tries the first answers of a lookup of its own, and by the
condition a forbidden one among them would have been among the shown ones, which are public. -/
theorem NetInv.next {a : NetLabel} (h : NetInv s) (hg : NoRebinding s a)
    (hn : Connections.next s a = some t) : NetInv t := by
  cases a with
  | start n site =>
    rw [Connections.next] at hn
    cases hsession : s.sessions n with
    | some session => rw [hsession] at hn; cases hn
    | none =>
      rw [hsession] at hn
      obtain rfl := Option.some.inj hn
      exact h.setSession n fun site answers left hnew => by cases hnew
  | guard n lookup =>
    rw [Connections.next] at hn
    rcases hsession : s.sessions n with _ | ⟨site, _ | ⟨shown, left⟩⟩
    · rw [hsession] at hn; cases hn
    · rw [hsession] at hn
      obtain rfl := Option.some.inj hn
      refine h.setSession n fun site' answers left hnew => ?_
      obtain ⟨answers', rfl, hok, hsame⟩ := afterGuard_eq_some hnew
      cases hsame
      exact allPublic_of_checkAnswers hok hg
    · rw [hsession] at hn; cases hn
  | connect n lookup tried =>
    rw [Connections.next] at hn
    rcases hsession : s.sessions n with _ | ⟨site, _ | ⟨shown, _ | left⟩⟩
    · rw [hsession] at hn; cases hn
    · rw [hsession] at hn; cases hn
    · rw [hsession] at hn; cases hn
    · rw [hsession] at hn
      obtain rfl := Option.some.inj hn
      have hshown := h.shown n site shown (left + 1) hsession
      have hkeep : NetInv (Connections.setSession s n (some ⟨site, .guarded shown left⟩)) := by
        refine h.setSession n fun site' answers' left' hnew => ?_
        cases hnew
        exact hshown
      refine ⟨hkeep.shown, fun ip hip => ?_⟩
      rcases List.mem_append.mp hip with hold | htried
      · exact h.connected ip hold
      · cases lookup with
        | error e => cases htried
        | ok answers =>
          intro hforbidden
          obtain ⟨answer, hmem, hdenotes⟩ := List.mem_filterMap.mp (List.mem_of_mem_take htried)
          obtain ⟨answer', hmem', hdenotes'⟩ :=
            hg site shown (left + 1) hsession answer hmem ip hdenotes hforbidden
          exact hshown answer' hmem' ip hdenotes' hforbidden
  | finish n =>
    rw [Connections.next] at hn
    cases hsession : s.sessions n with
    | none => rw [hsession] at hn; cases hn
    | some session =>
      rw [hsession] at hn
      obtain rfl := Option.some.inj hn
      exact h.setSession n fun site answers left hnew => by cases hnew

/-- **No connection goes to a forbidden address** in the runs in which no lookup rebinds a name to
one. -/
theorem not_forbidden (h : system.ReachableWhen NoRebinding s) :
    ∀ ip ∈ s.connected, ¬ Forbidden ip := by
  have hinv : NetInv s := by
    refine h.invariant (P := NetInv) ?_ fun s a t hinv hg hn => hinv.next hg hn
    rintro s ⟨hsessions, hconnected⟩
    refine ⟨fun n site answers left hn => ?_, fun ip hip => ?_⟩
    · rw [hsessions n] at hn
      cases hn
    · rw [hconnected] at hip
      cases hip
  exact hinv.connected

/-- Nothing has happened. -/
def idle : NetState := ⟨fun _ => none, []⟩

/-- A login probe of a host. -/
def probeSite : Site := .imapTestLogin "h".toList 993

/-- The probe has been started. -/
def opened : NetState := setSession idle 0 (some ⟨probeSite, .opened⟩)

/-- Its guard has accepted the address `192.0.2.25`. -/
def accepted : NetState :=
  setSession opened 0 (some ⟨probeSite, .guarded ["192.0.2.25".toList] 1⟩)

/-- The library has looked the name up and connected to what this answered. -/
def connectedTo (answer : Text) : NetState :=
  { setSession accepted 0 (some ⟨probeSite, .guarded ["192.0.2.25".toList] 0⟩) with
    connected := triedAddresses (.ok [answer]) 1 }

theorem next_idle : system.next idle (.start 0 probeSite) = some opened := rfl

theorem next_accepted (answer : Text) :
    system.next accepted (.connect 0 (.ok [answer]) 1) = some (connectedTo answer) := rfl

theorem next_opened :
    system.next opened (.guard 0 (.ok ["192.0.2.25".toList])) = some accepted := by
  have hguard : afterGuard probeSite (.ok ["192.0.2.25".toList]) =
      some ⟨probeSite, .guarded ["192.0.2.25".toList] 1⟩ := by decide
  exact congrArg (fun session => some (setSession opened 0 session)) hguard

/-- A second lookup that answers what the first did. -/
theorem not_forbidden_stable :
    .v4 (ipv4 192 0 2 25) ∈ (connectedTo "192.0.2.25".toList).connected ∧
      ¬ Forbidden (.v4 (ipv4 192 0 2 25)) := by
  have hmem : .v4 (ipv4 192 0 2 25) ∈ (connectedTo "192.0.2.25".toList).connected := by decide
  have hdenotes : denotes "192.0.2.25".toList = some (.v4 (ipv4 192 0 2 25)) := by decide
  have hinit : system.ReachableWhen NoRebinding idle := .init ⟨fun _ => rfl, rfl⟩
  have hstart : NoRebinding idle (.start 0 probeSite) := trivial
  have hopened : system.ReachableWhen NoRebinding opened := hinit.step hstart next_idle
  refine ⟨hmem, not_forbidden ((hopened.step ?_ next_opened).step ?_ (next_accepted _)) _ hmem⟩
  · intro answer hmem ip hip hhidden
    obtain rfl := List.mem_singleton.mp hmem
    rw [hdenotes] at hip
    cases hip
    exact hhidden
  · intro site shown left hsession answer hmem ip hip _
    obtain rfl : ["192.0.2.25".toList] = shown := by
      simp only [accepted, setSession, Function.update_self, Option.some.injEq] at hsession
      cases hsession
      rfl
    exact ⟨answer, hmem, hip⟩

/-- A second lookup may answer the loopback address. -/
theorem rebinding_connects_inside :
    ¬ ∀ s, system.Reachable s → ∀ ip ∈ s.connected, ¬ Forbidden ip := by
  intro h
  have hinit : system.Reachable idle := .init ⟨fun _ => rfl, rfl⟩
  have hreach : system.Reachable (connectedTo "127.0.0.1".toList) :=
    ((hinit.next next_idle).next next_opened).next (next_accepted _)
  have htried : triedAddresses (.ok ["127.0.0.1".toList]) 1 = [.v4 (ipv4 127 0 0 1)] := by decide
  have hinternal : InternalV4 (ipv4 127 0 0 1) :=
    ⟨(ipv4 127 0 0 0, ipv4 127 255 255 255), by decide, by decide, by decide⟩
  refine h _ hreach (.v4 (ipv4 127 0 0 1)) ?_ hinternal
  rw [connectedTo, htried]
  exact List.mem_singleton_self _

end Connections

end MailAggregator
