import MailAggregator.Lib.IpAddress

set_option relaxedAutoImplicit false
set_option autoImplicit false

/-!
# The host guard

Before a connection to a mail server is opened, `assert_public_host` resolves the name of the
host and refuses it if an answer is an internal address. IPv4 and IPv6 answers are each compared
with the networks of their own version. An IPv4-mapped IPv6 address of an internal IPv4 address,
and the unspecified IPv6 address, are in none of these.

## Main definitions

* `MailAggregator.HostGuard.assertPublicHost` — the guard.
* `MailAggregator.HostGuard.Forbidden` — the addresses of internal destinations.
* `MailAggregator.HostGuard.Hidden` — the forbidden addresses that the guard does not know.
* `MailAggregator.HostGuard.Complete` — the guard refuses forbidden answers and accepts others.

## Main results

* `MailAggregator.HostGuard.checkAnswers_ok_iff` — which lists of answers are accepted.
* `MailAggregator.HostGuard.checkAnswers_eq_valueError_iff` — which lists of answers raise
  `ValueError`.
* `MailAggregator.HostGuard.forbidden_iff` — a forbidden address is a private one or a hidden one.
* `MailAggregator.HostGuard.complete_iff` — the guard is complete on a list of answers exactly when
  no answer is hidden or another answer is refused.
-/

namespace MailAggregator

open PyText Lib

namespace HostGuard

/-! ## The guard -/

/-- `_PRIVATE_NETS_V4`. -/
def privateNetsV4 : List (Network 32) :=
  [⟨ipv4 10 0 0 0, 8, by decide⟩, ⟨ipv4 172 16 0 0, 12, by decide⟩,
    ⟨ipv4 192 168 0 0, 16, by decide⟩, ⟨ipv4 127 0 0 0, 8, by decide⟩,
    ⟨ipv4 169 254 0 0, 16, by decide⟩, ⟨ipv4 0 0 0 0, 8, by decide⟩,
    ⟨ipv4 100 64 0 0, 10, by decide⟩]

/-- `_PRIVATE_NETS_V6`. -/
def privateNetsV6 : List (Network 128) :=
  [⟨1, 128, by decide⟩, ⟨BitVec.ofNat 128 (0xFC00 * 2 ^ 112), 7, by decide⟩,
    ⟨BitVec.ofNat 128 (0xFE80 * 2 ^ 112), 10, by decide⟩]

/-- `_is_private`. -/
def IsPrivate : IpAddress → Prop
  | .v4 address => ∃ net ∈ privateNetsV4, net.Contains address
  | .v6 address => ∃ net ∈ privateNetsV6, net.Contains address

instance : DecidablePred IsPrivate
  | .v4 address => inferInstanceAs (Decidable (∃ net ∈ privateNetsV4, net.Contains address))
  | .v6 address => inferInstanceAs (Decidable (∃ net ∈ privateNetsV6, net.Contains address))

/-- What the guard raises: `InvalidHostError` with a message, the `ValueError` of a text that is
no address, and the `UnicodeError` of a name that the resolver cannot encode. -/
inductive GuardError where
  | invalidHost (message : Text)
  | valueError
  | unicodeError
  deriving DecidableEq

/-- How the lookup of a name fails. -/
inductive ResolveError where
  | gaierror
  | unicodeError
  deriving DecidableEq

/-- `socket.getaddrinfo`: the texts of the addresses of a name. -/
abbrev Resolver := Text → Except ResolveError (List Text)

/-- The address of an answer. An answer that is no address is skipped, or raises `ValueError` when
it has a scope. -/
def parseAnswer (answer : Text) : Except GuardError (Option IpAddress) :=
  match ipAddress answer with
  | some ip => .ok (some ip)
  | none =>
    if '%' ∈ answer then
      match ipAddress (answer.takeWhile (· ≠ '%')) with
      | some ip => .ok (some ip)
      | none => .error .valueError
    else .ok none

/-- The addresses that `_resolve` yields for the answers, of which those in `seen` are done, and
the exception that ends them. -/
def addresses (seen : List Text) : List Text → List IpAddress × Option GuardError
  | [] => ([], none)
  | answer :: answers =>
    if answer ∈ seen then addresses seen answers
    else
      match parseAnswer answer with
      | .error e => ([], some e)
      | .ok none => addresses (answer :: seen) answers
      | .ok (some ip) =>
        (ip :: (addresses (answer :: seen) answers).1, (addresses (answer :: seen) answers).2)

/-- The loop of the guard over the addresses that are yielded. -/
def checkAddresses (yielded : List IpAddress × Option GuardError) : Except GuardError Unit :=
  if ∃ ip ∈ yielded.1, IsPrivate ip then
    .error (.invalidHost "Host resolves to a private/internal address".toList)
  else
    match yielded.2 with
    | some e => .error e
    | none => .ok ()

/-- The verdict on a list of answers. -/
def checkAnswers (answers : List Text) : Except GuardError Unit :=
  checkAddresses (addresses [] answers)

/-- `assert_public_host`. -/
def assertPublicHost (isProd : Bool) (resolver : Resolver) (host : Text) (port : ℕ) :
    Except GuardError Unit :=
  if host = [] then .error (.invalidHost "host must be a non-empty string".toList)
  else if ¬ (1 ≤ port ∧ port ≤ 65535) then
    .error (.invalidHost "port must be in 1..65535".toList)
  else if isProd = false then .ok ()
  else
    match resolver host with
    | .error .gaierror => .error (.invalidHost "Could not resolve host".toList)
    | .error .unicodeError => .error .unicodeError
    | .ok answers => checkAnswers answers

/-- The only exception of an answer is `ValueError`. -/
theorem eq_valueError_of_parseAnswer {answer : Text} {e : GuardError}
    (h : parseAnswer answer = .error e) : e = .valueError := by
  rw [parseAnswer] at h
  cases hwhole : ipAddress answer with
  | some ip => rw [hwhole] at h; cases h
  | none =>
    rw [hwhole] at h
    by_cases hscope : '%' ∈ answer
    · simp only [if_pos hscope] at h
      cases hinner : ipAddress (answer.takeWhile (· ≠ '%')) with
      | some ip => rw [hinner] at h; cases h
      | none => rw [hinner] at h; cases h; rfl
    · simp only [if_neg hscope] at h
      cases h

theorem eq_valueError_of_addresses (answers : List Text) {seen : List Text} {e : GuardError}
    (h : (addresses seen answers).2 = some e) : e = .valueError := by
  induction answers generalizing seen with
  | nil => cases h
  | cons answer answers ih =>
    rw [addresses] at h
    by_cases hrepeated : answer ∈ seen
    · rw [if_pos hrepeated] at h
      exact ih h
    · rw [if_neg hrepeated] at h
      cases hparse : parseAnswer answer with
      | error e' =>
        rw [hparse] at h
        cases h
        exact eq_valueError_of_parseAnswer hparse
      | ok parsed =>
        rw [hparse] at h
        cases parsed with
        | none => exact ih h
        | some ip => exact ih h

/-- **A list of answers is refused with one message, or with `ValueError`.** -/
theorem checkAnswers_error_cases {answers : List Text} {e : GuardError}
    (h : checkAnswers answers = .error e) :
    e = .invalidHost "Host resolves to a private/internal address".toList ∨ e = .valueError := by
  rw [checkAnswers, checkAddresses] at h
  by_cases hprivate : ∃ ip ∈ (addresses [] answers).1, IsPrivate ip
  · rw [if_pos hprivate] at h
    cases h
    exact Or.inl rfl
  · rw [if_neg hprivate] at h
    cases hraise : (addresses [] answers).2 with
    | none => rw [hraise] at h; cases h
    | some e' =>
      rw [hraise] at h
      cases h
      exact Or.inr (eq_valueError_of_addresses answers hraise)

/-! ## Which answers are accepted -/

/-- An answer that the guard stops at: a private address, or a text that raises. -/
def Refused (answer : Text) : Prop :=
  (∃ e, parseAnswer answer = .error e) ∨
    ∃ ip, parseAnswer answer = .ok (some ip) ∧ IsPrivate ip

/-- An answer that is skipped is not refused. -/
theorem not_refused_of_skipped {answer : Text} (h : parseAnswer answer = .ok none) :
    ¬ Refused answer := by
  rintro (⟨e, he⟩ | ⟨ip, hip, -⟩)
  · rw [h] at he
    cases he
  · rw [h] at hip
    cases hip

/-- An address that is not private is not refused. -/
theorem not_refused_of_not_isPrivate {answer : Text} {ip : IpAddress}
    (h : parseAnswer answer = .ok (some ip)) (hp : ¬ IsPrivate ip) : ¬ Refused answer := by
  rintro (⟨e, he⟩ | ⟨ip', hip', hp'⟩)
  · rw [h] at he
    cases he
  · rw [h] at hip'
    cases hip'
    exact hp hp'

theorem checkAddresses_ok_iff (yielded : List IpAddress × Option GuardError) :
    checkAddresses yielded = .ok () ↔
      (∀ ip ∈ yielded.1, ¬ IsPrivate ip) ∧ yielded.2 = none := by
  rw [checkAddresses]
  by_cases hprivate : ∃ ip ∈ yielded.1, IsPrivate ip
  · rw [if_pos hprivate]
    obtain ⟨ip, hip, hp⟩ := hprivate
    constructor
    · intro h
      cases h
    · intro h
      exact absurd hp (h.1 ip hip)
  · rw [if_neg hprivate]
    have hnone : ∀ ip ∈ yielded.1, ¬ IsPrivate ip := fun ip hip hp => hprivate ⟨ip, hip, hp⟩
    cases hraise : yielded.2 with
    | none => exact ⟨fun _ => ⟨hnone, rfl⟩, fun _ => rfl⟩
    | some e => simp

/-- **The loop accepts exactly the answers of which none is refused**, when those that are done
were not.

**Proof sketch.** Induction on the answers. A repeated answer is one that was not refused. Another
one that is not refused is skipped or yields an address that is not private; one that is refused
ends the loop. -/
theorem checkAddresses_addresses (answers : List Text) {seen : List Text}
    (hseen : ∀ answer ∈ seen, ¬ Refused answer) :
    checkAddresses (addresses seen answers) = .ok () ↔ ∀ answer ∈ answers, ¬ Refused answer := by
  induction answers generalizing seen with
  | nil => simp [addresses, checkAddresses]
  | cons answer answers ih =>
    rw [addresses, List.forall_mem_cons]
    by_cases hrepeated : answer ∈ seen
    · rw [if_pos hrepeated, ih hseen]
      exact ⟨fun h => ⟨hseen answer hrepeated, h⟩, fun h => h.2⟩
    · rw [if_neg hrepeated]
      cases hparse : parseAnswer answer with
      | error e =>
        have hrefused : Refused answer := Or.inl ⟨e, hparse⟩
        simp only [checkAddresses_ok_iff, hrefused, not_true_eq_false, false_and, iff_false]
        intro h
        cases h.2
      | ok parsed =>
        cases parsed with
        | none =>
          have hfine := not_refused_of_skipped hparse
          simp only [ih (List.forall_mem_cons.mpr ⟨hfine, hseen⟩), hfine, not_false_eq_true,
            true_and]
        | some ip =>
          by_cases hp : IsPrivate ip
          · have hrefused : Refused answer := Or.inr ⟨ip, hparse, hp⟩
            simp only [checkAddresses_ok_iff, hrefused, not_true_eq_false, false_and, iff_false]
            intro h
            exact h.1 ip List.mem_cons_self hp
          · have hfine := not_refused_of_not_isPrivate hparse hp
            rw [← ih (List.forall_mem_cons.mpr ⟨hfine, hseen⟩)]
            simp only [checkAddresses_ok_iff, List.forall_mem_cons, hp, hfine, not_false_eq_true,
              true_and]

/-- **A list of answers is accepted exactly when none of them is refused.** -/
theorem checkAnswers_ok_iff (answers : List Text) :
    checkAnswers answers = .ok () ↔ ∀ answer ∈ answers, ¬ Refused answer :=
  checkAddresses_addresses answers fun _ h => absurd h List.not_mem_nil

/-- An address that is not private changes no verdict. -/
theorem checkAddresses_cons {ip : IpAddress} (hp : ¬ IsPrivate ip) (ips : List IpAddress)
    (raised : Option GuardError) :
    checkAddresses (ip :: ips, raised) = checkAddresses (ips, raised) := by
  have hiff : (∃ ip' ∈ ip :: ips, IsPrivate ip') ↔ ∃ ip' ∈ ips, IsPrivate ip' := by
    rw [List.exists_mem_cons_iff]
    exact or_iff_right hp
  rw [checkAddresses, checkAddresses]
  by_cases hprivate : ∃ ip' ∈ ips, IsPrivate ip'
  · rw [if_pos hprivate, if_pos (hiff.mpr hprivate)]
  · rw [if_neg hprivate, if_neg (mt hiff.mp hprivate)]

/-- An answer that raises, before which none is refused. -/
def RaisesAt (answers : List Text) : Prop :=
  ∃ early answer late, answers = early ++ answer :: late ∧ (∀ a ∈ early, ¬ Refused a) ∧
    ∃ e, parseAnswer answer = .error e

/-- An answer that is not refused is passed over. -/
theorem raisesAt_cons_iff {answer : Text} {answers : List Text} (h : ¬ Refused answer) :
    RaisesAt (answer :: answers) ↔ RaisesAt answers := by
  constructor
  · rintro ⟨early, last, late, hsplit, hearly, hraises⟩
    cases early with
    | nil =>
      cases hsplit
      exact absurd (Or.inl hraises) h
    | cons first early =>
      cases hsplit
      exact ⟨early, last, late, rfl, (List.forall_mem_cons.mp hearly).2, hraises⟩
  · rintro ⟨early, last, late, rfl, hearly, hraises⟩
    exact ⟨answer :: early, last, late, rfl, List.forall_mem_cons.mpr ⟨h, hearly⟩, hraises⟩

/-- An answer that is refused decides. -/
theorem raisesAt_cons_of_refused {answer : Text} {answers : List Text} (h : Refused answer) :
    RaisesAt (answer :: answers) ↔ ∃ e, parseAnswer answer = .error e := by
  constructor
  · rintro ⟨early, last, late, hsplit, hearly, hraises⟩
    cases early with
    | nil =>
      cases hsplit
      exact hraises
    | cons first early =>
      cases hsplit
      exact absurd h (List.forall_mem_cons.mp hearly).1
  · intro hraises
    exact ⟨[], answer, answers, rfl, fun _ hmem => absurd hmem List.not_mem_nil, hraises⟩

/-- The loop raises `ValueError` exactly when an answer does before which none is refused.

**Proof sketch.** Induction on the answers, as for the answers that are accepted. -/
theorem checkAddresses_addresses_raises (answers : List Text) {seen : List Text}
    (hseen : ∀ answer ∈ seen, ¬ Refused answer) :
    checkAddresses (addresses seen answers) = .error .valueError ↔ RaisesAt answers := by
  induction answers generalizing seen with
  | nil =>
    refine iff_of_false (fun h => by cases h) ?_
    rintro ⟨early, answer, late, hsplit, -⟩
    simp at hsplit
  | cons answer answers ih =>
    rw [addresses]
    by_cases hrepeated : answer ∈ seen
    · rw [if_pos hrepeated, ih hseen, raisesAt_cons_iff (hseen answer hrepeated)]
    · rw [if_neg hrepeated]
      cases hparse : parseAnswer answer with
      | error e =>
        obtain rfl := eq_valueError_of_parseAnswer hparse
        rw [raisesAt_cons_of_refused (Or.inl ⟨_, hparse⟩)]
        refine iff_of_true ?_ ⟨_, hparse⟩
        rw [checkAddresses, if_neg]
        rintro ⟨ip, hip, -⟩
        cases hip
      | ok parsed =>
        cases parsed with
        | none =>
          have hfine := not_refused_of_skipped hparse
          simp only [ih (List.forall_mem_cons.mpr ⟨hfine, hseen⟩), raisesAt_cons_iff hfine]
        | some ip =>
          by_cases hp : IsPrivate ip
          · rw [raisesAt_cons_of_refused (Or.inr ⟨ip, hparse, hp⟩), checkAddresses,
              if_pos ⟨ip, List.mem_cons_self, hp⟩]
            refine iff_of_false (fun h => by cases h) ?_
            rintro ⟨e, he⟩
            rw [hparse] at he
            cases he
          · have hfine := not_refused_of_not_isPrivate hparse hp
            rw [raisesAt_cons_iff hfine, ← ih (List.forall_mem_cons.mpr ⟨hfine, hseen⟩),
              checkAddresses_cons hp]

/-- **A list of answers raises `ValueError`** exactly when an answer does before which none is
refused. -/
theorem checkAnswers_eq_valueError_iff (answers : List Text) :
    checkAnswers answers = .error .valueError ↔ RaisesAt answers :=
  checkAddresses_addresses_raises answers fun _ h => absurd h List.not_mem_nil

/-- In production the verdict on the answers is that of the guard. -/
theorem assertPublicHost_eq {resolver : Resolver} {host : Text} {port : ℕ} {answers : List Text}
    (hhost : host ≠ []) (hport : 1 ≤ port ∧ port ≤ 65535) (hres : resolver host = .ok answers) :
    assertPublicHost true resolver host port = checkAnswers answers := by
  rw [assertPublicHost, if_neg hhost, if_neg (not_not_intro hport), if_neg (by decide), hres]

/-- Whom the guard lets through in production has accepted answers. -/
theorem checkAnswers_of_assertPublicHost {resolver : Resolver} {host : Text} {port : ℕ}
    {answers : List Text} (hres : resolver host = .ok answers)
    (h : assertPublicHost true resolver host port = .ok ()) : checkAnswers answers = .ok () := by
  by_cases hhost : host = []
  · rw [assertPublicHost, if_pos hhost] at h
    cases h
  by_cases hport : 1 ≤ port ∧ port ≤ 65535
  · rw [assertPublicHost_eq hhost hport hres] at h
    exact h
  · rw [assertPublicHost, if_neg hhost, if_pos hport] at h
    cases h

/-! ## Internal destinations -/

/-- An address lies between two others. -/
def Between {w : ℕ} (range : BitVec w × BitVec w) (address : BitVec w) : Prop :=
  range.1.toNat ≤ address.toNat ∧ address.toNat ≤ range.2.toNat

/-- The internal IPv4 ranges: `10.0.0.0/8`, `172.16.0.0/12`, `192.168.0.0/16`, `127.0.0.0/8`,
`169.254.0.0/16`, `0.0.0.0/8` and `100.64.0.0/10`. -/
def internalV4 : List (BitVec 32 × BitVec 32) :=
  [(ipv4 10 0 0 0, ipv4 10 255 255 255), (ipv4 172 16 0 0, ipv4 172 31 255 255),
    (ipv4 192 168 0 0, ipv4 192 168 255 255), (ipv4 127 0 0 0, ipv4 127 255 255 255),
    (ipv4 169 254 0 0, ipv4 169 254 255 255), (ipv4 0 0 0 0, ipv4 0 255 255 255),
    (ipv4 100 64 0 0, ipv4 100 127 255 255)]

/-- The internal IPv6 ranges `::1`, `fc00::/7` and `fe80::/10`. -/
def internalV6 : List (BitVec 128 × BitVec 128) :=
  [(1, 1), (BitVec.ofNat 128 (0xFC00 * 2 ^ 112), BitVec.ofNat 128 (0xFE00 * 2 ^ 112 - 1)),
    (BitVec.ofNat 128 (0xFE80 * 2 ^ 112), BitVec.ofNat 128 (0xFEC0 * 2 ^ 112 - 1))]

/-- An internal IPv4 destination. -/
def InternalV4 (address : BitVec 32) : Prop := ∃ range ∈ internalV4, Between range address

/-- **The addresses of internal destinations**: those of the internal ranges, the unspecified IPv6
address, and the IPv4-mapped addresses of internal IPv4 destinations. -/
def Forbidden : IpAddress → Prop
  | .v4 address => InternalV4 address
  | .v6 address => (∃ range ∈ internalV6, Between range address) ∨ address = 0 ∨
      ∃ inner, address = mapped inner ∧ InternalV4 inner

/-- The forbidden addresses that are in no network of the guard. -/
def Hidden : IpAddress → Prop
  | .v4 _ => False
  | .v6 address => address = 0 ∨ ∃ inner, address = mapped inner ∧ InternalV4 inner

/-- The networks of the guard are the internal ranges. -/
theorem exists_contains_iff {w : ℕ} {nets : List (Network w)} {ranges : List (BitVec w × BitVec w)}
    (h : nets.map (fun net => (net.address, net.last)) = ranges) (address : BitVec w) :
    (∃ net ∈ nets, net.Contains address) ↔ ∃ range ∈ ranges, Between range address := by
  subst h
  simp only [List.mem_map, exists_exists_and_eq_and, Between, Network.contains_iff]

theorem isPrivate_v4_iff (address : BitVec 32) : IsPrivate (.v4 address) ↔ InternalV4 address :=
  exists_contains_iff (by decide) address

theorem isPrivate_v6_iff (address : BitVec 128) :
    IsPrivate (.v6 address) ↔ ∃ range ∈ internalV6, Between range address :=
  exists_contains_iff (by decide) address

/-- **A forbidden address is a private one or a hidden one.** -/
theorem forbidden_iff (ip : IpAddress) : Forbidden ip ↔ IsPrivate ip ∨ Hidden ip := by
  cases ip with
  | v4 address => rw [isPrivate_v4_iff, Forbidden, Hidden, or_false]
  | v6 address => rw [isPrivate_v6_iff, Forbidden, Hidden]

/-- Below `2 ^ 48` the only private IPv6 address is the loopback address. -/
theorem not_isPrivate_of_lt {address : BitVec 128} (hone : address.toNat ≠ 1)
    (hlt : address.toNat < 2 ^ 48) : ¬ IsPrivate (.v6 address) := by
  rw [isPrivate_v6_iff]
  rintro ⟨range, hrange, hlo, hhi⟩
  simp only [internalV6, List.mem_cons, List.not_mem_nil, or_false] at hrange
  rcases hrange with rfl | rfl | rfl
  · exact hone (Nat.le_antisymm hhi hlo)
  · simp only [BitVec.toNat_ofNat] at hlo
    omega
  · simp only [BitVec.toNat_ofNat] at hlo
    omega

/-- No mapped address is private. -/
theorem not_isPrivate_mapped (inner : BitVec 32) : ¬ IsPrivate (.v6 (mapped inner)) := by
  have hinner := inner.isLt
  apply not_isPrivate_of_lt
  · rw [toNat_mapped]
    omega
  · rw [toNat_mapped]
    omega

/-- **No network of the guard holds a hidden address.** -/
theorem Hidden.not_isPrivate {ip : IpAddress} (h : Hidden ip) : ¬ IsPrivate ip := by
  cases ip with
  | v4 address => exact h.elim
  | v6 address =>
    rcases h with rfl | ⟨inner, rfl, -⟩
    · exact not_isPrivate_of_lt (by decide) (by decide)
    · exact not_isPrivate_mapped inner

/-- The address that an answer denotes. -/
def denotes (answer : Text) : Option IpAddress :=
  match parseAnswer answer with
  | .ok parsed => parsed
  | .error _ => none

theorem denotes_eq_some_iff {answer : Text} {ip : IpAddress} :
    denotes answer = some ip ↔ parseAnswer answer = .ok (some ip) := by
  rw [denotes]
  cases parseAnswer answer with
  | error e => simp
  | ok parsed => simp

/-- **The guard is complete on a list of answers**: it raises whenever an answer denotes a forbidden
address, and accepts whenever every answer denotes another. -/
def Complete (resolver : Resolver) (host : Text) (port : ℕ) (answers : List Text) : Prop :=
  ((∃ answer ∈ answers, ∃ ip, denotes answer = some ip ∧ Forbidden ip) →
    ∃ e, assertPublicHost true resolver host port = .error e) ∧
  ((∀ answer ∈ answers, ∃ ip, denotes answer = some ip ∧ ¬ Forbidden ip) →
    assertPublicHost true resolver host port = .ok ())

/-- The guard raises exactly when an answer is refused. -/
theorem checkAnswers_error_iff (answers : List Text) :
    (∃ e, checkAnswers answers = .error e) ↔ ∃ answer ∈ answers, Refused answer := by
  have hok := checkAnswers_ok_iff answers
  cases hcheck : checkAnswers answers with
  | error e =>
    have hnot : ¬ ∀ answer ∈ answers, ¬ Refused answer := by
      rw [← hok, hcheck]
      intro h
      cases h
    push Not at hnot
    exact ⟨fun _ => hnot, fun _ => ⟨e, rfl⟩⟩
  | ok u =>
    have hall := hok.mp hcheck
    constructor
    · rintro ⟨e, he⟩
      cases he
    · rintro ⟨answer, hmem, hrefused⟩
      exact absurd hrefused (hall answer hmem)

/-- **The guard is complete on a list of answers exactly when no answer denotes a hidden address,
or another answer is refused.**

**Proof sketch.** The guard raises exactly if an answer is refused, and accepts otherwise. A
forbidden address is private or hidden. A private one is refused, so that only the hidden ones are
in question; for these the guard raises exactly if some other answer is refused. -/
theorem complete_iff (resolver : Resolver) (host : Text) (port : ℕ) (answers : List Text)
    (hhost : host ≠ []) (hport : 1 ≤ port ∧ port ≤ 65535) (hres : resolver host = .ok answers) :
    Complete resolver host port answers ↔
      ((∃ answer ∈ answers, ∃ ip, denotes answer = some ip ∧ Hidden ip) →
        ∃ answer ∈ answers, Refused answer) := by
  rw [Complete, assertPublicHost_eq hhost hport hres, checkAnswers_error_iff, checkAnswers_ok_iff]
  constructor
  · rintro ⟨hraises, -⟩ ⟨answer, hmem, ip, hip, hhidden⟩
    exact hraises ⟨answer, hmem, ip, hip, (forbidden_iff ip).mpr (Or.inr hhidden)⟩
  · intro h
    constructor
    · rintro ⟨answer, hmem, ip, hip, hforbidden⟩
      rcases (forbidden_iff ip).mp hforbidden with hprivate | hhidden
      · exact ⟨answer, hmem, Or.inr ⟨ip, denotes_eq_some_iff.mp hip, hprivate⟩⟩
      · exact h ⟨answer, hmem, ip, hip, hhidden⟩
    · intro hall answer hmem hrefused
      obtain ⟨ip, hip, hnot⟩ := hall answer hmem
      have hparse := denotes_eq_some_iff.mp hip
      rcases hrefused with ⟨e, he⟩ | ⟨ip', hip', hprivate⟩
      · rw [hparse] at he
        cases he
      · rw [hparse] at hip'
        cases hip'
        exact hnot ((forbidden_iff ip).mpr (Or.inl hprivate))

/-- The answers of a host: a public address, a scoped one, an internal one in its mapped form, and
the loopback address. -/
def mixedAnswers : List Text :=
  ["192.0.2.25".toList, "2001:db8::1%eth0".toList, "::ffff:10.0.0.1".toList, "127.0.0.1".toList]

/-- The guard is complete on these answers: the mapped address is hidden from it, but the loopback
address is refused. Without the last answer it is not complete. -/
theorem complete_iff_mixedAnswers :
    Complete (fun _ => .ok mixedAnswers) "mail.example.com".toList 993 mixedAnswers ∧
      ¬ Complete (fun _ => .ok (mixedAnswers.take 3)) "mail.example.com".toList 993
        (mixedAnswers.take 3) := by
  have hmapped : denotes "::ffff:10.0.0.1".toList = some (.v6 (mapped (ipv4 10 0 0 1))) := by
    decide
  have hhidden : Hidden (.v6 (mapped (ipv4 10 0 0 1))) :=
    Or.inr ⟨_, rfl, (ipv4 10 0 0 0, ipv4 10 255 255 255), by decide, by decide, by decide⟩
  constructor
  · exact (complete_iff _ _ _ _ (by decide) (by decide) rfl).mpr fun _ =>
      ⟨"127.0.0.1".toList, by decide, Or.inr ⟨.v4 (ipv4 127 0 0 1), by decide, by decide⟩⟩
  · rw [complete_iff _ _ _ _ (by decide) (by decide) rfl]
    intro h
    obtain ⟨answer, hmem, hrefused⟩ := h ⟨_, by decide, _, hmapped, hhidden⟩
    have haccepts : checkAnswers (mixedAnswers.take 3) = .ok () := by decide
    exact (checkAnswers_ok_iff _).mp haccepts answer hmem hrefused

/-- **The guard accepts the mapped address of every IPv4 address**, internal or not. -/
theorem checkAnswers_mappedText (inner : BitVec 32) : checkAnswers [mappedText inner] = .ok () := by
  have hparse : parseAnswer (mappedText inner) = .ok (some (.v6 (mapped inner))) := by
    rw [parseAnswer, ipAddress_mapped]
  rw [checkAnswers_ok_iff]
  intro answer hmem
  obtain rfl := List.mem_singleton.mp hmem
  rintro (⟨e, he⟩ | ⟨ip, hip, hprivate⟩)
  · rw [hparse] at he
    cases he
  · rw [hparse] at hip
    cases hip
    exact not_isPrivate_mapped inner hprivate

/-- The mapped address of `10.0.0.1` is accepted. -/
theorem mapped_address_passes :
    ¬ ∀ (resolver : Resolver) (host : Text) (port : ℕ) (answers : List Text), host ≠ [] →
      1 ≤ port ∧ port ≤ 65535 → resolver host = .ok answers →
        Complete resolver host port answers := by
  intro h
  have hcomplete := h (fun _ => .ok ["::ffff:10.0.0.1".toList]) "h".toList 993
    ["::ffff:10.0.0.1".toList] (by decide) (by decide) rfl
  have hdenotes : denotes "::ffff:10.0.0.1".toList = some (.v6 (mapped (ipv4 10 0 0 1))) := by
    decide
  have hinternal : InternalV4 (ipv4 10 0 0 1) :=
    ⟨(ipv4 10 0 0 0, ipv4 10 255 255 255), by decide, by decide, by decide⟩
  obtain ⟨e, he⟩ := hcomplete.1 ⟨_, List.mem_singleton_self _, _, hdenotes,
    Or.inr (Or.inr ⟨_, rfl, hinternal⟩)⟩
  have haccepts : assertPublicHost true (fun _ => .ok ["::ffff:10.0.0.1".toList]) "h".toList 993 =
      .ok () := by decide
  rw [haccepts] at he
  cases he

end HostGuard

end MailAggregator
