import MailAggregator.External.RateLimit
import MailAggregator.Lib.Epochs
import MailAggregator.Lib.Transition
import Mathlib.Algebra.Order.Ring.Nat

set_option relaxedAutoImplicit false
set_option autoImplicit false

/-!
# How many calls the limiter accepts

A call of `consume` sends an `INCR` and then an `EXPIRE … NX`, and other calls may run between the
two. The value of the `INCR` decides whether the call is accepted. A counter without an expiry lives
on until a call gives it one; a counter with one is gone after its time, and the next `INCR` begins
a new lifetime of the key.

## Main definitions

* `MailAggregator.RateLimit.limiterSystem` — calls on one key, the clock and crashes.

## Main results

* `MailAggregator.RateLimit.consume_run` — a call that runs alone is `consume`.
* `MailAggregator.RateLimit.limiter_bound` — the accepted calls of a lifetime and of an interval,
  and the expiry of the counter.

## Design

The state remembers which lifetime of the key each call has met, and when. The time of an accepted
call is that of its `INCR`, which decides it. Times are in milliseconds.
-/

namespace MailAggregator

open PyText Transition

namespace RateLimit

/-! ## The system -/

/-- A call that an `INCR` has accepted: the lifetime of the key that it has met, and the time. -/
structure Accepted where
  lifetime : ℕ
  time : ℕ
  deriving DecidableEq, Repr

/-- The clock and Redis; the calls between their two commands, and those that have completed, by
the lifetime that their `INCR` has met; the lifetimes of the key so far, and when the last one has
begun; the accepted calls. -/
structure LimiterState where
  now : ℕ
  redis : Redis
  inFlight : List ℕ
  completed : List ℕ
  lifetime : ℕ
  begun : ℕ
  accepted : List Accepted

/-- The steps. -/
inductive LimiterLabel where
  /-- Time passes. -/
  | tick (milliseconds : ℕ)
  /-- The `INCR` of a new call. -/
  | incr
  /-- The `EXPIRE … NX` of the `i`-th call in flight, which completes it. -/
  | expire (i : ℕ)
  /-- The client of the `i`-th call in flight crashes. -/
  | crash (i : ℕ)

variable (limit : Limit) (key : Text)

/-- The lifetime that an `INCR` meets: a new one if the counter is gone. -/
def lifetimeMet (s : LimiterState) : ℕ :=
  if s.redis.get s.now (redisKey limit key) = none then s.lifetime + 1 else s.lifetime

/-- The state after an `INCR`. -/
def incrStep (s : LimiterState) : LimiterState where
  now := s.now
  redis := (s.redis.incr s.now (redisKey limit key)).1
  inFlight := lifetimeMet limit key s :: s.inFlight
  completed := s.completed
  lifetime := lifetimeMet limit key s
  begun := if s.redis.get s.now (redisKey limit key) = none then s.now else s.begun
  accepted :=
    if limit.capacity < (s.redis.incr s.now (redisKey limit key)).2 then s.accepted
    else ⟨lifetimeMet limit key s, s.now⟩ :: s.accepted

/-- Calls of `consume` on one key, from any time and a Redis without a counter for it. -/
def limiterSystem : System LimiterState LimiterLabel where
  init s :=
    s.redis (redisKey limit key) = none ∧ s.inFlight = [] ∧ s.completed = [] ∧ s.lifetime = 0 ∧
      s.begun = 0 ∧ s.accepted = []
  next s
    | .tick milliseconds => some { s with now := s.now + milliseconds }
    | .incr => some (incrStep limit key s)
    | .expire i =>
      (s.inFlight[i]?).map fun lifetime =>
        { s with
          redis := s.redis.expireNx s.now (redisKey limit key) limit.windowSeconds
          inFlight := s.inFlight.eraseIdx i
          completed := lifetime :: s.completed }
    | .crash i => (s.inFlight[i]?).map fun _ => { s with inFlight := s.inFlight.eraseIdx i }

/-- The counter after the two commands of a call, one after the other, is that of `consume`, and so
is its verdict. -/
theorem consume_run (s : LimiterState) {key : Text} (hkey : key ≠ []) (d : ℕ) (ttl : ℕ) :
    ∃ t, (limiterSystem limit key).run s [.incr, .tick d, .expire 0] = some t ∧
      t.redis = (consume limit key ⟨s.now, s.now + d, ttl⟩ s.redis).1 ∧
      ((consume limit key ⟨s.now, s.now + d, ttl⟩ s.redis).2 = .ok () ↔
        t.accepted = ⟨lifetimeMet limit key s, s.now⟩ :: s.accepted) := by
  refine ⟨_, rfl, ?_, ?_⟩
  · rw [consume, if_neg hkey]
    simp only
    split_ifs <;> rfl
  · rw [consume, if_neg hkey]
    have hvalue : (countRequest limit key ⟨s.now, s.now + d, ttl⟩ s.redis).2 =
        (s.redis.incr s.now (redisKey limit key)).2 := rfl
    simp only [incrStep, hvalue]
    split_ifs with hcap
    · refine iff_of_false (by simp) fun h => ?_
      exact absurd (congrArg List.length h) (by simp)
    · simp

/-! ## The invariant -/

/-- The counter of the key, also if its time has passed. -/
def counter (s : LimiterState) : Option Counter := s.redis (redisKey limit key)

/-- The length of the window. -/
def window : ℕ := 1000 * limit.windowSeconds

/-- **When the accepted calls were.** The last lifetime has begun after the calls of the earlier
ones, and a window after all but those of the one before. -/
structure Timeline (window now lifetime begun : ℕ) (accepted : List Accepted) : Prop where
  begun_le : begun ≤ now
  time_le : ∀ a ∈ accepted, a.time ≤ now
  lifetime_le : ∀ a ∈ accepted, a.lifetime ≤ lifetime
  earlier : ∀ a ∈ accepted, a.lifetime < lifetime → a.time ≤ begun
  apart : ∀ a ∈ accepted, ∀ b ∈ accepted, a.lifetime < b.lifetime → b.lifetime < lifetime →
    a.time + window ≤ begun
  separated : Epochs.Separated Accepted.lifetime Accepted.time window accepted

section Timeline

variable {window now lifetime begun : ℕ} {accepted : List Accepted}

theorem Timeline.tick (h : Timeline window now lifetime begun accepted) (d : ℕ) :
    Timeline window (now + d) lifetime begun accepted where
  begun_le := h.begun_le.trans (Nat.le_add_right now d)
  time_le a ha := (h.time_le a ha).trans (Nat.le_add_right now d)
  lifetime_le := h.lifetime_le
  earlier := h.earlier
  apart := h.apart
  separated := h.separated

/-- A new lifetime begins, a window after the last one has begun. -/
theorem Timeline.renew (h : Timeline window now lifetime begun accepted)
    (hgap : accepted = [] ∨ begun + window ≤ now) :
    Timeline window now (lifetime + 1) now accepted where
  begun_le := le_rfl
  time_le := h.time_le
  lifetime_le a ha := (h.lifetime_le a ha).trans (Nat.le_succ lifetime)
  earlier a ha _ := h.time_le a ha
  apart := by
    intro a ha b hb hab hb'
    rcases hgap with hnone | hgap
    · rw [hnone] at ha
      cases ha
    · have hlast := h.lifetime_le b hb
      have hearlier := h.earlier a ha (by omega)
      omega
  separated := h.separated

/-- A call of the last lifetime is accepted. -/
theorem Timeline.accept (h : Timeline window now lifetime begun accepted) :
    Timeline window now lifetime begun (⟨lifetime, now⟩ :: accepted) := by
  have hapart (a : Accepted) (ha : a ∈ accepted) (b : Accepted) (hb : b ∈ accepted)
      (hab : a.lifetime < b.lifetime) (hb' : b.lifetime < lifetime) : a.time + window ≤ now :=
    (h.apart a ha b hb hab hb').trans h.begun_le
  refine ⟨h.begun_le, ?_, ?_, ?_, ?_, h.separated.cons h.lifetime_le hapart⟩
  · rintro a (_ | ⟨_, ha⟩)
    · exact le_rfl
    · exact h.time_le a ha
  · rintro a (_ | ⟨_, ha⟩)
    · exact le_rfl
    · exact h.lifetime_le a ha
  · rintro a (_ | ⟨_, ha⟩) hlt
    · exact absurd hlt (lt_irrefl lifetime)
    · exact h.earlier a ha hlt
  · rintro a (_ | ⟨_, ha⟩) b (_ | ⟨_, hb⟩) hab hb'
    · exact absurd hb' (lt_irrefl lifetime)
    · exact absurd hab (h.lifetime_le b hb).not_gt
    · exact absurd hb' (lt_irrefl lifetime)
    · exact h.apart a ha b hb hab hb'

end Timeline

/-- **The invariant.** The accepted calls of the last lifetime are bounded by its counter, whose
expiry lies a window after its begin at least; a counter that a completed call has met expires. -/
structure LimiterInv (s : LimiterState) : Prop where
  timeline : Timeline (window limit) s.now s.lifetime s.begun s.accepted
  none_accepted : counter limit key s = none → s.accepted = []
  le_value : ∀ c ∈ counter limit key s,
    (s.accepted.filter fun a => a.lifetime = s.lifetime).length ≤ c.value
  le_capacity : ∀ e, (s.accepted.filter fun a => a.lifetime = e).length ≤ limit.capacity
  expiry : ∀ c ∈ counter limit key s, ∀ t ∈ c.expiresAt, s.begun + window limit ≤ t
  inFlight_le : ∀ e ∈ s.inFlight, e ≤ s.lifetime
  completed_le : ∀ e ∈ s.completed, e ≤ s.lifetime
  expires : s.lifetime ∈ s.completed → ∀ c ∈ counter limit key s, c.expiresAt ≠ none

section Step

variable {limit key} {s s' : LimiterState}

/-- A counter that is gone has had its time. -/
theorem expired_of_get_eq_none (h : s.redis.get s.now (redisKey limit key) = none) :
    ∀ c ∈ counter limit key s, ∃ t ∈ c.expiresAt, t < s.now := by
  intro c hc
  rw [Redis.get, Option.filter_eq_none_iff] at h
  have hdead := h c hc
  cases hexpires : c.expiresAt with
  | none => simp [hexpires] at hdead
  | some t => exact ⟨t, rfl, by simpa [hexpires] using hdead⟩

theorem counter_of_get {c : Counter} (h : s.redis.get s.now (redisKey limit key) = some c) :
    counter limit key s = some c := by
  rw [Redis.get, Option.filter_eq_some_iff] at h
  exact h.1

/-- An `INCR` of a counter that is gone begins a new lifetime.

**Proof sketch.** The counter that was there has expired, if there was one, and its expiry lies a
window behind its begin by the invariant. So the new lifetime begins a window after the last one,
and the timeline gets a new interval. The counter is one and has no expiry yet; the request is the
first that the new lifetime may accept. -/
theorem LimiterInv.incr_new (hinv : LimiterInv limit key s)
    (h : s.redis.get s.now (redisKey limit key) = none) :
    LimiterInv limit key (incrStep limit key s) := by
  have hcounter : counter limit key (incrStep limit key s) = some ⟨1, none⟩ := by
    simp [counter, incrStep, Redis.incr, h]
  have hgap : s.accepted = [] ∨ s.begun + window limit ≤ s.now := by
    cases hold : counter limit key s with
    | none => exact Or.inl (hinv.none_accepted hold)
    | some c =>
      obtain ⟨t, ht, hlt⟩ := expired_of_get_eq_none h c hold
      have hexpiry := hinv.expiry c hold t ht
      exact Or.inr (by omega)
  have hnew : s.accepted.filter (fun a => a.lifetime = s.lifetime + 1) = [] := by
    rw [List.filter_eq_nil_iff]
    intro a ha heq
    have hle := hinv.timeline.lifetime_le a ha
    simp only [decide_eq_true_eq] at heq
    omega
  have hrenewed := hinv.timeline.renew hgap
  have hvalue : (s.redis.incr s.now (redisKey limit key)).2 = 1 := by simp [Redis.incr, h]
  refine ⟨?_, by simp [hcounter], ?_, ?_, by simp [hcounter], ?_, ?_, ?_⟩
  · simp only [incrStep, lifetimeMet, if_pos h]
    split_ifs
    · exact hrenewed
    · exact hrenewed.accept
  · intro c hc
    obtain rfl := Option.some.inj (hcounter.symm.trans hc)
    simp only [incrStep, lifetimeMet, if_pos h]
    split_ifs
    · simp [hnew]
    · simp [hnew]
  · intro e
    have hbound := hinv.le_capacity e
    simp only [incrStep, lifetimeMet, if_pos h, hvalue]
    split_ifs with hcap
    · exact hbound
    · by_cases he : s.lifetime + 1 = e
      · subst he
        simp only [List.filter_cons, decide_true, if_true, hnew, List.length_singleton]
        omega
      · simpa [List.filter_cons, he] using hbound
  · intro e he
    simp only [incrStep, lifetimeMet, if_pos h] at he ⊢
    rcases List.mem_cons.mp he with rfl | he
    · exact le_rfl
    · exact (hinv.inFlight_le e he).trans (Nat.le_succ s.lifetime)
  · intro e he
    simp only [incrStep, lifetimeMet, if_pos h]
    exact (hinv.completed_le e he).trans (Nat.le_succ s.lifetime)
  · intro hcompleted
    simp only [incrStep, lifetimeMet, if_pos h] at hcompleted
    have hle := hinv.completed_le _ hcompleted
    omega

/-- An `INCR` of a counter that is there goes on with its lifetime.

**Proof sketch.** The counter is there, so that the lifetime goes on and the value grows by one. It
was at least the number of the requests that the lifetime has accepted; one more is accepted only if
the new value is within the limit, and then both have grown by one. The expiry is untouched. -/
theorem LimiterInv.incr_old (hinv : LimiterInv limit key s) {c : Counter}
    (h : s.redis.get s.now (redisKey limit key) = some c) :
    LimiterInv limit key (incrStep limit key s) := by
  have hne : ¬ s.redis.get s.now (redisKey limit key) = none := by simp [h]
  have hcounter : counter limit key (incrStep limit key s) =
      some { c with value := c.value + 1 } := by
    simp [counter, incrStep, Redis.incr, h]
  have hold := counter_of_get h
  have hvalue : (s.redis.incr s.now (redisKey limit key)).2 = c.value + 1 := by
    simp [Redis.incr, h]
  have hle := hinv.le_value c hold
  refine ⟨?_, by simp [hcounter], ?_, ?_, ?_, ?_, ?_, ?_⟩
  · simp only [incrStep, lifetimeMet, if_neg hne]
    split_ifs
    · exact hinv.timeline
    · exact hinv.timeline.accept
  · intro c' hc'
    obtain rfl := Option.some.inj (hcounter.symm.trans hc')
    simp only [incrStep, lifetimeMet, if_neg hne]
    split_ifs
    · omega
    · simp only [List.filter_cons, decide_true, if_true, List.length_cons]
      omega
  · intro e
    have hbound := hinv.le_capacity e
    simp only [incrStep, lifetimeMet, if_neg hne, hvalue]
    split_ifs with hcap
    · exact hbound
    · by_cases he : s.lifetime = e
      · subst he
        simp only [List.filter_cons, decide_true, if_true, List.length_cons]
        omega
      · simpa [List.filter_cons, he] using hbound
  · intro c' hc' t ht
    obtain rfl := Option.some.inj (hcounter.symm.trans hc')
    simp only [incrStep, if_neg hne]
    exact hinv.expiry c hold t ht
  · intro e he
    simp only [incrStep, lifetimeMet, if_neg hne] at he ⊢
    rcases List.mem_cons.mp he with rfl | he
    · exact le_rfl
    · exact hinv.inFlight_le e he
  · intro e he
    simp only [incrStep, lifetimeMet, if_neg hne]
    exact hinv.completed_le e he
  · intro hcompleted c' hc'
    simp only [incrStep, lifetimeMet, if_neg hne] at hcompleted
    obtain rfl := Option.some.inj (hcounter.symm.trans hc')
    exact hinv.expires hcompleted c hold

/-- The counter after an `EXPIRE … NX`: if there is one, it expires, and not before a window from
now if it did not expire before. -/
theorem counter_expireNx (s : LimiterState) {c' : Counter}
    (h : s.redis.expireNx s.now (redisKey limit key) limit.windowSeconds (redisKey limit key) =
      some c') :
    ∃ c ∈ counter limit key s, c'.value = c.value ∧ c'.expiresAt ≠ none ∧
      (c'.expiresAt = c.expiresAt ∨ c'.expiresAt = some (s.now + window limit)) := by
  rw [Redis.expireNx] at h
  cases hget : s.redis.get s.now (redisKey limit key) with
  | none =>
    rw [hget] at h
    obtain ⟨t, ht, -⟩ := expired_of_get_eq_none hget c' h
    have hsome : c'.expiresAt = some t := ht
    exact ⟨c', h, rfl, by simp [hsome], Or.inl rfl⟩
  | some c =>
    rw [hget] at h
    have hold := counter_of_get hget
    by_cases hexpires : c.expiresAt = none
    · simp only [if_pos hexpires, Function.update_self, Option.some.injEq] at h
      subst h
      exact ⟨c, hold, rfl, by simp, Or.inr rfl⟩
    · simp only [if_neg hexpires] at h
      obtain rfl := Option.some.inj (hold.symm.trans h)
      exact ⟨c, hold, rfl, hexpires, Or.inl rfl⟩

/-- An `EXPIRE … NX` removes no counter. -/
theorem counter_eq_none_of_expireNx (s : LimiterState)
    (h : s.redis.expireNx s.now (redisKey limit key) limit.windowSeconds (redisKey limit key) =
      none) : counter limit key s = none := by
  rw [Redis.expireNx] at h
  cases hget : s.redis.get s.now (redisKey limit key) with
  | none =>
    rw [hget] at h
    exact h
  | some c =>
    rw [hget] at h
    by_cases hexpires : c.expiresAt = none
    · simp [hexpires] at h
    · simp only [if_neg hexpires] at h
      exact h

/-- Every step keeps the invariant.

**Proof sketch.** By cases on the step. An `INCR` goes on with a lifetime or begins a new one. An
`EXPIRE` gives the counter an expiry only where it has none, and then a window from now, which is no
earlier than a window from the begin of the lifetime. A crash drops a call in flight and changes no
counter. Time only moves the clock. -/
theorem LimiterInv.next (hinv : LimiterInv limit key s) {label : LimiterLabel}
    (h : (limiterSystem limit key).next s label = some s') : LimiterInv limit key s' := by
  cases label with
  | tick milliseconds =>
    obtain rfl := Option.some.inj h
    exact { hinv with timeline := hinv.timeline.tick milliseconds }
  | incr =>
    obtain rfl := Option.some.inj h
    cases hget : s.redis.get s.now (redisKey limit key) with
    | none => exact hinv.incr_new hget
    | some c => exact hinv.incr_old hget
  | expire i =>
    obtain ⟨lifetime, hmem, rfl⟩ := Option.map_eq_some_iff.mp h
    have hinFlight : lifetime ∈ s.inFlight := List.mem_of_getElem? hmem
    refine ⟨hinv.timeline, ?_, ?_, hinv.le_capacity, ?_, ?_, ?_, ?_⟩
    · intro hnone
      exact hinv.none_accepted (counter_eq_none_of_expireNx s hnone)
    · intro c' hc'
      obtain ⟨c, hold, hvalue, -, -⟩ := counter_expireNx s hc'
      rw [hvalue]
      exact hinv.le_value c hold
    · intro c' hc' t ht
      obtain ⟨c, hold, -, -, hexpires⟩ := counter_expireNx s hc'
      rcases hexpires with hsame | hset
      · exact hinv.expiry c hold t (hsame ▸ ht)
      · obtain rfl := Option.some.inj (hset.symm.trans ht)
        exact Nat.add_le_add_right hinv.timeline.begun_le _
    · exact fun e he => hinv.inFlight_le e (List.mem_of_mem_eraseIdx he)
    · intro e he
      rcases List.mem_cons.mp he with rfl | he
      · exact hinv.inFlight_le _ hinFlight
      · exact hinv.completed_le e he
    · intro _ c' hc'
      obtain ⟨c, -, -, hset, -⟩ := counter_expireNx s hc'
      exact hset
  | crash i =>
    obtain ⟨_, -, rfl⟩ := Option.map_eq_some_iff.mp h
    exact { hinv with inFlight_le := fun e he => hinv.inFlight_le e (List.mem_of_mem_eraseIdx he) }

end Step

/-- **The bound of the limiter.** In every reachable state at most `capacity` calls have been
accepted in each lifetime of the key, at most twice as many in an interval as long as the window,
and a counter that a completed call has met in its lifetime expires.

**Proof sketch.** An accepted call finds the counter below the capacity and raises it. A counter
expires a window after its first call at the earliest, so that a lifetime begins a window after the
one before it, and an interval as long as the window meets two lifetimes at most. Every call sends
its `EXPIRE … NX` after its `INCR`: if it has met the last lifetime, the counter has an expiry, from
this call or from another one. -/
theorem limiter_bound {s : LimiterState} (h : (limiterSystem limit key).Reachable s) :
    (∀ e, (s.accepted.filter fun a => a.lifetime = e).length ≤ limit.capacity) ∧
    (∀ t, (s.accepted.filter fun a =>
      t ≤ a.time ∧ a.time < t + window limit).length ≤ 2 * limit.capacity) ∧
    (s.lifetime ∈ s.completed → ∀ c ∈ s.redis.get s.now (redisKey limit key),
      c.expiresAt ≠ none) := by
  have hinv : LimiterInv limit key s := by
    refine System.ReachableWhen.invariant (fun s hs => ?_)
      (fun s label s' hinv _ hn => hinv.next hn) h
    obtain ⟨hnone, hinFlight, hcompleted, hlifetime, hbegun, haccepted⟩ := hs
    have hcounter : counter limit key s = none := hnone
    refine ⟨?_, fun _ => haccepted, by simp [hcounter], by simp [haccepted], by simp [hcounter],
      by simp [hinFlight], by simp [hcompleted], by simp [hcompleted]⟩
    rw [haccepted, hlifetime, hbegun]
    exact ⟨Nat.zero_le _, by simp, by simp, by simp, by simp, Epochs.separated_nil⟩
  exact ⟨hinv.le_capacity,
    fun t => Epochs.length_filter_interval_le hinv.le_capacity hinv.timeline.separated t,
    fun hcompleted c hc => hinv.expires hcompleted c (counter_of_get hc)⟩

/-- No call has been made. -/
def unlimited : LimiterState where
  now := 0
  redis := fun _ => none
  inFlight := []
  completed := []
  lifetime := 0
  begun := 0
  accepted := []

/-- Two calls of a client within a window, the second one between the commands of the first. -/
theorem limiter_bound_two : ∃ s,
    (limiterSystem limitExternalWrite "ip:1".toList).run unlimited
      [.incr, .tick 5, .incr, .expire 1, .expire 0] = some s ∧ s.accepted.length = 2 ∧
    (s.accepted.filter fun a =>
      0 ≤ a.time ∧ a.time < 0 + window limitExternalWrite).length ≤ 2 * 60 ∧
    ∀ c ∈ s.redis.get s.now (redisKey limitExternalWrite "ip:1".toList),
      c.expiresAt ≠ none := by
  have hinit : (limiterSystem limitExternalWrite "ip:1".toList).Reachable unlimited :=
    .init ⟨rfl, rfl, rfl, rfl, rfl, rfl⟩
  obtain ⟨s, hrun, hcount, hcompleted⟩ : ∃ s,
      (limiterSystem limitExternalWrite "ip:1".toList).run unlimited
        [.incr, .tick 5, .incr, .expire 1, .expire 0] = some s ∧ s.accepted.length = 2 ∧
      s.lifetime ∈ s.completed := ⟨_, rfl, by decide, by decide⟩
  obtain ⟨-, hwindow, hexpires⟩ := limiter_bound limitExternalWrite "ip:1".toList (hinit.run hrun)
  exact ⟨s, hrun, hcount, hwindow 0, hexpires hcompleted⟩

end RateLimit

end MailAggregator
