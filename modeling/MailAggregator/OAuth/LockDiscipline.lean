import MailAggregator.OAuth.RefreshSafety

set_option relaxedAutoImplicit false
set_option autoImplicit false

/-!
# What the refresh lock guarantees

The refresh lock keeps calls apart as long as it covers them: no call falls back to a refresh
without the lock, the lock does not expire under a call that refreshes, and no re-link commits
while a call refreshes. Then no commit comes between a refresh's read of the row and its own.

## Main definitions

* `MailAggregator.OAuthRefresh.Covered` — the condition on a step.
* `MailAggregator.OAuthRefresh.LockInv` — at most one call refreshes, and it has the lock.

## Main results

* `MailAggregator.OAuthRefresh.promises_of_covered` — in runs whose steps meet the condition both
  promises are kept.
-/

namespace MailAggregator

open PyText Transition OutlookTokenService

namespace OAuthRefresh

/-- Phases of `_do_refresh`: from the row it works with to the commit. -/
def CallPhase.Refreshing : CallPhase → Prop
  | .refreshing | .sent _ | .answered _ _ | .refused _ => True
  | _ => False

/-- Phases that the lock is for. -/
def CallPhase.Exclusive (p : CallPhase) : Prop := p = .locked ∨ p.Refreshing

/-- **The lock covers the refreshes.** Time does not pass the expiry of a lock whose call is not
done with the row, no wait runs into its deadline with a stale token, and no re-link commits while
a call refreshes. -/
def Covered (s : RefreshState) : RefreshLabel → Prop
  | .tick d => ∀ c call, s.calls c = some call → call.phase.Exclusive →
      ∀ l ∈ s.lock, s.now + d < l.2
  | .poll c => ∀ call ∈ s.calls c, ∀ deadline, call.phase = .waiting deadline →
      s.now < deadline ∨ s.account.oauthNeedsConsent = true ∨
        cachedAccessToken s.now s.account ≠ .stale
  | .relinkCommit _ _ => ∀ c call, s.calls c = some call → ¬ call.phase.Refreshing
  | _ => True

/-- **The invariant of the lock.** Lock tokens are not given out twice, a call that the lock is for
has it, and a call that refreshes works with the row as it is. -/
structure LockInv (s : RefreshState) : Prop where
  lock_lt : ∀ l ∈ s.lock, l.1 < s.nextLockToken
  token_lt : ∀ c call n, s.calls c = some call → call.lockToken = some n → n < s.nextLockToken
  distinct : ∀ c c' call call' n, s.calls c = some call → s.calls c' = some call' →
    call.lockToken = some n → call'.lockToken = some n → c = c'
  holds : ∀ c call, s.calls c = some call → call.phase.Exclusive →
    ∃ l ∈ s.lock, call.lockToken = some l.1 ∧ s.now < l.2
  version : ∀ c call, s.calls c = some call → call.phase.Refreshing → call.version = s.version

variable {s t : RefreshState}

/-- At most one call is in the phases that the lock is for. -/
theorem LockInv.eq_of_exclusive (h : LockInv s) {c c' : ℕ} {call call' : Call}
    (hc : s.calls c = some call) (hc' : s.calls c' = some call') (he : call.phase.Exclusive)
    (he' : call'.phase.Exclusive) : c = c' := by
  obtain ⟨l, hl, htoken, -⟩ := h.holds c call hc he
  obtain ⟨l', hl', htoken', -⟩ := h.holds c' call' hc' he'
  obtain rfl : l = l' := Option.some.inj (hl.symm.trans hl')
  exact h.distinct c c' call call' l.1 hc hc' htoken htoken'

/-- What is left of a call after a step: a record that has no lock token and that the lock is not
for, or one with the lock token of the record before. -/
def Inherits (s : RefreshState) (c : ℕ) (call' : Call) : Prop :=
  call'.lockToken = none ∧ ¬ call'.phase.Exclusive ∨
    ∃ call, s.calls c = some call ∧ call'.lockToken = call.lockToken ∧
      (call'.phase.Exclusive → call.phase.Exclusive)

/-- **A call moves on or ends**, and gets no lock token, while the lock stays as it is.

**Proof sketch.** The other calls are unchanged, and the one that acts has its lock token from
before, or none. So tokens stay below the next one and distinct, and a call in its critical section
was there before and still holds the lock. The versions are given by the hypotheses. -/
theorem LockInv.act {c : ℕ} {rest : Option Call} (h : LockInv s)
    (hcalls : t.calls = Function.update s.calls c rest) (hlock : t.lock = s.lock)
    (hnext : t.nextLockToken = s.nextLockToken) (hnow : t.now = s.now)
    (hversion : ∀ c' call', c' ≠ c → s.calls c' = some call' → call'.phase.Refreshing →
      call'.version = t.version)
    (hrest : ∀ call', rest = some call' → Inherits s c call' ∧
      (call'.phase.Refreshing → call'.version = t.version)) : LockInv t := by
  have hget : ∀ c' call', t.calls c' = some call' →
      Inherits s c' call' ∧ (call'.phase.Refreshing → call'.version = t.version) := by
    intro c' call' hcall'
    rw [hcalls, Function.update_apply] at hcall'
    split_ifs at hcall' with hne
    · subst hne
      exact hrest call' hcall'
    · exact ⟨Or.inr ⟨call', hcall', rfl, id⟩, hversion c' call' hne hcall'⟩
  -- a call with a lock token had it before
  have htoken : ∀ c' call' n, t.calls c' = some call' → call'.lockToken = some n →
      ∃ call, s.calls c' = some call ∧ call.lockToken = some n := by
    intro c' call' n hcall' hn
    rcases (hget c' call' hcall').1 with ⟨hnone, -⟩ | ⟨call, hcall, heq, -⟩
    · rw [hnone] at hn
      cases hn
    · exact ⟨call, hcall, heq ▸ hn⟩
  refine ⟨fun l hl => ?_, fun c' call' n hcall' hn => ?_,
    fun c₁ c₂ call₁ call₂ n h₁ h₂ hn₁ hn₂ => ?_, fun c' call' hcall' he => ?_,
    fun c' call' hcall' => (hget c' call' hcall').2⟩
  · rw [hlock] at hl
    rw [hnext]
    exact h.lock_lt l hl
  · obtain ⟨call, hcall, hn'⟩ := htoken c' call' n hcall' hn
    rw [hnext]
    exact h.token_lt c' call n hcall hn'
  · obtain ⟨call₁', h₁', hn₁'⟩ := htoken c₁ call₁ n h₁ hn₁
    obtain ⟨call₂', h₂', hn₂'⟩ := htoken c₂ call₂ n h₂ hn₂
    exact h.distinct c₁ c₂ call₁' call₂' n h₁' h₂' hn₁' hn₂'
  · rcases (hget c' call' hcall').1 with ⟨-, hno⟩ | ⟨call, hcall, heq, hex⟩
    · exact absurd he hno
    · rw [hlock, heq, hnow]
      exact h.holds c' call hcall (hex he)

/-- A call that ends. -/
theorem LockInv.ended {c : ℕ} (h : LockInv s) (hcalls : t.calls = Function.update s.calls c none)
    (hlock : t.lock = s.lock) (hnext : t.nextLockToken = s.nextLockToken) (hnow : t.now = s.now)
    (hversion : ∀ c' call', c' ≠ c → s.calls c' = some call' → call'.phase.Refreshing →
      call'.version = t.version) : LockInv t := by
  refine h.act hcalls hlock hnext hnow hversion fun call' hnone => ?_
  cases hnone

/-- A call that returns or raises is out of the phases that the lock is for. -/
theorem LockInv.finished {c : ℕ} {call : Call} (h : LockInv s) (hc : s.calls c = some call)
    (hcalls : t.calls = Function.update s.calls c call.finished)
    (hlock : t.lock = s.lock) (hnext : t.nextLockToken = s.nextLockToken) (hnow : t.now = s.now)
    (hversion : ∀ c' call', c' ≠ c → s.calls c' = some call' → call'.phase.Refreshing →
      call'.version = t.version) : LockInv t := by
  refine h.act hcalls hlock hnext hnow hversion fun call' hcall' => ?_
  obtain ⟨n, hn, rfl⟩ := Option.map_eq_some_iff.mp hcall'
  exact ⟨Or.inr ⟨call, hc, rfl, fun he => he.elim (fun h => by cases h) False.elim⟩, False.elim⟩

/-- What changes neither the calls, the lock nor the version. -/
theorem LockInv.same (h : LockInv s) (hcalls : t.calls = s.calls) (hlock : t.lock = s.lock)
    (hnext : t.nextLockToken = s.nextLockToken) (hnow : t.now = s.now)
    (hversion : t.version = s.version) : LockInv t := by
  refine ⟨?_, ?_, ?_, ?_, ?_⟩
  · rw [hlock, hnext]
    exact h.lock_lt
  · rw [hcalls, hnext]
    exact h.token_lt
  · rw [hcalls]
    exact h.distinct
  · rw [hcalls, hlock, hnow]
    exact h.holds
  · rw [hcalls, hversion]
    exact h.version

/-- A step of one call that does not write the row, in the phases before or after `_do_refresh` or
within it. -/
theorem LockInv.moved {c : ℕ} {call call' : Call} (h : LockInv s) (hc : s.calls c = some call)
    (hcalls : t.calls = Function.update s.calls c (some call')) (hlock : t.lock = s.lock)
    (hnext : t.nextLockToken = s.nextLockToken) (hnow : t.now = s.now)
    (hversion : t.version = s.version) (htoken : call'.lockToken = call.lockToken)
    (hex : call'.phase.Exclusive → call.phase.Exclusive)
    (hrefreshing : call'.phase.Refreshing → call'.version = s.version) : LockInv t := by
  refine h.act hcalls hlock hnext hnow (fun c₁ call₁ _ hcall₁ hr => ?_) fun call₁ hcall₁ => ?_
  · rw [hversion]
    exact h.version c₁ call₁ hcall₁ hr
  · obtain rfl := Option.some.inj hcall₁
    exact ⟨Or.inr ⟨call, hc, htoken, hex⟩, hversion ▸ hrefreshing⟩

/-- **Acquiring the lock**: no other call is in the phases that it is for.

**Proof sketch.** The lock was free, so that no call was in its critical section. The new token is
above all tokens that were given out, hence it is no other call's; the lock now carries it, and the
call that holds it is not refreshing yet. -/
theorem LockInv.acquired {c : ℕ} {call : Call} (h : LockInv s) (hfree : ¬ s.LockHeld) :
    LockInv
      { s.setCall c { call with lockToken := some s.nextLockToken, phase := .locked } with
        lock := some (s.nextLockToken, s.now + seconds oauthRefreshLockTtlSeconds)
        nextLockToken := s.nextLockToken + 1 } := by
  have hnone : ∀ c' call', s.calls c' = some call' → ¬ call'.phase.Exclusive := by
    intro c' call' hcall' he
    obtain ⟨l, hl, -, hlt⟩ := h.holds c' call' hcall' he
    exact hfree ⟨l, hl, hlt⟩
  set call₀ : Call := { call with lockToken := some s.nextLockToken, phase := .locked } with hcall₀
  have hget : ∀ c' call', Function.update s.calls c (some call₀) c' = some call' →
      c' = c ∧ call' = call₀ ∨ c' ≠ c ∧ s.calls c' = some call' := by
    intro c' call' hcall'
    rw [Function.update_apply] at hcall'
    split_ifs at hcall' with hne
    · exact Or.inl ⟨hne, (Option.some.inj hcall').symm⟩
    · exact Or.inr ⟨hne, hcall'⟩
  refine ⟨fun l hl => ?_, fun c' call' n hcall' hn => ?_,
    fun c₁ c₂ call₁ call₂ n h₁ h₂ hn₁ hn₂ => ?_, fun c' call' hcall' he => ?_,
    fun c' call' hcall' hr => ?_⟩
  · obtain rfl := Option.some.inj hl
    exact Nat.lt_succ_self _
  · show n < s.nextLockToken + 1
    rcases hget c' call' hcall' with ⟨-, rfl⟩ | ⟨-, hold⟩
    · exact (Option.some.inj hn) ▸ Nat.lt_succ_self _
    · have hlt := h.token_lt c' call' n hold hn
      omega
  · -- the new token is above all tokens that were given out
    rcases hget c₁ call₁ h₁ with ⟨rfl, rfl⟩ | ⟨-, hold₁⟩ <;>
      rcases hget c₂ call₂ h₂ with ⟨rfl, rfl⟩ | ⟨-, hold₂⟩
    · rfl
    · have hlt := h.token_lt c₂ call₂ n hold₂ hn₂
      obtain rfl : s.nextLockToken = n := Option.some.inj hn₁
      exact absurd hlt (lt_irrefl _)
    · have hlt := h.token_lt c₁ call₁ n hold₁ hn₁
      obtain rfl : s.nextLockToken = n := Option.some.inj hn₂
      exact absurd hlt (lt_irrefl _)
    · exact h.distinct c₁ c₂ call₁ call₂ n hold₁ hold₂ hn₁ hn₂
  · rcases hget c' call' hcall' with ⟨-, rfl⟩ | ⟨-, hold⟩
    · have hpos : 0 < seconds oauthRefreshLockTtlSeconds := by decide
      exact ⟨_, rfl, rfl, lt_add_of_pos_right s.now hpos⟩
    · exact absurd he (hnone c' call' hold)
  · rcases hget c' call' hcall' with ⟨-, rfl⟩ | ⟨-, hold⟩
    · exact hr.elim
    · exact absurd (Or.inr hr) (hnone c' call' hold)

/-- **Releasing the lock**: the call whose token it has is done, so it is for no other call. -/
theorem LockInv.released {c n : ℕ} {call : Call} (h : LockInv s) (hc : s.calls c = some call)
    (hphase : ¬ call.phase.Exclusive) (hn : call.lockToken = some n)
    (howner : ∃ l ∈ s.lock, l.1 = n) : LockInv { s.endCall c with lock := none } := by
  obtain ⟨l, hl, rfl⟩ := howner
  have hnone : ∀ c' call', s.calls c' = some call' → ¬ call'.phase.Exclusive := by
    intro c' call' hcall' he
    obtain ⟨l', hl', htoken, -⟩ := h.holds c' call' hcall' he
    obtain rfl : l = l' := Option.some.inj (hl.symm.trans hl')
    obtain rfl := h.distinct c c' call call' l.1 hc hcall' hn htoken
    exact hphase (Option.some.inj (hc.symm.trans hcall') ▸ he)
  have hget : ∀ c' call', (s.endCall c).calls c' = some call' → s.calls c' = some call' := by
    intro c' call' hcall'
    have hupd : Function.update s.calls c none c' = some call' := hcall'
    rw [Function.update_apply] at hupd
    split_ifs at hupd
    exact hupd
  exact ⟨fun l hl => (by cases hl),
    fun c' call' n hcall' => h.token_lt c' call' n (hget _ _ hcall'),
    fun c₁ c₂ call₁ call₂ n h₁ h₂ => h.distinct c₁ c₂ call₁ call₂ n (hget _ _ h₁) (hget _ _ h₂),
    fun c' call' hcall' he => absurd he (hnone c' call' (hget _ _ hcall')),
    fun c' call' hcall' hr => absurd (Or.inr hr) (hnone c' call' (hget _ _ hcall'))⟩

/-- **Every step that the lock covers keeps the invariant.**

**Proof sketch.** By cases on what the step does. Time may take the lock only from a call that is
not in its critical section, which is the condition. A call that gets the lock finds it free and
draws a new token. A call that refreshes holds the lock, so that no other call refreshes and the
version it has read is the current one; only its own commit changes the version, and after that it
does not refresh any more. -/
theorem LockInv.next {l : RefreshLabel} (h : LockInv s) (hg : Covered s l)
    (ht : refreshNext s l = some t) : LockInv t := by
  -- a step that leaves the version alone leaves the other calls alone
  have hkept : ∀ c c' call', c' ≠ c → s.calls c' = some call' → call'.phase.Refreshing →
      call'.version = s.version := fun _ c' call' _ => h.version c' call'
  cases refreshStep_of_next ht with
  | tick d =>
    refine ⟨h.lock_lt, h.token_lt, h.distinct, fun c call hcall he => ?_, h.version⟩
    obtain ⟨l, hl, htoken, -⟩ := h.holds c call hcall he
    exact ⟨l, hl, htoken, hg c call hcall he l hl⟩
  | load c =>
    refine h.act rfl rfl rfl rfl (hkept c) fun call' hcall' => ?_
    obtain rfl := Option.some.inj hcall'
    exact ⟨Or.inl ⟨rfl, fun he => he.elim (fun h => by cases h) id⟩, False.elim⟩
  | finish _ c call hc => exact h.finished hc rfl rfl rfl rfl (hkept c)
  | wait _ c call phase hc hphase =>
    have hout : ¬ phase.Exclusive := by
      rcases hphase with rfl | ⟨deadline, rfl⟩
      · exact fun he => he.elim (fun h => by cases h) id
      · exact fun he => he.elim (fun h => by cases h) id
    exact h.moved hc rfl rfl rfl rfl rfl rfl (fun he => absurd he hout)
      fun hr => absurd (Or.inr hr) hout
  | acquire c call available hfree hc => exact h.acquired hfree
  | idle c => exact h
  | fallBack c call deadline hc hphase hdeadline hconsent hstale =>
    -- the lock covers no wait that runs into its deadline
    rcases hg call hc deadline hphase with hlt | hconsent' | hfresh
    · exact absurd hdeadline (not_le.mpr hlt)
    · exact absurd hconsent' hconsent
    · exact absurd hstale hfresh
  | reread c call hc hphase =>
    exact h.moved hc rfl rfl rfl rfl rfl rfl (fun _ => Or.inl hphase) fun _ => rfl
  | send c call r hc hphase =>
    have hr : call.phase.Refreshing := by rw [hphase]; trivial
    exact h.moved hc rfl rfl rfl rfl rfl rfl (fun _ => Or.inr hr) fun _ => h.version c call hc hr
  | accept c call r tokens hc hphase =>
    have hr : call.phase.Refreshing := by rw [hphase]; trivial
    exact h.moved hc rfl rfl rfl rfl rfl rfl (fun _ => Or.inr hr) fun _ => h.version c call hc hr
  | reject c call r hc hphase =>
    have hr : call.phase.Refreshing := by rw [hphase]; trivial
    exact h.moved hc rfl rfl rfl rfl rfl rfl (fun _ => Or.inr hr) fun _ => h.version c call hc hr
  | persist c call r tokens hc hphase =>
    have hr : call.phase.Refreshing := by rw [hphase]; trivial
    refine h.finished hc rfl rfl rfl rfl fun c' call' hne hcall' hr' => ?_
    exact absurd (h.eq_of_exclusive hcall' hc (Or.inr hr') (Or.inr hr)) hne
  | mark c call r hc => exact h.finished hc rfl rfl rfl rfl (hkept c)
  | release c n call available hc hphase hn howner =>
    refine h.released hc (fun he => ?_) hn howner
    rw [hphase] at he
    exact he.elim (fun h => by cases h) id
  | leave _ c => exact h.ended rfl rfl rfl rfl (hkept c)
  | exchange r tokens => exact h.same rfl rfl rfl rfl rfl
  | relinkCommit r tokens =>
    exact ⟨h.lock_lt, h.token_lt, h.distinct, h.holds,
      fun c call hcall hr => absurd hr (hg c call hcall)⟩
  | revoke r => exact h.same rfl rfl rfl rfl rfl

theorem LockInv.initial (h : s.Initial) : LockInv s where
  lock_lt := h.lock_lt
  token_lt c call n hcall := by
    rw [h.calls c] at hcall
    cases hcall
  distinct c c' call call' n hcall := by
    rw [h.calls c] at hcall
    cases hcall
  holds c call hcall := by
    rw [h.calls c] at hcall
    cases hcall
  version c call hcall := by
    rw [h.calls c] at hcall
    cases hcall

/-- **A covered commit is fresh**: a call that marks or persists works with the row as it is. -/
theorem LockInv.fresh {l : RefreshLabel} (h : LockInv s) (ht : refreshNext s l = some t) :
    FreshMark s l ∧ FreshPersist s l := by
  cases l with
  | mark c =>
    refine ⟨fun call hcall => ?_, trivial⟩
    simp only [refreshNext] at ht
    split at ht
    · next account version token r hcall' =>
      obtain rfl := Option.some.inj (hcall'.symm.trans hcall)
      exact h.version c _ hcall trivial
    · cases ht
  | persist c =>
    refine ⟨trivial, fun call hcall => ?_⟩
    simp only [refreshNext] at ht
    split at ht
    · next account version token r tokens hcall' =>
      obtain rfl := Option.some.inj (hcall'.symm.trans hcall)
      exact h.version c _ hcall trivial
    · cases ht
  | _ => exact ⟨trivial, trivial⟩

/-- **Where the lock covers the refreshes, both promises are kept.** -/
theorem promises_of_covered (h : refreshSystem.ReachableWhen Covered s) :
    NeedsConsentSound s ∧ NoTokenLost s := by
  have hinit : ∀ s, refreshSystem.init s → LockInv s := fun _ => LockInv.initial
  have hstep : ∀ s l t, LockInv s → Covered s l → refreshSystem.next s l = some t → LockInv t :=
    fun _ _ _ hs hg ht => LockInv.next hs hg ht
  have hmark : refreshSystem.ReachableWhen FreshMark s :=
    h.of_invariant hinit hstep fun _ _ _ hs _ ht => (LockInv.fresh hs ht).1
  have hpersist : refreshSystem.ReachableWhen FreshPersist s :=
    h.of_invariant hinit hstep fun _ _ _ hs _ ht => (LockInv.fresh hs ht).2
  exact ⟨(marks_of_freshMark hmark).2, (commits_of_freshPersist hpersist).2⟩

end OAuthRefresh

end MailAggregator
