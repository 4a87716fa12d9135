import MailAggregator.OAuth.RefreshSystem

set_option relaxedAutoImplicit false
set_option autoImplicit false

/-!
# When concurrent refreshes keep their promises

A refresh reads a row, sends its refresh token to the endpoint, and writes the answer to the row
by account id alone. The answer is about the token that was read.

## Main definitions

* `MailAggregator.OAuthRefresh.FreshMark`, `OAuthRefresh.FreshPersist` — the condition on the
  commit of a needed consent, and on the commit of refreshed tokens.

## Main results

* `MailAggregator.OAuthRefresh.needsConsentSound_of_freshMark`,
  `OAuthRefresh.noTokenLost_of_freshPersist` — in runs whose steps meet the condition the promise
  is kept.
* `MailAggregator.OAuthRefresh.winner_marked_dead`, `OAuthRefresh.relink_overwritten` — in other
  runs it is not.
-/

namespace MailAggregator

open PyText Transition OutlookTokenService

namespace OAuthRefresh

/-- No commit has written a refresh token to the row since a call read the row it works with. -/
def Fresh (s : RefreshState) (c : ℕ) : Prop := ∀ call ∈ s.calls c, call.version = s.version

instance (s : RefreshState) (c : ℕ) : Decidable (Fresh s c) :=
  inferInstanceAs (Decidable (∀ call ∈ s.calls c, call.version = s.version))

/-- The condition on the commit of a needed consent. -/
def FreshMark (s : RefreshState) : RefreshLabel → Prop
  | .mark c => Fresh s c
  | _ => True

/-- The condition on the commit of refreshed tokens. -/
def FreshPersist (s : RefreshState) : RefreshLabel → Prop
  | .persist c => Fresh s c
  | _ => True

instance (s : RefreshState) (l : RefreshLabel) : Decidable (FreshMark s l) :=
  match l with
  | .mark c => inferInstanceAs (Decidable (Fresh s c))
  | .tick _ | .load _ | .start _ | .tryLock _ _ | .poll _ | .recheck _ | .send _ | .accept _ _
  | .reject _ | .persist _ | .release _ _ | .abort _ | .crash _ | .exchange _ _
  | .relinkCommit _ _ | .revoke _ => inferInstanceAs (Decidable True)

instance (s : RefreshState) (l : RefreshLabel) : Decidable (FreshPersist s l) :=
  match l with
  | .persist c => inferInstanceAs (Decidable (Fresh s c))
  | .tick _ | .load _ | .start _ | .tryLock _ _ | .poll _ | .recheck _ | .send _ | .accept _ _
  | .reject _ | .mark _ | .release _ _ | .abort _ | .crash _ | .exchange _ _
  | .relinkCommit _ _ | .revoke _ => inferInstanceAs (Decidable True)

/-! ## The invariant of the calls -/

/-- The phase of a call is about the refresh token in the row it works with. -/
def PhaseOK (s : RefreshState) (account : MailAccount) : CallPhase → Prop
  | .sent r | .answered r _ => storedRefreshToken account = some r
  | .refused r => storedRefreshToken account = some r ∧ r ∈ s.rejected
  | _ => True

/-- A call whose row is the current version works with the stored refresh token. -/
structure CallOK (s : RefreshState) (call : Call) : Prop where
  le : call.version ≤ s.version
  stored : call.version = s.version → storedRefreshToken call.account = s.stored
  phase : PhaseOK s call.account call.phase

/-- Every call is about the row it works with. -/
def CallsInv (s : RefreshState) : Prop := ∀ c call, s.calls c = some call → CallOK s call

/-- What a step does to the row and to the endpoint's answers. -/
structure Evolves (s t : RefreshState) : Prop where
  version : s.version ≤ t.version
  stored : t.version = s.version → t.stored = s.stored
  rejected : s.rejected ⊆ t.rejected

variable {s t : RefreshState}

theorem CallOK.evolve {call : Call} (h : CallOK s call) (hev : Evolves s t) : CallOK t call where
  le := h.le.trans hev.version
  stored hv := by
    have hle := h.le
    have hversion := hev.version
    have hs : call.version = s.version := by omega
    rw [h.stored hs, hev.stored (hv.symm.trans hs)]
  phase := by
    have hphase := h.phase
    cases hp : call.phase with
    | refused r =>
      rw [hp] at hphase
      exact ⟨hphase.1, hev.rejected hphase.2⟩
    | sent r =>
      rw [hp] at hphase
      exact hphase
    | answered r tokens =>
      rw [hp] at hphase
      exact hphase
    | _ => trivial

/-- A step of one call. -/
theorem CallsInv.act {c : ℕ} (h : CallsInv s) (hev : Evolves s t)
    (hothers : ∀ c', c' ≠ c → t.calls c' = s.calls c')
    (hc : ∀ call, t.calls c = some call → CallOK t call) : CallsInv t := by
  intro c' call hcall
  by_cases hne : c' = c
  · subst hne
    exact hc call hcall
  · rw [hothers c' hne] at hcall
    exact (h c' call hcall).evolve hev

/-- A call that moves on. -/
theorem CallsInv.moved {c : ℕ} {call : Call} (h : CallsInv s) (hev : Evolves s t)
    (hcalls : t.calls = Function.update s.calls c (some call)) (hcall : CallOK t call) :
    CallsInv t := by
  refine h.act (c := c) hev (fun c' hne => ?_) fun call' hcall' => ?_
  · rw [hcalls, Function.update_of_ne hne]
  · rw [hcalls, Function.update_self] at hcall'
    exact Option.some.inj hcall' ▸ hcall

/-- A call that ends. -/
theorem CallsInv.ended {c : ℕ} (h : CallsInv s) (hev : Evolves s t)
    (hcalls : t.calls = Function.update s.calls c none) : CallsInv t := by
  refine h.act (c := c) hev (fun c' hne => ?_) fun call' hcall' => ?_
  · rw [hcalls, Function.update_of_ne hne]
  · rw [hcalls, Function.update_self] at hcall'
    cases hcall'

/-- No call moves. -/
theorem CallsInv.evolve (h : CallsInv s) (hev : Evolves s t) (hcalls : t.calls = s.calls) :
    CallsInv t := by
  intro c call hcall
  exact (h c call (hcalls ▸ hcall)).evolve hev

/-- A call that returns or raises. -/
theorem CallsInv.finished {c : ℕ} {call : Call} (h : CallsInv s) (hev : Evolves s t)
    (hcall : CallOK s call) (hcalls : t.calls = Function.update s.calls c call.finished) :
    CallsInv t := by
  have hok := hcall.evolve hev
  unfold Call.finished at hcalls
  cases htoken : call.lockToken with
  | none =>
    rw [htoken] at hcalls
    exact h.ended hev hcalls
  | some token =>
    rw [htoken] at hcalls
    exact h.moved hev hcalls ⟨hok.le, hok.stored, trivial⟩

theorem Evolves.calls (s : RefreshState) (calls : ℕ → Option Call) :
    Evolves s { s with calls := calls } :=
  ⟨le_rfl, fun _ => rfl, List.Subset.refl _⟩

/-- The two writes of new tokens count as a new version when they write a refresh token. -/
theorem evolves_persistStep (s : RefreshState) (c : ℕ) (call : Call) (r : Text)
    (tokens : TokenResponse) : Evolves s (persistStep s c call r tokens) := by
  by_cases hw : writesRefreshToken tokens
  · have hversion : (persistStep s c call r tokens).version = s.version + 1 := if_pos hw
    exact ⟨by omega, fun hv => by omega, List.Subset.refl _⟩
  · have hversion : (persistStep s c call r tokens).version = s.version := if_neg hw
    exact ⟨hversion.ge, fun _ => storedRefreshToken_persistRefresh hw s.account,
      List.Subset.refl _⟩

/-- **Every step keeps every call about the row it works with.**

**Proof sketch.** By cases on what the step does. A step changes one call and, in a commit, the row.
The version of the row only grows, and the stored token changes only with it; so what a call says
about its row at the version that it has read stays true. A call that reads the row anew reads the
current version. -/
theorem CallsInv.next {l : RefreshLabel} (h : CallsInv s) (ht : refreshNext s l = some t) :
    CallsInv t := by
  cases refreshStep_of_next ht with
  | tick d => exact h.evolve ⟨le_rfl, fun _ => rfl, List.Subset.refl _⟩ rfl
  | load c => exact h.moved (.calls s _) rfl ⟨le_rfl, fun _ => rfl, trivial⟩
  | finish _ c call hc => exact h.finished (.calls s _) (h c call hc) rfl
  | wait _ c call phase hc hphase =>
    have hok := h c call hc
    refine h.moved (.calls s _) rfl ⟨hok.le, hok.stored, ?_⟩
    rcases hphase with rfl | ⟨deadline, rfl⟩
    · trivial
    · trivial
  | acquire c call available hfree hc =>
    have hok := h c call hc
    exact h.moved ⟨le_rfl, fun _ => rfl, List.Subset.refl _⟩ rfl ⟨hok.le, hok.stored, trivial⟩
  | idle c => exact h
  | fallBack c call deadline hc =>
    have hok := h c call hc
    exact h.moved (.calls s _) rfl ⟨hok.le, hok.stored, trivial⟩
  | reread c call hc => exact h.moved (.calls s _) rfl ⟨le_rfl, fun _ => rfl, trivial⟩
  | send c call r hc _ hr =>
    have hok := h c call hc
    exact h.moved (.calls s _) rfl ⟨hok.le, hok.stored, hr⟩
  | accept c call r tokens hc hphase =>
    have hok := h c call hc
    have hsent := hok.phase
    rw [hphase] at hsent
    exact h.moved ⟨le_rfl, fun _ => rfl, List.Subset.refl _⟩ rfl ⟨hok.le, hok.stored, hsent⟩
  | reject c call r hc hphase =>
    have hok := h c call hc
    have hsent := hok.phase
    rw [hphase] at hsent
    exact h.moved ⟨le_rfl, fun _ => rfl, List.subset_cons_self _ _⟩ rfl
      ⟨hok.le, hok.stored, hsent, List.mem_cons_self⟩
  | persist c call r tokens hc =>
    exact h.finished (evolves_persistStep s c call r tokens) (h c call hc) rfl
  | mark c call r hc =>
    exact h.finished ⟨le_rfl, fun _ => rfl, List.Subset.refl _⟩ (h c call hc) rfl
  | release c n call available =>
    exact h.ended ⟨le_rfl, fun _ => rfl, List.Subset.refl _⟩ rfl
  | leave _ c => exact h.ended (.calls s _) rfl
  | exchange r tokens => exact h.evolve ⟨le_rfl, fun _ => rfl, List.Subset.refl _⟩ rfl
  | relinkCommit r tokens =>
    exact h.evolve ⟨Nat.le_succ _, fun hv => absurd hv (Nat.succ_ne_self _), List.Subset.refl _⟩
      rfl
  | revoke r => exact h.evolve ⟨le_rfl, fun _ => rfl, List.Subset.refl _⟩ rfl

/-! ## The two commits -/

/-- **What a step can record**: only a mark and a persist add to the history, and only a mark
turns `oauth_needs_consent` on. -/
theorem refreshNext_cases {l : RefreshLabel} (ht : refreshNext s l = some t) :
    (∃ c call r, l = .mark c ∧ s.calls c = some call ∧ call.phase = .refused r ∧
        t = markStep s c call) ∨
      (∃ c call r tokens, l = .persist c ∧ s.calls c = some call ∧
        call.phase = .answered r tokens ∧ t = persistStep s c call r tokens) ∨
      (t.consentMarks = s.consentMarks ∧ t.refreshCommits = s.refreshCommits ∧
        (t.account.oauthNeedsConsent = true → s.account.oauthNeedsConsent = true)) := by
  cases refreshStep_of_next ht with
  | mark c call r hc hphase => exact Or.inl ⟨c, call, r, rfl, hc, hphase, rfl⟩
  | persist c call r tokens hc hphase =>
    exact Or.inr (Or.inl ⟨c, call, r, tokens, rfl, hc, hphase, rfl⟩)
  | relinkCommit r tokens => exact Or.inr (Or.inr ⟨rfl, rfl, fun h => by cases h⟩)
  | _ => exact Or.inr (Or.inr ⟨rfl, rfl, id⟩)

/-- **The history is complete**: when a step turns `oauth_needs_consent` on, it records the stored
refresh token and the rejected ones. -/
theorem consentMarks_of_needsConsent {l : RefreshLabel} (ht : refreshNext s l = some t)
    (hs : s.account.oauthNeedsConsent = false) (hon : t.account.oauthNeedsConsent = true) :
    t.consentMarks = ⟨s.stored, s.rejected⟩ :: s.consentMarks := by
  rcases refreshNext_cases ht with ⟨c, call, r, -, -, -, rfl⟩ | ⟨c, call, r, tokens, -, -, -, rfl⟩ |
    ⟨-, -, hkeep⟩
  · exact if_neg (by rw [hs]; exact Bool.false_ne_true)
  · cases hon
  · rw [hkeep hon] at hs
    cases hs

/-- A call that commits for a refresh token, with the row at its version, commits for the stored
one. -/
theorem CallsInv.stored_eq {c : ℕ} {call : Call} (h : CallsInv s) (hg : Fresh s c)
    (hcall : s.calls c = some call) : s.stored = storedRefreshToken call.account :=
  ((h c call hcall).stored (hg call hcall)).symm

/-- Marks that are made for the row as it is are sound. -/
theorem marks_of_freshMark (h : refreshSystem.ReachableWhen FreshMark s) :
    CallsInv s ∧ NeedsConsentSound s := by
  refine h.invariant (P := fun s => CallsInv s ∧ NeedsConsentSound s) (fun s hs => ?_) ?_
  · refine ⟨fun c call hcall => ?_, fun m hm => ?_⟩
    · rw [hs.calls c] at hcall
      cases hcall
    · rw [hs.consentMarks] at hm
      cases hm
  · rintro s l t ⟨hcalls, hsound⟩ hg ht
    refine ⟨hcalls.next ht, fun m hm => ?_⟩
    rcases refreshNext_cases ht with ⟨c, call, r, rfl, hcall, hphase, rfl⟩ |
      ⟨c, call, r, tokens, -, -, -, rfl⟩ | ⟨hmarks, -, -⟩
    · have hok := (hcalls c call hcall).phase
      rw [hphase] at hok
      unfold markStep at hm
      dsimp only at hm
      split_ifs at hm
      · exact hsound m hm
      · rcases List.mem_cons.mp hm with rfl | hm
        · exact ⟨r, hok.2, (hcalls.stored_eq hg hcall).trans hok.1⟩
        · exact hsound m hm
    · exact hsound m hm
    · exact hsound m (hmarks ▸ hm)

/-- Commits to the row that was read lose no refresh token. -/
theorem commits_of_freshPersist (h : refreshSystem.ReachableWhen FreshPersist s) :
    CallsInv s ∧ NoTokenLost s := by
  refine h.invariant (P := fun s => CallsInv s ∧ NoTokenLost s) (fun s hs => ?_) ?_
  · refine ⟨fun c call hcall => ?_, fun m hm => ?_⟩
    · rw [hs.calls c] at hcall
      cases hcall
    · rw [hs.refreshCommits] at hm
      cases hm
  · rintro s l t ⟨hcalls, hkept⟩ hg ht
    refine ⟨hcalls.next ht, fun m hm => ?_⟩
    rcases refreshNext_cases ht with ⟨c, call, r, -, -, -, rfl⟩ |
      ⟨c, call, r, tokens, rfl, hcall, hphase, rfl⟩ | ⟨-, hcommits, -⟩
    · exact hkept m hm
    · have hok := (hcalls c call hcall).phase
      rw [hphase] at hok
      rcases List.mem_cons.mp hm with rfl | hm
      · exact (hcalls.stored_eq hg hcall).trans hok
      · exact hkept m hm
    · exact hkept m (hcommits ▸ hm)

/-- **Needs-consent is sound in every run in which each mark is made for the row as it is.** -/
theorem needsConsentSound_of_freshMark (h : refreshSystem.ReachableWhen FreshMark s) :
    NeedsConsentSound s :=
  (marks_of_freshMark h).2

/-- **No refresh token is lost in any run in which refreshed tokens are committed to the row they
were read from.** -/
theorem noTokenLost_of_freshPersist (h : refreshSystem.ReachableWhen FreshPersist s) :
    NoTokenLost s :=
  (commits_of_freshPersist h).2

/-! ## Runs -/

/-- An account with the refresh token `R0` and no access token. -/
def exampleAccount : MailAccount :=
  { id := 1, userId := 1, email := "a@outlook.com".toList, authType := .oauthOutlook,
    oauthRefreshTokenEncrypted := some (encryptMailPassword "R0".toList 1) }

/-- That account before the first call. -/
def exampleState : RefreshState where
  now := 0
  account := exampleAccount
  version := 0
  lock := none
  nextLockToken := 0
  calls _ := none
  relinks := []
  issued := ["R0".toList]
  superseded := []
  rejected := []
  refreshCommits := []
  consentMarks := []

theorem initial_exampleState : exampleState.Initial where
  lock_lt l hl := by cases hl
  calls _ := rfl
  relinks := rfl
  rejected := rfl
  refreshCommits := rfl
  consentMarks := rfl

/-- Tokens with a new refresh token. -/
def rotated (refreshToken : String) : TokenResponse :=
  { accessToken := "AT".toList, refreshToken := some refreshToken.toList }

/-- Call `c` refreshes under the lock, as far as the endpoint's answer. -/
def lockedRefresh (c : ℕ) : List RefreshLabel :=
  [.load c, .start c, .tryLock c true, .recheck c, .send c]

/-- The user revokes the consent, and the next refresh marks the account. -/
theorem needsConsentSound_revoked :
    ∃ s, refreshSystem.run exampleState
        (.revoke "R0".toList :: lockedRefresh 0 ++ [.reject 0, .mark 0, .release 0 true]) =
          some s ∧
      s.account.oauthNeedsConsent = true ∧ NeedsConsentSound s := by
  obtain ⟨s, hrun, hmark⟩ :
      ∃ s, (refreshSystem.restrict FreshMark).run exampleState
          (.revoke "R0".toList :: lockedRefresh 0 ++ [.reject 0, .mark 0, .release 0 true]) =
            some s ∧ s.account.oauthNeedsConsent = true := ⟨_, rfl, rfl⟩
  have hreach := System.ReachableWhen.run (.init initial_exampleState) hrun
  exact ⟨s, hrun, hmark, needsConsentSound_of_freshMark hreach⟩

/-- **A winner is marked dead.** Call 1 waits for the lock of call 0, gives up, refreshes with the
row it came with, and its superseded `R0` is rejected. Call 0 then commits `R1`, and call 1 marks
the account. -/
theorem winner_marked_dead : ¬ ∀ s, refreshSystem.Reachable s → NeedsConsentSound s := by
  intro h
  obtain ⟨s, hrun, hmarks⟩ :
      ∃ s, refreshSystem.run exampleState
          (lockedRefresh 0 ++ [.accept 0 (rotated "R1"), .load 1, .start 1, .tryLock 1 true,
            .tick 3000000, .poll 1, .send 1, .reject 1, .persist 0, .mark 1]) = some s ∧
        s.consentMarks = [⟨some "R1".toList, ["R0".toList]⟩] := ⟨_, rfl, rfl⟩
  have hreach := System.Reachable.run (.init initial_exampleState) hrun
  have hsound := h s hreach ⟨some "R1".toList, ["R0".toList]⟩
    (by rw [hmarks]; exact List.mem_cons_self)
  exact absurd hsound (by decide)

/-- A refresh that nothing comes between. -/
theorem noTokenLost_alone :
    ∃ s, refreshSystem.run exampleState
        (lockedRefresh 0 ++ [.accept 0 (rotated "R1"), .persist 0, .release 0 true]) = some s ∧
      s.stored = some "R1".toList ∧ NoTokenLost s := by
  obtain ⟨s, hrun, hstored⟩ :
      ∃ s, (refreshSystem.restrict FreshPersist).run exampleState
          (lockedRefresh 0 ++ [.accept 0 (rotated "R1"), .persist 0, .release 0 true]) =
            some s ∧ s.stored = some "R1".toList := ⟨_, rfl, rfl⟩
  have hreach := System.ReachableWhen.run (.init initial_exampleState) hrun
  exact ⟨s, hrun, hstored, noTokenLost_of_freshPersist hreach⟩

/-- **A re-link is overwritten.** The callback commits `R2` while call 0 waits for its answer, and
call 0 then commits `R1`, of the chain before the re-link. -/
theorem relink_overwritten : ¬ ∀ s, refreshSystem.Reachable s → NoTokenLost s := by
  intro h
  obtain ⟨s, hrun, hcommits⟩ :
      ∃ s, refreshSystem.run exampleState
          (lockedRefresh 0 ++ [.accept 0 (rotated "R1"),
            .exchange "R2".toList (rotated "R2"), .relinkCommit "R2".toList (rotated "R2"),
            .persist 0]) = some s ∧
        s.refreshCommits = [⟨"R0".toList, some "R2".toList⟩] := ⟨_, rfl, rfl⟩
  have hreach := System.Reachable.run (.init initial_exampleState) hrun
  have hkept := h s hreach ⟨"R0".toList, some "R2".toList⟩
    (by rw [hcommits]; exact List.mem_cons_self)
  exact absurd hkept (by decide)

end OAuthRefresh

end MailAggregator
