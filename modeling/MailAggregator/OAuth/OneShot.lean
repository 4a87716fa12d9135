import MailAggregator.Lib.Transition
import MailAggregator.OAuth.Callback

set_option relaxedAutoImplicit false
set_option autoImplicit false

/-!
# A state works once

Any number of authorisations are started and any number of callbacks arrive, with states that are
known, unknown, expired or replayed. A callback first reads and deletes its state, in one command of
Redis; then it exchanges the code and writes, and anything may happen in between: other callbacks,
other writers of the table, the loss of an entry, or its corruption. The reply of Redis may be lost
on its way as well, after the entry is gone.

## Main definitions

* `MailAggregator.OutlookOAuthService.flowSystem` — the states in Redis, and the callbacks.
* `MailAggregator.OutlookOAuthService.FlowStep` — what a step does.
* `MailAggregator.OutlookOAuthService.FlowInv` — where each entry and each pending callback comes
  from.

## Main results

* `MailAggregator.OutlookOAuthService.callback_run` — a callback that runs alone is the endpoint.
* `MailAggregator.OutlookOAuthService.oauth_state_one_shot` — a state is consumed once and in time,
  and only a callback that has consumed one writes a mailbox.

## Design

Each start has a number of its own, so a random value that repeats does no harm: the later start
replaces the entry of the earlier one. What pydantic writes and reads is a parameter; that it reads
back what it has written is the one hypothesis.
-/

namespace MailAggregator

open PyText MailAccountsRepo TokenClient Transition

namespace OutlookOAuthService

/-! ## The system -/

/-- The start of an authorisation: its number, the state, the payload that is stored for it, and the
last time at which Redis has the entry. -/
structure Mint where
  id : ℕ
  state : Text
  payload : OAuthState
  expiresAt : Instant
  deriving DecidableEq, Repr

/-- An entry in Redis, and the start that has written it. -/
structure StateEntry where
  mint : Mint
  raw : Text
  deriving DecidableEq, Repr

/-- The consumption of an entry by a callback. -/
structure Consumption where
  mint : Mint
  callback : ℕ
  time : Instant
  deriving DecidableEq, Repr

/-- A callback that has asked Redis for its state, and what it has got. -/
structure PendingCallback where
  callback : ℕ
  code : Text
  state : Text
  consumed : Except CallbackError OAuthState

/-- The clock and Redis; the starts, the number of callbacks, those that have asked Redis, and the
entries that were consumed; the table, and the callbacks that have written it. -/
structure FlowState where
  now : Instant
  entries : Text → Option StateEntry
  minted : List Mint
  callbacks : ℕ
  pending : List PendingCallback
  consumed : List Consumption
  accounts : List MailAccount
  linked : List PendingCallback

/-- The steps. -/
inductive FlowLabel where
  | tick (now : Instant)
  /-- `_mint_state_and_url`, with the random state. -/
  | mint (state : Text) (payload : OAuthState)
  /-- Redis loses an entry. -/
  | forget (key : Text)
  /-- An entry is overwritten. -/
  | corrupt (key raw : Text)
  /-- A callback arrives, and asks Redis; the reply may be lost. -/
  | callback (q : CallbackQuery) (w : CallbackWorld) (replyLost : Bool)
  /-- The rest of the `i`-th pending callback. -/
  | finish (i : ℕ) (w : CallbackWorld)
  /-- Other writers of the table. -/
  | elsewhere (accounts : List MailAccount)

/-- The entry of a key that has not expired. -/
def FlowState.live (s : FlowState) (key : Text) : Option StateEntry :=
  (s.entries key).filter fun e => s.now ≤ e.mint.expiresAt

/-- The values in Redis. -/
def FlowState.view (s : FlowState) (key : Text) : Option Text := (s.live key).map StateEntry.raw

variable (dump : OAuthState → Text) (validate : Text → Option OAuthState) (ttl : ℕ)

/-- A callback meets the values in Redis. -/
def FlowState.world (s : FlowState) (w : CallbackWorld) : CallbackWorld :=
  { w with states := s.view, validate := validate }

/-- `_mint_state_and_url`: the payload is stored under the state. -/
def mintStep (s : FlowState) (state : Text) (payload : OAuthState) : FlowState :=
  let mint : Mint := ⟨s.minted.length, state, payload, s.now + ttl⟩
  { s with
    entries := Function.update s.entries (oauthStateKeyPrefix ++ state) (some ⟨mint, dump payload⟩)
    minted := s.minted ++ [mint] }

/-- The entry that `_consume_state` takes out of Redis. -/
def takenEntry (s : FlowState) (w : CallbackWorld) (state : Text) : Option StateEntry :=
  if (consumeState (s.world validate w) state).2 (oauthStateKeyPrefix ++ state) = none then
    s.live (oauthStateKeyPrefix ++ state)
  else none

/-- `_consume_state`. -/
def consumeStep (s : FlowState) (w : CallbackWorld) (replyLost : Bool) (code state : Text) :
    FlowState :=
  let after := consumeState (s.world validate w) state
  { s with
    entries := fun key => if after.2 key = none then none else s.entries key
    callbacks := s.callbacks + 1
    pending := s.pending ++
      [⟨s.callbacks, code, state, if replyLost then .error .redisError else after.1⟩]
    consumed := s.consumed ++
      (takenEntry validate s w state).toList.map fun e => ⟨e.mint, s.callbacks, s.now⟩ }

/-- `external_oauth_callback` until the reply of Redis is there. -/
def arrive (s : FlowState) (q : CallbackQuery) (w : CallbackWorld) (replyLost : Bool) : FlowState :=
  if w.allowed = false then s
  else if w.enabled = false then s
  else if given q.error ≠ none then s
  else
    match given q.code, given q.state with
    | some code, some state => consumeStep validate s w replyLost code state
    | _, _ => s

/-- The rest of `external_oauth_callback`. -/
def finishStep (s : FlowState) (i : ℕ) (w : CallbackWorld) (p : PendingCallback) : FlowState :=
  match exchangeCodeHeadless w p.code p.consumed with
  | .ok accounts =>
    { s with pending := s.pending.eraseIdx i, accounts := accounts, linked := s.linked ++ [p] }
  -- an exception rolls the transaction back
  | .error _ => { s with pending := s.pending.eraseIdx i }

/-- The states in Redis, and the callbacks. -/
def flowSystem : System FlowState FlowLabel where
  init s := s.entries = (fun _ => none) ∧ s.minted = [] ∧ s.pending = [] ∧ s.consumed = [] ∧
    s.linked = []
  next s
    | .tick now => if s.now ≤ now then some { s with now := now } else none
    | .mint state payload => some (mintStep dump ttl s state payload)
    | .forget key => some { s with entries := Function.update s.entries key none }
    | .corrupt key raw =>
      match s.entries key with
      | none => none
      | some e =>
        if validate raw = none then
          some { s with entries := Function.update s.entries key (some { e with raw := raw }) }
        else none
    | .callback q w replyLost => some (arrive validate s q w replyLost)
    | .finish i w =>
      match s.pending[i]? with
      | none => none
      | some p => if w.accounts = s.accounts then some (finishStep s i w p) else none
    | .elsewhere accounts => some { s with accounts := accounts }

/-! ## The entries -/

section Entries

variable {s : FlowState} {key state : Text} {e : StateEntry}

theorem FlowState.live_eq_some_iff :
    s.live key = some e ↔ s.entries key = some e ∧ s.now ≤ e.mint.expiresAt := by
  simp [FlowState.live, Option.filter_eq_some_iff]

theorem FlowState.view_eq_some_iff {raw : Text} :
    s.view key = some raw ↔ ∃ e, s.live key = some e ∧ e.raw = raw := by
  simp [FlowState.view]

/-- `_consume_state` deletes values, and changes none. -/
theorem states_consumeState_of_ne_none {w : CallbackWorld}
    (h : (consumeState w state).2 key ≠ none) : (consumeState w state).2 key = w.states key := by
  unfold consumeState at h ⊢
  split_ifs at h ⊢ with hdown
  · rfl
  · refine Function.update_of_ne ?_ _ _
    rintro rfl
    exact h (Function.update_self _ _ _)

variable {validate} {w : CallbackWorld} {replyLost : Bool} {code : Text}

/-- An entry that `_consume_state` leaves is live, and it is not the one that is taken. -/
theorem entries_consumeStep
    (h : (consumeStep validate s w replyLost code state).entries key = some e) :
    s.live key = some e ∧
      (takenEntry validate s w state = none ∨ key ≠ oauthStateKeyPrefix ++ state) := by
  have hafter : (consumeState (s.world validate w) state).2 key ≠ none := by
    intro hnone
    simp only [consumeStep, hnone, if_true] at h
    cases h
  simp only [consumeStep, if_neg hafter] at h
  constructor
  · have hview := states_consumeState_of_ne_none hafter
    rw [hview] at hafter
    obtain ⟨raw, hraw⟩ := Option.ne_none_iff_exists'.mp hafter
    obtain ⟨e', he', -⟩ := FlowState.view_eq_some_iff.mp hraw
    obtain rfl : e' = e := Option.some.inj ((FlowState.live_eq_some_iff.mp he').1.symm.trans h)
    exact he'
  · by_cases hkey : key = oauthStateKeyPrefix ++ state
    · subst hkey
      exact Or.inl (if_neg hafter)
    · exact Or.inr hkey

/-- An entry that is taken is live. -/
theorem live_of_takenEntry (h : takenEntry validate s w state = some e) :
    s.live (oauthStateKeyPrefix ++ state) = some e := by
  rw [takenEntry] at h
  split_ifs at h
  exact h

/-- **A callback that gets a payload has taken its entry**, and the payload is what the entry
holds. -/
theorem takenEntry_of_consumed {st : OAuthState}
    (h : (consumeState (s.world validate w) state).1 = .ok st) :
    ∃ e, takenEntry validate s w state = some e ∧ validate e.raw = some st := by
  obtain ⟨hredis, raw, -, hraw, hvalid⟩ := (consumeState_eq_ok_iff st).mp h
  obtain ⟨e, he, rfl⟩ := FlowState.view_eq_some_iff.mp hraw
  exact ⟨e, by rw [takenEntry, if_pos (states_consumeState hredis state), he], hvalid⟩

end Entries

/-! ## What a step does -/

/-- A step that starts, consumes and links nothing. An entry that it leaves was there, and what it
holds is what was stored or cannot be read. -/
structure Keeps (s s' : FlowState) : Prop where
  minted : s'.minted = s.minted
  consumed : s'.consumed = s.consumed
  linked : s'.linked = s.linked
  pending : ∀ p ∈ s'.pending, p ∈ s.pending
  entries : ∀ key e, s'.entries key = some e → ∃ e₀, s.entries key = some e₀ ∧ e₀.mint = e.mint ∧
    ∀ st, validate e.raw = some st → validate e₀.raw = some st

/-- **What a step does.** -/
inductive FlowStep (s : FlowState) : FlowLabel → FlowState → Prop
  | mint (state : Text) (payload : OAuthState) :
    FlowStep s (.mint state payload) (mintStep dump ttl s state payload)
  | consume (q : CallbackQuery) (w : CallbackWorld) (replyLost : Bool) (code state : Text) :
    FlowStep s (.callback q w replyLost) (consumeStep validate s w replyLost code state)
  | link (i : ℕ) (w : CallbackWorld) (p : PendingCallback) (accounts : List MailAccount)
    (st : OAuthState) (hp : s.pending[i]? = some p) (hst : p.consumed = .ok st)
    (hcrm : st.crmState ≠ none)
    (hexchange : exchangeCodeHeadless w p.code (.ok st) = .ok accounts) :
    FlowStep s (.finish i w)
      { s with
        pending := s.pending.eraseIdx i, accounts := accounts, linked := s.linked ++ [p] }
  | elsewhere (accounts : List MailAccount) :
    FlowStep s (.elsewhere accounts) { s with accounts := accounts }
  | keep (a : FlowLabel) (s' : FlowState) (hkeeps : Keeps validate s s')
    (haccounts : s'.accounts = s.accounts) : FlowStep s a s'

section Step

variable {validate} {s s' : FlowState}

/-- A step that leaves the entries alone, and adds no callback. -/
theorem keeps_of_entries (hminted : s'.minted = s.minted) (hconsumed : s'.consumed = s.consumed)
    (hlinked : s'.linked = s.linked) (hpending : ∀ p ∈ s'.pending, p ∈ s.pending)
    (hentries : s'.entries = s.entries) : Keeps validate s s' where
  minted := hminted
  consumed := hconsumed
  linked := hlinked
  pending := hpending
  entries _ e h := ⟨e, hentries ▸ h, rfl, fun _ => id⟩

theorem keeps_self (s : FlowState) : Keeps validate s s :=
  keeps_of_entries rfl rfl rfl (fun _ => id) rfl

/-- What the rest of a callback does: it writes the table, with a payload of the headless flow, or
it changes nothing. -/
theorem flowStep_finish {i : ℕ} {p : PendingCallback} (hp : s.pending[i]? = some p)
    (w : CallbackWorld) :
    FlowStep dump validate ttl s (.finish i w) (finishStep s i w p) := by
  rw [finishStep]
  cases hexchange : exchangeCodeHeadless w p.code p.consumed with
  | error e =>
    exact .keep _ _
      (keeps_of_entries rfl rfl rfl (fun _ => List.mem_of_mem_eraseIdx) rfl) rfl
  | ok accounts =>
    obtain ⟨st, -, -, -, hst, hcrm, -⟩ := exchangeCodeHeadless_eq_ok hexchange
    rw [hst] at hexchange
    exact .link i w p accounts st hp hst hcrm hexchange

/-- The arrival of a callback asks Redis, or does nothing. -/
theorem flowStep_arrive (q : CallbackQuery) (w : CallbackWorld) (replyLost : Bool) :
    FlowStep dump validate ttl s (.callback q w replyLost) (arrive validate s q w replyLost) := by
  unfold arrive
  split_ifs
  · exact .keep _ _ (keeps_self s) rfl
  · exact .keep _ _ (keeps_self s) rfl
  · exact .keep _ _ (keeps_self s) rfl
  · cases given q.code with
    | none => exact .keep _ _ (keeps_self s) rfl
    | some code =>
      cases given q.state with
      | none => exact .keep _ _ (keeps_self s) rfl
      | some state => exact .consume q w replyLost code state

/-- Redis loses an entry. -/
theorem keeps_forget (key : Text) :
    Keeps validate s { s with entries := Function.update s.entries key none } where
  minted := rfl
  consumed := rfl
  linked := rfl
  pending _ := id
  entries key' e h := by
    by_cases hkey : key' = key
    · subst hkey
      simp at h
    · simp only [Function.update_of_ne hkey] at h
      exact ⟨e, h, rfl, fun _ => id⟩

/-- What an entry holds becomes unreadable. -/
theorem keeps_corrupt {key raw : Text} {e : StateEntry} (he : s.entries key = some e)
    (hinvalid : validate raw = none) :
    Keeps validate s
      { s with entries := Function.update s.entries key (some { e with raw := raw }) } where
  minted := rfl
  consumed := rfl
  linked := rfl
  pending _ := id
  entries key' e' h := by
    by_cases hkey : key' = key
    · subst hkey
      simp only [Function.update_self, Option.some.injEq] at h
      subst h
      refine ⟨e, he, rfl, fun st hst => ?_⟩
      rw [hinvalid] at hst
      cases hst
    · simp only [Function.update_of_ne hkey] at h
      exact ⟨e', h, rfl, fun _ => id⟩

/-- **Every step is one of these.**

**Proof sketch.** By cases on the label. The steps that change neither entries nor callbacks, or
only take entries away, are of the kind that keeps; a mint, a callback and a finish each have a
constructor. A corrupted entry is still an entry of its key, without a payload that validates. -/
theorem flowStep_of_next {a : FlowLabel} (hn : (flowSystem dump validate ttl).next s a = some s') :
    FlowStep dump validate ttl s a s' := by
  cases a with
  | tick now =>
    simp only [flowSystem] at hn
    split_ifs at hn
    obtain rfl := Option.some.inj hn
    exact .keep _ _ (keeps_of_entries rfl rfl rfl (fun _ => id) rfl) rfl
  | mint state payload =>
    obtain rfl := Option.some.inj hn
    exact .mint state payload
  | forget key =>
    obtain rfl := Option.some.inj hn
    exact .keep _ _ (keeps_forget key) rfl
  | corrupt key raw =>
    simp only [flowSystem] at hn
    cases hentry : s.entries key with
    | none => rw [hentry] at hn; cases hn
    | some e =>
      simp only [hentry] at hn
      split_ifs at hn with hinvalid
      obtain rfl := Option.some.inj hn
      exact .keep _ _ (keeps_corrupt hentry hinvalid) rfl
  | callback q w replyLost =>
    obtain rfl := Option.some.inj hn
    exact flowStep_arrive dump ttl q w replyLost
  | finish i w =>
    simp only [flowSystem] at hn
    cases hp : s.pending[i]? with
    | none => rw [hp] at hn; cases hn
    | some p =>
      simp only [hp] at hn
      split_ifs at hn
      obtain rfl := Option.some.inj hn
      exact flowStep_finish dump ttl hp w
  | elsewhere accounts =>
    obtain rfl := Option.some.inj hn
    exact .elsewhere accounts

end Step

/-! ## The invariant -/

/-- A callback has consumed a start with the state that it carries, and this is the payload that is
stored under it. -/
def ConsumedBy (s : FlowState) (p : PendingCallback) (st : OAuthState) : Prop :=
  ∃ c ∈ s.consumed, c.callback = p.callback ∧ c.mint.state = p.state ∧ c.mint.payload = st

/-- An entry is that of a start which was not consumed, and holds its payload or nothing. -/
structure EntryInv (s : FlowState) (key : Text) (e : StateEntry) : Prop where
  minted : e.mint ∈ s.minted
  key_eq : key = oauthStateKeyPrefix ++ e.mint.state
  payload : ∀ st, validate e.raw = some st → e.mint.payload = st
  unused : e.mint ∉ s.consumed.map Consumption.mint

/-- Where each entry and each pending callback comes from. -/
structure FlowInv (s : FlowState) : Prop where
  ids : s.minted.map Mint.id = List.range s.minted.length
  entries : ∀ key e, s.entries key = some e → EntryInv validate s key e
  inTime : ∀ c ∈ s.consumed, c.mint ∈ s.minted ∧ c.time ≤ c.mint.expiresAt
  once : (s.consumed.map Consumption.mint).Nodup
  traced : ∀ p ∈ s.pending ++ s.linked, ∀ st, p.consumed = .ok st → ConsumedBy s p st
  headless : ∀ p ∈ s.linked, ∃ st, p.consumed = .ok st ∧ st.crmState ≠ none

section Invariant

variable {validate} {s s' : FlowState}

/-- A start has a number below that of the next one. -/
theorem FlowInv.id_lt (hinv : FlowInv validate s) {m : Mint} (hm : m ∈ s.minted) :
    m.id < s.minted.length := by
  have hid : m.id ∈ s.minted.map Mint.id := List.mem_map_of_mem hm
  rw [hinv.ids] at hid
  exact List.mem_range.mp hid

/-- A step that starts, consumes and links nothing. -/
theorem FlowInv.keep (hinv : FlowInv validate s) (h : Keeps validate s s') :
    FlowInv validate s' where
  ids := by rw [h.minted]; exact hinv.ids
  entries key e he := by
    obtain ⟨e₀, he₀, hmint, hraw⟩ := h.entries key e he
    obtain ⟨hmem, hkey, hpayload, hunused⟩ := hinv.entries key e₀ he₀
    rw [hmint] at hmem hkey hpayload hunused
    exact ⟨h.minted ▸ hmem, hkey, fun st hst => hpayload st (hraw st hst), h.consumed ▸ hunused⟩
  inTime := by rw [h.minted, h.consumed]; exact hinv.inTime
  once := by rw [h.consumed]; exact hinv.once
  traced p hp st hst := by
    rw [ConsumedBy, h.consumed]
    rw [h.linked] at hp
    rcases List.mem_append.mp hp with hp | hp
    · exact hinv.traced p (List.mem_append_left _ (h.pending p hp)) st hst
    · exact hinv.traced p (List.mem_append_right _ hp) st hst
  headless := by rw [h.linked]; exact hinv.headless

/-- A callback writes the table. -/
theorem FlowInv.link (hinv : FlowInv validate s) {i : ℕ} {p : PendingCallback} {st : OAuthState}
    (accounts : List MailAccount) (hp : s.pending[i]? = some p) (hst : p.consumed = .ok st)
    (hcrm : st.crmState ≠ none) :
    FlowInv validate
      { s with
        pending := s.pending.eraseIdx i, accounts := accounts, linked := s.linked ++ [p] } where
  ids := hinv.ids
  entries key e he := by
    obtain ⟨hmem, hkey, hpayload, hunused⟩ := hinv.entries key e he
    exact ⟨hmem, hkey, hpayload, hunused⟩
  inTime := hinv.inTime
  once := hinv.once
  traced q hq := by
    apply hinv.traced q
    simp only [List.mem_append, List.mem_singleton] at hq ⊢
    rcases hq with hq | hq | rfl
    · exact Or.inl (List.mem_of_mem_eraseIdx hq)
    · exact Or.inr hq
    · exact Or.inl (List.mem_of_getElem? hp)
  headless q hq := by
    rcases List.mem_append.mp hq with hq | hq
    · exact hinv.headless q hq
    · obtain rfl := List.mem_singleton.mp hq
      exact ⟨st, hst, hcrm⟩

/-- The start of an authorisation. -/
theorem FlowInv.mint (hinv : FlowInv validate s) (hround : ∀ st, validate (dump st) = some st)
    (state : Text) (payload : OAuthState) :
    FlowInv validate (mintStep dump ttl s state payload) where
  ids := by simp [mintStep, hinv.ids, List.range_succ]
  entries key e h := by
    simp only [mintStep] at h
    by_cases hkey : key = oauthStateKeyPrefix ++ state
    · subst hkey
      rw [Function.update_self] at h
      obtain rfl := Option.some.inj h
      refine ⟨by simp [mintStep], rfl, fun st hst => ?_, fun hused => ?_⟩
      · exact Option.some.inj ((hround payload).symm.trans hst)
      · obtain ⟨c, hc, hcm⟩ := List.mem_map.mp hused
        have hlt := hinv.id_lt (hinv.inTime c hc).1
        rw [hcm] at hlt
        exact absurd hlt (lt_irrefl _)
    · rw [Function.update_of_ne hkey] at h
      obtain ⟨hmem, hkey', hpayload, hunused⟩ := hinv.entries key e h
      exact ⟨List.mem_append_left _ hmem, hkey', hpayload, hunused⟩
  inTime c hc := ⟨List.mem_append_left _ (hinv.inTime c hc).1, (hinv.inTime c hc).2⟩
  once := hinv.once
  traced := hinv.traced
  headless := hinv.headless

/-- The consumption of a state.

**Proof sketch.** A callback takes at most one entry, and with it a mint that no callback has used,
since a mint leaves the table of entries with its use. So the list of the consumed mints stays
without repetition. A callback gets a payload only if it has taken the entry, hence what it may link
later is traced to this consumption. The other entries have other keys and thereby other mints. -/
theorem FlowInv.consume (hinv : FlowInv validate s) (w : CallbackWorld) (replyLost : Bool)
    (code state : Text) : FlowInv validate (consumeStep validate s w replyLost code state) where
  ids := hinv.ids
  entries key e h := by
    obtain ⟨hlive, htaken⟩ := entries_consumeStep h
    obtain ⟨hmem, hkey, hpayload, hunused⟩ :=
      hinv.entries key e (FlowState.live_eq_some_iff.mp hlive).1
    refine ⟨hmem, hkey, hpayload, fun hused => ?_⟩
    rw [consumeStep, List.map_append, List.mem_append] at hused
    rcases hused with hused | hused
    · exact hunused hused
    · cases htake : takenEntry validate s w state with
      | none => simp [htake] at hused
      | some e' =>
        have hkey' := (hinv.entries _ e'
          (FlowState.live_eq_some_iff.mp (live_of_takenEntry htake)).1).key_eq
        have hmint : e.mint = e'.mint := by simpa [htake] using hused
        have hne : key ≠ oauthStateKeyPrefix ++ state := by simpa [htake] using htaken
        rw [hkey, hmint, ← hkey'] at hne
        exact hne rfl
  inTime c hc := by
    rw [consumeStep, List.mem_append] at hc
    rcases hc with hc | hc
    · exact hinv.inTime c hc
    · obtain ⟨e, he, rfl⟩ := List.mem_map.mp hc
      have hlive := FlowState.live_eq_some_iff.mp
        (live_of_takenEntry (Option.mem_toList.mp he))
      exact ⟨(hinv.entries _ e hlive.1).minted, hlive.2⟩
  once := by
    rw [consumeStep, List.map_append]
    cases htake : takenEntry validate s w state with
    | none => simpa using hinv.once
    | some e =>
      have hunused := (hinv.entries _ e
        (FlowState.live_eq_some_iff.mp (live_of_takenEntry htake)).1).unused
      refine hinv.once.append (List.nodup_singleton _) ?_
      simpa [List.disjoint_singleton] using hunused
  traced p hp st hst := by
    have hold (h : p ∈ s.pending ++ s.linked) :
        ConsumedBy (consumeStep validate s w replyLost code state) p st := by
      obtain ⟨c, hc, hconsumed⟩ := hinv.traced p h st hst
      exact ⟨c, List.mem_append_left _ hc, hconsumed⟩
    simp only [consumeStep, List.mem_append, List.mem_singleton] at hp
    rcases hp with (hp | rfl) | hp
    · exact hold (List.mem_append_left _ hp)
    · cases replyLost with
      | true => cases hst
      | false =>
        -- the callback that gets a payload is the one that takes the entry
        obtain ⟨e, htake, hvalid⟩ := takenEntry_of_consumed hst
        have hentry := hinv.entries _ e
          (FlowState.live_eq_some_iff.mp (live_of_takenEntry htake)).1
        refine ⟨⟨e.mint, s.callbacks, s.now⟩, ?_, rfl, ?_, hentry.payload st hvalid⟩
        · simp [consumeStep, htake]
        · exact (List.append_cancel_left hentry.key_eq).symm
    · exact hold (List.mem_append_right _ hp)
  headless := hinv.headless

/-- Every step keeps the invariant. -/
theorem FlowInv.next (hround : ∀ st, validate (dump st) = some st) {a : FlowLabel}
    (hinv : FlowInv validate s) (hn : (flowSystem dump validate ttl).next s a = some s') :
    FlowInv validate s' := by
  cases flowStep_of_next dump ttl hn with
  | mint state payload => exact hinv.mint dump ttl hround state payload
  | consume q w replyLost code state => exact hinv.consume w replyLost code state
  | link i w p accounts st hp hst hcrm _ => exact hinv.link accounts hp hst hcrm
  | elsewhere accounts => exact hinv.keep (keeps_of_entries rfl rfl rfl (fun _ => id) rfl)
  | keep _ _ hkeeps _ => exact hinv.keep hkeeps

end Invariant

/-! ## One callback alone -/

/-- **A callback that runs alone is the endpoint**: it leaves the same table and the same values in
Redis.

**Proof sketch.** The two steps of the system are the two halves of the endpoint: the first takes
the entry of the state, and the second exchanges the code and links. With no step between them the
second one still finds its callback at the end of the list, and the table that the endpoint starts
from. -/
theorem callback_run {s : FlowState} {w : CallbackWorld} {q : CallbackQuery} {code state : Text}
    (hallowed : w.allowed = true) (henabled : w.enabled = true) (hasks : Asks q code state)
    (hstates : w.states = s.view) (hvalidate : w.validate = validate)
    (haccounts : w.accounts = s.accounts) :
    ∃ s', (flowSystem dump validate ttl).run s
        [.callback q w false, .finish s.pending.length w] = some s' ∧
      s'.accounts = (externalOauthCallback w q).accounts ∧
      s'.view = (externalOauthCallback w q).states := by
  obtain ⟨herror, hcode, hstate⟩ := hasks
  have hworld : s.world validate w = w := by
    rw [FlowState.world, ← hstates, ← hvalidate]
  have harrive : arrive validate s q w false = consumeStep validate s w false code state := by
    simp only [arrive, hallowed, henabled, Bool.true_eq_false, if_false, herror, hcode, hstate,
      ne_eq, not_true_eq_false]
  have hview : (consumeStep validate s w false code state).view = (consumeState w state).2 := by
    funext key
    have hlive : (consumeStep validate s w false code state).view key =
        if (consumeState w state).2 key = none then none else s.view key := by
      simp only [FlowState.view, FlowState.live, consumeStep, hworld]
      split_ifs <;> rfl
    rw [hlive]
    split_ifs with hnone
    · exact hnone.symm
    · rw [states_consumeState_of_ne_none hnone, hstates]
  have hfound : (consumeStep validate s w false code state).pending[s.pending.length]? =
      some ⟨s.callbacks, code, state, (consumeState w state).1⟩ := by
    simp [consumeStep, hworld]
  refine ⟨finishStep (consumeStep validate s w false code state) s.pending.length w
    ⟨s.callbacks, code, state, (consumeState w state).1⟩, ?_, ?_, ?_⟩
  · rw [System.run_cons rfl, harrive, System.run, flowSystem]
    simp only [hfound]
    rw [if_pos (show w.accounts = (consumeStep validate s w false code state).accounts from
      haccounts)]
    rfl
  · simp only [externalOauthCallback, hallowed, henabled, Bool.true_eq_false, if_false, herror,
      hcode, hstate, ne_eq, not_true_eq_false]
    cases hexchange : exchangeCodeHeadless w code (consumeState w state).1 with
    | ok accounts => simp only [finishStep, hexchange]
    | error e => simp only [finishStep, hexchange, haccounts]; rfl
  · have hsame : (finishStep (consumeStep validate s w false code state) s.pending.length w
        ⟨s.callbacks, code, state, (consumeState w state).1⟩).view =
        (consumeStep validate s w false code state).view := by
      rw [finishStep]
      cases exchangeCodeHeadless w code (consumeState w state).1 <;> rfl
    rw [hsame, hview]
    simp only [externalOauthCallback, hallowed, henabled, Bool.true_eq_false, if_false, herror,
      hcode, hstate, ne_eq, not_true_eq_false]

/-! ## The states are one-shot -/

/-- What the states guarantee, in a state of the system. -/
structure OneShot (s : FlowState) : Prop where
  /-- Each start has its number. -/
  distinct : (s.minted.map Mint.id).Nodup
  /-- A start is consumed at most once, -/
  once : (s.consumed.map fun c => c.mint.id).Nodup
  /-- and as long as Redis has it. -/
  inTime : ∀ c ∈ s.consumed, c.mint ∈ s.minted ∧ c.time ≤ c.mint.expiresAt
  /-- A callback that has written the table has consumed a start of the headless flow. -/
  linked : ∀ p ∈ s.linked, ∃ st, p.consumed = .ok st ∧ st.crmState ≠ none ∧ ConsumedBy s p st
  /-- A step that changes the table is that of another writer, or of a callback that has consumed a
  start of the headless flow: it writes what the exchange with the payload of this start gives. -/
  changed : ∀ a s', (flowSystem dump validate ttl).next s a = some s' → s'.accounts ≠ s.accounts →
    (∃ accounts, a = .elsewhere accounts) ∨
      ∃ i w p st, a = .finish i w ∧ s.pending[i]? = some p ∧ s'.linked = s.linked ++ [p] ∧
        st.crmState ≠ none ∧ ConsumedBy s p st ∧
        exchangeCodeHeadless w p.code (.ok st) = .ok s'.accounts

variable {validate}

/-- A step that changes the table. -/
theorem FlowInv.changed {s s' : FlowState} {a : FlowLabel} (hinv : FlowInv validate s)
    (hn : (flowSystem dump validate ttl).next s a = some s') (hne : s'.accounts ≠ s.accounts) :
    (∃ accounts, a = .elsewhere accounts) ∨
      ∃ i w p st, a = .finish i w ∧ s.pending[i]? = some p ∧ s'.linked = s.linked ++ [p] ∧
        st.crmState ≠ none ∧ ConsumedBy s p st ∧
        exchangeCodeHeadless w p.code (.ok st) = .ok s'.accounts := by
  cases flowStep_of_next dump ttl hn with
  | mint state payload => exact absurd rfl hne
  | consume q w replyLost code state => exact absurd rfl hne
  | link i w p accounts st hp hst hcrm hexchange =>
    have hconsumed := hinv.traced p (List.mem_append_left _ (List.mem_of_getElem? hp)) st hst
    exact Or.inr ⟨i, w, p, st, rfl, hp, rfl, hcrm, hconsumed, hexchange⟩
  | elsewhere accounts => exact Or.inl ⟨accounts, rfl⟩
  | keep _ _ _ haccounts => exact absurd haccounts hne

/-- **The states are one-shot**, in every interleaving of starts, callbacks, losses and other
writers of the table.

**Proof sketch.** An entry is that of a start which was not consumed, as each consumption takes its
entry out in the same step and a start writes its entry once. A callback gets a payload only in such
a step, and what it gets is what was stored, for Redis holds this or what cannot be read. -/
theorem oauth_state_one_shot (hround : ∀ st, validate (dump st) = some st) {s : FlowState}
    (hs : (flowSystem dump validate ttl).Reachable s) : OneShot dump validate ttl s := by
  have hinv : FlowInv validate s := by
    refine hs.invariant (fun s₀ hinit => ?_) fun s₁ a s₂ h _ hn => h.next dump ttl hround hn
    obtain ⟨hentries, hminted, hpending, hconsumed, hlinked⟩ := hinit
    constructor <;> simp [hentries, hminted, hpending, hconsumed, hlinked]
  have hdistinct : (s.minted.map Mint.id).Nodup := by
    rw [hinv.ids]
    exact List.nodup_range
  refine ⟨hdistinct, ?_, hinv.inTime, fun p hp => ?_,
    fun a s' hn hne => hinv.changed dump ttl hn hne⟩
  · have hmap : s.consumed.map (fun c => c.mint.id) =
        (s.consumed.map Consumption.mint).map Mint.id := by simp
    rw [hmap]
    refine hinv.once.map_on fun m hm m' hm' hid => ?_
    obtain ⟨c, hc, rfl⟩ := List.mem_map.mp hm
    obtain ⟨c', hc', rfl⟩ := List.mem_map.mp hm'
    exact List.inj_on_of_nodup_map hdistinct (hinv.inTime c hc).1 (hinv.inTime c' hc').1 hid
  · obtain ⟨st, hst, hcrm⟩ := hinv.headless p hp
    exact ⟨st, hst, hcrm, hinv.traced p (List.mem_append_right _ hp) st hst⟩

/-! ### A replay -/

/-- The escapes of the two characters that end or begin something inside a text. -/
def escape (c : Char) : Text := if c = '"' ∨ c = '\\' then ['\\', c] else [c]

/-- A text in JSON, after its opening quote. -/
def quoted (text : Text) : Text := text.flatMap escape ++ ['"']

/-- The text until the closing quote, and what comes after it. -/
def unquote : Text → Option (Text × Text)
  | [] => none
  | '"' :: rest => some ([], rest)
  | '\\' :: c :: rest => (unquote rest).map fun read => (c :: read.1, read.2)
  | c :: rest => (unquote rest).map fun read => (c :: read.1, read.2)

theorem unquote_quoted (text rest : Text) : unquote (quoted text ++ rest) = some (text, rest) := by
  induction text with
  | nil => rfl
  | cons c text ih =>
    have hcons : quoted (c :: text) ++ rest = escape c ++ (quoted text ++ rest) := by
      simp [quoted]
    rw [hcons, escape]
    by_cases hescaped : c = '"' ∨ c = '\\'
    · rw [if_pos hescaped]
      simp [unquote, ih]
    · rw [if_neg hescaped]
      push Not at hescaped
      simp [unquote, ih, hescaped]

/-- What comes after a word. -/
def after (word text : Text) : Option Text :=
  if text.take word.length = word then some (text.drop word.length) else none

theorem after_append (word rest : Text) : after word (word ++ rest) = some rest := by
  simp [after]

/-- What is written before the verifier. -/
def beforeVerifier : Text := "\x7b\"code_verifier\":\"".toList

/-- What is written between the verifier and `crm_state`. -/
def beforeCrmState : Text := ",\"user_id\":null,\"crm_state\":".toList

/-- `crm_state` and the end of the object. -/
def writeCrmState : Option Text → Text
  | none => "null\x7d".toList
  | some crmState => '"' :: (quoted crmState ++ "\x7d".toList)

/-- `model_dump_json`, up to control characters. -/
def dumpJson (st : OAuthState) : Text :=
  beforeVerifier ++ (quoted st.codeVerifier ++ (beforeCrmState ++ writeCrmState st.crmState))

/-- The inverse of `writeCrmState`. -/
def readCrmState : Text → Option (Option Text)
  | '"' :: text =>
    match unquote text with
    | some (crmState, rest) => if rest = "\x7d".toList then some (some crmState) else none
    | none => none
  | text => if text = "null\x7d".toList then some none else none

/-- `model_validate_json`, of what `dumpJson` writes. -/
def validateJson (raw : Text) : Option OAuthState :=
  match (after beforeVerifier raw).bind unquote with
  | none => none
  | some (codeVerifier, rest) =>
    ((after beforeCrmState rest).bind readCrmState).map fun crmState => ⟨codeVerifier, crmState⟩

theorem readCrmState_writeCrmState (crmState : Option Text) :
    readCrmState (writeCrmState crmState) = some crmState := by
  cases crmState with
  | none => decide
  | some crmState => simp [writeCrmState, readCrmState, unquote_quoted]

/-- What is written is read back. -/
theorem validateJson_dumpJson (st : OAuthState) : validateJson (dumpJson st) = some st := by
  obtain ⟨codeVerifier, crmState⟩ := st
  simp only [validateJson, dumpJson, after_append, unquote_quoted, readCrmState_writeCrmState,
    Option.bind_some, Option.map_some]

/-- An authorisation is started, its callback comes twice, and each goes on to its end. -/
def replay : List FlowLabel :=
  [.mint "s".toList ⟨"v".toList, some "crm".toList⟩, .callback consented linkingCallback false,
    .callback consented linkingCallback false, .finish 1 linkingCallback, .finish 0 linkingCallback]

/-- The start of the replay. -/
def idleFlow : FlowState where
  now := 0
  entries := fun _ => none
  minted := []
  callbacks := 0
  pending := []
  consumed := []
  accounts := []
  linked := []

/-- Of two callbacks with one state, one links a mailbox. -/
theorem oauth_state_one_shot_replay : ∃ s,
    (flowSystem dumpJson validateJson 600).run idleFlow replay = some s ∧
      s.consumed.length = 1 ∧ s.linked.map PendingCallback.callback = [0] ∧
      s.accounts.length = 1 ∧ OneShot dumpJson validateJson 600 s := by
  have hrun : ((flowSystem dumpJson validateJson 600).run idleFlow replay).map
      (fun s => (s.consumed.length, s.linked.map PendingCallback.callback, s.accounts.length)) =
      some (1, [0], 1) := by decide +kernel
  obtain ⟨s, hs, hvalues⟩ := Option.map_eq_some_iff.mp hrun
  simp only [Prod.mk.injEq] at hvalues
  have hreachable : (flowSystem dumpJson validateJson 600).Reachable s :=
    System.Reachable.run (.init ⟨rfl, rfl, rfl, rfl, rfl⟩) hs
  exact ⟨s, hs, hvalues.1, hvalues.2.1, hvalues.2.2,
    oauth_state_one_shot dumpJson 600 validateJson_dumpJson hreachable⟩

end OutlookOAuthService

end MailAggregator
