import Mathlib.Logic.Function.Basic
import Mathlib.Data.List.Basic

set_option relaxedAutoImplicit false
set_option autoImplicit false

/-!
# Mirroring values through a queue of keys

The values of some keys are mirrored to a remote side. A write leaves hooks behind, a hook puts the
key of a changed value on a queue, and a dispatcher takes batches of keys from the queue, reads the
value that each key has at that time, and posts it. A post that fails puts the key back.

## Main definitions

* `Mirror.Channel` — the hooks, the queue, the batch of the dispatcher, and what was acknowledged.
* `Mirror.Channel.hook`, `fire`, `pop`, `load`, `loadFails`, `answer`, `requeue` — the steps.
* `Mirror.Channel.Quiet` — nothing is under way for a key.
* `Mirror.Mirrored` — what is not acknowledged is under way.

## Main results

* `Mirror.Mirrored.hook` and its like — the steps keep `Mirrored`.
* `Mirror.Mirrored.acknowledged_eq` — once nothing is under way, the value is acknowledged.
-/

namespace Mirror

/-- What the dispatcher does with the key that it has taken from its batch. -/
inductive Item (κ ν : Type*) where
  | done
  | posting (k : κ) (v : ν)
  | failed (k : κ)

/-- The channel for keys `κ` and values `ν`. -/
structure Channel (κ ν : Type*) where
  /-- The hooks that have not fired. -/
  hooks : List κ
  queue : List κ
  /-- What is left of the batch of the dispatcher. -/
  batch : List κ
  item : Item κ ν
  /-- The last acknowledged value of a key. -/
  acknowledged : κ → Option ν
  /-- History: the keys that have been put on the queue. -/
  enqueued : List κ

namespace Channel

variable {κ ν : Type*} (c : Channel κ ν)

/-- A write leaves hooks behind. -/
def hook (ks : List κ) : Channel κ ν := { c with hooks := ks ++ c.hooks }

/-- A dispatcher without a batch takes one. -/
def pop (n : ℕ) : Option (Channel κ ν) :=
  match c.batch, c.item with
  | [], .done => some { c with queue := c.queue.drop n, batch := c.queue.take n }
  | _, _ => none

/-- The dispatcher reads the value of the next key of its batch. There may be none to post. -/
def load (value : κ → Option ν) : Option (Channel κ ν) :=
  match c.batch, c.item with
  | k :: rest, .done =>
    match value k with
    | none => some { c with batch := rest }
    | some v => some { c with batch := rest, item := .posting k v }
  | _, _ => none

/-- Reading the value fails. -/
def loadFails : Option (Channel κ ν) :=
  match c.batch, c.item with
  | k :: rest, .done => some { c with batch := rest, item := .failed k }
  | _, _ => none

/-- A failed key is put back on the queue. -/
def requeue : Option (Channel κ ν) :=
  match c.item with
  | .failed k => some { c with queue := k :: c.queue, item := .done, enqueued := k :: c.enqueued }
  | _ => none

variable [DecidableEq κ]

/-- A hook fires. -/
def fire (k : κ) : Option (Channel κ ν) :=
  if k ∈ c.hooks then
    some { c with hooks := c.hooks.erase k, queue := k :: c.queue, enqueued := k :: c.enqueued }
  else none

/-- A post ends: it is acknowledged, or the dispatcher takes it for failed, or both. -/
def answer (acknowledges fails : Bool) : Option (Channel κ ν) :=
  match c.item with
  | .posting k v =>
    if acknowledges ∨ fails then
      some
        { c with
          item := if fails then .failed k else .done
          acknowledged :=
            if acknowledges then Function.update c.acknowledged k (some v) else c.acknowledged }
    else none
  | _ => none

end Channel

open Channel

section Mirrored

variable {κ ν : Type*} {value value' : κ → Option ν} {c c' : Channel κ ν}

/-- The key is on its way to be read. -/
def Channel.Covered (c : Channel κ ν) (k : κ) : Prop :=
  k ∈ c.hooks ∨ k ∈ c.queue ∨ k ∈ c.batch ∨ c.item = .failed k

/-- Nothing is under way for the key: it is neither queued nor in flight nor waits for its hook. -/
structure Channel.Quiet (c : Channel κ ν) (k : κ) : Prop where
  hooks : k ∉ c.hooks
  queue : k ∉ c.queue
  batch : k ∉ c.batch
  item : ∀ v, c.item ≠ .posting k v
  failed : c.item ≠ .failed k

/-- **What is not acknowledged is under way**: the value of a key that was put on the queue is going
to be read, or is being posted, or is the last one that was acknowledged. -/
def Mirrored (value : κ → Option ν) (c : Channel κ ν) : Prop :=
  ∀ k v, value k = some v → k ∈ c.enqueued →
    c.Covered k ∨ c.item = .posting k v ∨ (∀ v', c.item ≠ .posting k v') ∧ c.acknowledged k = some v

/-- **Once nothing is under way, the value is acknowledged.** -/
theorem Mirrored.acknowledged_eq (h : Mirrored value c) {k : κ} {v : ν} (hv : value k = some v)
    (henqueued : k ∈ c.enqueued) (hquiet : c.Quiet k) : c.acknowledged k = some v := by
  rcases h k v hv henqueued with hcovered | hposting | ⟨-, hack⟩
  · rcases hcovered with hhooks | hqueue | hbatch | hfailed
    · exact absurd hhooks hquiet.hooks
    · exact absurd hqueue hquiet.queue
    · exact absurd hbatch hquiet.batch
    · exact absurd hfailed hquiet.failed
  · exact absurd hposting (hquiet.item v)
  · exact hack

/-! ## The steps -/

/-- A write may change the values that it leaves a hook for, and those of keys that have not been
put on the queue. -/
theorem Mirrored.hook (h : Mirrored value c) {ks : List κ}
    (hwrite : ∀ k v, value' k = some v → value k = some v ∨ k ∈ ks ∨ k ∉ c.enqueued) :
    Mirrored value' (c.hook ks) := by
  intro k v hv henqueued
  rcases hwrite k v hv with hsame | hhook | hnew
  · rcases h k v hsame henqueued with (hhooks | hcovered) | hrest
    · exact Or.inl (Or.inl (List.mem_append_right ks hhooks))
    · exact Or.inl (Or.inr hcovered)
    · exact Or.inr hrest
  · exact Or.inl (Or.inl (List.mem_append_left _ hhook))
  · exact absurd henqueued hnew

/-- A step that begins no post, acknowledges nothing and loses no key. -/
theorem Mirrored.of_covered (h : Mirrored value c) (hack : c'.acknowledged = c.acknowledged)
    (hposting : ∀ k v, c.item = .posting k v → c'.item = .posting k v)
    (hposted : ∀ k v, c'.item = .posting k v → c.item = .posting k v)
    (hcovered : ∀ k, c.Covered k → c'.Covered k)
    (henqueued : ∀ k ∈ c'.enqueued, k ∈ c.enqueued ∨ c'.Covered k) : Mirrored value c' := by
  intro k v hv hk
  rcases henqueued k hk with hold | hnew
  · rcases h k v hv hold with hcov | hpost | ⟨hnone, hacked⟩
    · exact Or.inl (hcovered k hcov)
    · exact Or.inr (Or.inl (hposting k v hpost))
    · exact Or.inr (Or.inr ⟨fun v' hpost => hnone v' (hposted k v' hpost), hack ▸ hacked⟩)
  · exact Or.inl hnew

theorem Mirrored.pop (h : Mirrored value c) {n : ℕ} (hc : c.pop n = some c') :
    Mirrored value c' := by
  unfold Channel.pop at hc
  split at hc
  · next hbatch hitem =>
    obtain rfl := Option.some.inj hc
    refine h.of_covered rfl (fun _ _ => id) (fun _ _ => id) (fun k hk => ?_) fun k => Or.inl
    rcases hk with hhooks | hqueue | hmem | hfailed
    · exact Or.inl hhooks
    · rw [← List.take_append_drop n c.queue, List.mem_append] at hqueue
      rcases hqueue with htake | hdrop
      · exact Or.inr (Or.inr (Or.inl htake))
      · exact Or.inr (Or.inl hdrop)
    · rw [hbatch] at hmem
      cases hmem
    · exact Or.inr (Or.inr (Or.inr hfailed))
  · cases hc

/-- The dispatcher has taken a key from its batch. -/
theorem Mirrored.taken (h : Mirrored value c) {k : κ} {rest : List κ} (hbatch : c.batch = k :: rest)
    (hitem : c.item = .done) {k' : κ} {v' : ν} (hne : k' ≠ k) (hv' : value k' = some v')
    (hk' : k' ∈ c.enqueued) :
    (k' ∈ c.hooks ∨ k' ∈ c.queue ∨ k' ∈ rest) ∨ c.acknowledged k' = some v' := by
  rcases h k' v' hv' hk' with (hhooks | hqueue | hmem | hfailed) | hpost | ⟨-, hack⟩
  · exact Or.inl (Or.inl hhooks)
  · exact Or.inl (Or.inr (Or.inl hqueue))
  · rw [hbatch] at hmem
    exact Or.inl (Or.inr (Or.inr ((List.mem_cons.mp hmem).resolve_left hne)))
  · rw [hitem] at hfailed
    cases hfailed
  · rw [hitem] at hpost
    cases hpost
  · exact Or.inr hack

/-- Reading a value that is still there begins a post of it.

**Proof sketch.** The key leaves the batch. If it has no value any more, nothing is promised for it.
If it has one, that value is being posted from now on. Every other key stays where it was, or is
acknowledged as before. -/
theorem Mirrored.load (h : Mirrored value c) (hc : c.load value = some c') :
    Mirrored value c' := by
  unfold Channel.load at hc
  split at hc
  · next k rest hbatch hitem =>
    cases hv : value k with
    | none =>
      rw [hv] at hc
      obtain rfl := Option.some.inj hc
      intro k' v' hv' hk'
      have hne : k' ≠ k := fun heq => by
        rw [heq, hv] at hv'
        cases hv'
      rcases h.taken hbatch hitem hne hv' hk' with (hhooks | hqueue | hrest) | hack
      · exact Or.inl (Or.inl hhooks)
      · exact Or.inl (Or.inr (Or.inl hqueue))
      · exact Or.inl (Or.inr (Or.inr (Or.inl hrest)))
      · refine Or.inr (Or.inr ⟨fun v'' hpost => ?_, hack⟩)
        rw [hitem] at hpost
        cases hpost
    | some v =>
      rw [hv] at hc
      obtain rfl := Option.some.inj hc
      intro k' v' hv' hk'
      by_cases heq : k' = k
      · subst heq
        obtain rfl := Option.some.inj (hv.symm.trans hv')
        exact Or.inr (Or.inl rfl)
      · rcases h.taken hbatch hitem heq hv' hk' with (hhooks | hqueue | hrest) | hack
        · exact Or.inl (Or.inl hhooks)
        · exact Or.inl (Or.inr (Or.inl hqueue))
        · exact Or.inl (Or.inr (Or.inr (Or.inl hrest)))
        · refine Or.inr (Or.inr ⟨fun v'' hpost => ?_, hack⟩)
          injection hpost with hkey
          exact heq hkey.symm
  · cases hc

theorem Mirrored.loadFails (h : Mirrored value c) (hc : c.loadFails = some c') :
    Mirrored value c' := by
  unfold Channel.loadFails at hc
  split at hc
  · next k rest hbatch hitem =>
    obtain rfl := Option.some.inj hc
    intro k' v' hv' hk'
    by_cases heq : k' = k
    · subst heq
      exact Or.inl (Or.inr (Or.inr (Or.inr rfl)))
    · rcases h.taken hbatch hitem heq hv' hk' with (hhooks | hqueue | hrest) | hack
      · exact Or.inl (Or.inl hhooks)
      · exact Or.inl (Or.inr (Or.inl hqueue))
      · exact Or.inl (Or.inr (Or.inr (Or.inl hrest)))
      · exact Or.inr (Or.inr ⟨fun v'' hpost => (by cases hpost), hack⟩)
  · cases hc

theorem Mirrored.requeue (h : Mirrored value c) (hc : c.requeue = some c') :
    Mirrored value c' := by
  unfold Channel.requeue at hc
  split at hc
  · next k hitem =>
    obtain rfl := Option.some.inj hc
    refine h.of_covered rfl (fun k' v hpost => ?_) (fun k' v hpost => by cases hpost)
      (fun k' hk' => ?_) (fun k' hk' => ?_)
    · rw [hitem] at hpost
      cases hpost
    · rcases hk' with hhooks | hqueue | hbatch | hfailed
      · exact Or.inl hhooks
      · exact Or.inr (Or.inl (List.mem_cons_of_mem k hqueue))
      · exact Or.inr (Or.inr (Or.inl hbatch))
      · rw [hitem] at hfailed
        injection hfailed with hkey
        exact Or.inr (Or.inl (hkey ▸ List.mem_cons_self))
    · rcases List.mem_cons.mp hk' with rfl | hold
      · exact Or.inr (Or.inr (Or.inl List.mem_cons_self))
      · exact Or.inl hold
  · cases hc

/-! ## The keys of a channel -/

/-- The key that the dispatcher has at hand. -/
def Item.key : Item κ ν → Option κ
  | .done => none
  | .posting k _ => some k
  | .failed k => some k

/-- Only keys with `P` are in the channel. -/
structure Channel.Only (P : κ → Prop) (c : Channel κ ν) : Prop where
  hooks : ∀ k ∈ c.hooks, P k
  queue : ∀ k ∈ c.queue, P k
  batch : ∀ k ∈ c.batch, P k
  item : ∀ k ∈ c.item.key, P k
  enqueued : ∀ k ∈ c.enqueued, P k

variable {P : κ → Prop}

theorem Channel.Only.mono {Q : κ → Prop} (h : c.Only P) (hPQ : ∀ k, P k → Q k) : c.Only Q :=
  ⟨fun k hk => hPQ k (h.hooks k hk), fun k hk => hPQ k (h.queue k hk),
    fun k hk => hPQ k (h.batch k hk), fun k hk => hPQ k (h.item k hk),
    fun k hk => hPQ k (h.enqueued k hk)⟩

theorem Channel.Only.hook (h : c.Only P) {ks : List κ} (hks : ∀ k ∈ ks, P k) :
    (c.hook ks).Only P := by
  refine ⟨fun k hk => ?_, h.queue, h.batch, h.item, h.enqueued⟩
  rcases List.mem_append.mp hk with hnew | hold
  · exact hks k hnew
  · exact h.hooks k hold

theorem Channel.Only.pop (h : c.Only P) {n : ℕ} (hc : c.pop n = some c') : c'.Only P := by
  unfold Channel.pop at hc
  split at hc
  · obtain rfl := Option.some.inj hc
    exact ⟨h.hooks, fun k hk => h.queue k (List.mem_of_mem_drop hk),
      fun k hk => h.queue k (List.mem_of_mem_take hk), h.item, h.enqueued⟩
  · cases hc

theorem Channel.Only.load (h : c.Only P) (hc : c.load value = some c') : c'.Only P := by
  unfold Channel.load at hc
  split at hc
  · next k rest hbatch hitem =>
    have hrest : ∀ k' ∈ rest, P k' := fun k' hk' => h.batch k' (hbatch ▸ List.mem_cons_of_mem k hk')
    have hk : P k := h.batch k (hbatch ▸ List.mem_cons_self)
    split at hc
    · obtain rfl := Option.some.inj hc
      exact ⟨h.hooks, h.queue, hrest, h.item, h.enqueued⟩
    · obtain rfl := Option.some.inj hc
      refine ⟨h.hooks, h.queue, hrest, fun k' hk' => ?_, h.enqueued⟩
      obtain rfl := Option.some.inj hk'
      exact hk
  · cases hc

theorem Channel.Only.loadFails (h : c.Only P) (hc : c.loadFails = some c') : c'.Only P := by
  unfold Channel.loadFails at hc
  split at hc
  · next k rest hbatch hitem =>
    obtain rfl := Option.some.inj hc
    refine ⟨h.hooks, h.queue, fun k' hk' => h.batch k' (hbatch ▸ List.mem_cons_of_mem k hk'),
      fun k' hk' => ?_, h.enqueued⟩
    obtain rfl := Option.some.inj hk'
    exact h.batch k (hbatch ▸ List.mem_cons_self)
  · cases hc

theorem Channel.Only.requeue (h : c.Only P) (hc : c.requeue = some c') : c'.Only P := by
  unfold Channel.requeue at hc
  split at hc
  · next k hitem =>
    obtain rfl := Option.some.inj hc
    have hk : P k := h.item k (by rw [hitem]; rfl)
    refine ⟨h.hooks, fun k' hk' => ?_, h.batch, fun k' hk' => (by cases hk'), fun k' hk' => ?_⟩
    · rcases List.mem_cons.mp hk' with rfl | hold
      · exact hk
      · exact h.queue k' hold
    · rcases List.mem_cons.mp hk' with rfl | hold
      · exact hk
      · exact h.enqueued k' hold
  · cases hc

/-! ## Hooks and answers -/

variable [DecidableEq κ]

theorem Mirrored.fire (h : Mirrored value c) {k : κ} (hc : c.fire k = some c') :
    Mirrored value c' := by
  unfold Channel.fire at hc
  split_ifs at hc
  obtain rfl := Option.some.inj hc
  refine h.of_covered rfl (fun _ _ => id) (fun _ _ => id) (fun k' hk' => ?_) (fun k' hk' => ?_)
  · by_cases heq : k' = k
    · exact Or.inr (Or.inl (heq ▸ List.mem_cons_self))
    · rcases hk' with hhooks | hqueue | hrest
      · exact Or.inl ((List.mem_erase_of_ne heq).mpr hhooks)
      · exact Or.inr (Or.inl (List.mem_cons_of_mem k hqueue))
      · exact Or.inr (Or.inr hrest)
  · rcases List.mem_cons.mp hk' with rfl | hold
    · exact Or.inr (Or.inr (Or.inl List.mem_cons_self))
    · exact Or.inl hold

/-- **The end of a post.** If the posted value is still the value of its key, it is acknowledged or
its key is put back. If it is not, the key was on its way already.

**Proof sketch.** Let the post end. If the posted value is still the value of its key, it is
acknowledged, or the key is put among the failed ones. If it is not, the key was on its way for its
newer value already, and still is. For other keys nothing changes. -/
theorem Mirrored.answer (h : Mirrored value c) {acknowledges fails : Bool}
    (hc : c.answer acknowledges fails = some c') : Mirrored value c' := by
  unfold Channel.answer at hc
  split at hc
  · next k v hitem =>
    by_cases hends : acknowledges = true ∨ fails = true
    · rw [if_pos hends] at hc
      obtain rfl := Option.some.inj hc
      intro k' v' hv' hk'
      rcases h k' v' hv' hk' with (hhooks | hqueue | hbatch | hfailed) | hpost | ⟨hnone, hack⟩
      · exact Or.inl (Or.inl hhooks)
      · exact Or.inl (Or.inr (Or.inl hqueue))
      · exact Or.inl (Or.inr (Or.inr (Or.inl hbatch)))
      · rw [hitem] at hfailed
        cases hfailed
      · -- the posted value is the value of its key
        rw [hitem] at hpost
        injection hpost with hkey hvalue
        subst hkey hvalue
        cases fails with
        | true => exact Or.inl (Or.inr (Or.inr (Or.inr rfl)))
        | false =>
          have hacks : acknowledges = true := hends.resolve_right (by simp)
          exact Or.inr (Or.inr ⟨by simp, by simp [hacks]⟩)
      · have hne : k' ≠ k := fun heq => hnone v (heq ▸ hitem)
        refine Or.inr (Or.inr ⟨fun v'' => ?_, ?_⟩)
        · cases fails <;> simp
        · cases acknowledges <;> simp [Function.update_of_ne hne, hack]
    · rw [if_neg hends] at hc
      cases hc
  · cases hc

theorem Channel.Only.fire (h : c.Only P) {k : κ} (hc : c.fire k = some c') : c'.Only P := by
  unfold Channel.fire at hc
  split_ifs at hc with hmem
  obtain rfl := Option.some.inj hc
  have hk := h.hooks k hmem
  refine ⟨fun k' hk' => h.hooks k' (List.mem_of_mem_erase hk'), fun k' hk' => ?_, h.batch, h.item,
    fun k' hk' => ?_⟩
  · rcases List.mem_cons.mp hk' with rfl | hold
    · exact hk
    · exact h.queue k' hold
  · rcases List.mem_cons.mp hk' with rfl | hold
    · exact hk
    · exact h.enqueued k' hold

theorem Channel.Only.answer (h : c.Only P) {acknowledges fails : Bool}
    (hc : c.answer acknowledges fails = some c') : c'.Only P := by
  unfold Channel.answer at hc
  split at hc
  · next k v hitem =>
    have hk : P k := h.item k (by rw [hitem]; rfl)
    split_ifs at hc <;> obtain rfl := Option.some.inj hc
    all_goals
      refine ⟨h.hooks, h.queue, h.batch, fun k' hk' => ?_, h.enqueued⟩
      first
      | exact Option.some.inj hk' ▸ hk
      | cases hk'
  · cases hc

end Mirrored

end Mirror
