import MailAggregator.Lib.Transition
import MailAggregator.Shared.MailCipher

set_option relaxedAutoImplicit false
set_option autoImplicit false

/-!
# Key rotation

A rotation sets `MAIL_ENCRYPTION_KEY` to a new key and `MAIL_ENCRYPTION_KEY_PREV` to the old one,
and restarts the services, each of which reads its keys once, when it starts. Meanwhile and
afterwards the services read, write and rewrite the stored secrets.

Every stored blob has the version byte of the current key. Under another current key it does not
open, and the previous key, which is for the other version byte, is never tried on it.

## Main definitions

* `MailAggregator.KeyRotation.system` — services, their keys and the stored secrets.
* `MailAggregator.KeyRotation.Readable` — every service can read every stored secret.
* `MailAggregator.KeyRotation.KeepsKey` — the condition on a step.

## Main results

* `MailAggregator.KeyRotation.readable_iff` — every secret stays readable along a run exactly when
  no service is restarted into another key while secrets are stored, and none is written while the
  services have different keys.
-/

namespace MailAggregator

open PyText Lib Transition MailPasswordCipher

namespace KeyRotation

/-- The encrypted columns of an account. -/
inductive Column where
  | encryptedPassword
  | smtpEncryptedPassword
  | oauthRefreshTokenEncrypted
  | oauthAccessTokenEncrypted
  deriving DecidableEq, Repr

/-- Where a secret is stored: the account id and the column. -/
abbrev Slot := ℕ × Column

/-- A stored secret, with the text that it was written for. -/
structure Secret where
  blob : List Utf8.Byte
  plaintext : Text
  deriving DecidableEq

/-- The environment, the keys that each service has loaded, and the stored secrets. -/
structure KeyState (Service : Type) where
  env : MailPasswordCipher
  loaded : Service → MailPasswordCipher
  secrets : Slot → Option Secret

/-- The steps. -/
inductive KeyLabel (Service : Type) where
  /-- A service stores a secret. -/
  | write (p : Service) (slot : Slot) (iv : Iv) (plaintext : Text)
  /-- A service reads a secret and stores what it read. -/
  | rewrite (p : Service) (slot : Slot) (iv : Iv)
  /-- A secret is deleted. -/
  | delete (slot : Slot)
  /-- The rotation sets both keys in the environment. -/
  | setKey (key : MasterKey)
  /-- The end of the rotation takes the previous key away. -/
  | clearPrev
  /-- A service is restarted. -/
  | restart (p : Service)

variable {Service : Type} (A : Aead MasterKey)

/-- Put a blob into a slot. -/
def store (s : KeyState Service) (slot : Slot) (blob : List Utf8.Byte) (plaintext : Text) :
    KeyState Service :=
  { s with secrets := Function.update s.secrets slot (some ⟨blob, plaintext⟩) }

/-- **Every service reads every stored secret**, and reads the text it was written for. -/
def Readable (s : KeyState Service) : Prop :=
  ∀ p slot secret, s.secrets slot = some secret →
    (s.loaded p).decrypt A secret.blob slot.1 = .ok secret.plaintext

/-- **The invariant**: every stored blob is one of the current version, made for its account. -/
def WellSealed (s : KeyState Service) : Prop :=
  ∀ slot secret, s.secrets slot = some secret →
    0 < slot.1 ∧ ∃ key iv text, secret.blob = sealed A versionCurrent key iv text slot.1

section Readable

variable {A} {s : KeyState Service}

/-- What is stored after a blob was put into a slot. -/
theorem store_eq_some {slot slot' : Slot} {blob : List Utf8.Byte} {plaintext : Text}
    {secret : Secret} (h : (store s slot blob plaintext).secrets slot' = some secret) :
    slot' = slot ∧ secret = ⟨blob, plaintext⟩ ∨ slot' ≠ slot ∧ s.secrets slot' = some secret := by
  by_cases hslot : slot' = slot
  · subst hslot
    simp only [store, Function.update_self, Option.some.injEq] at h
    exact Or.inl ⟨rfl, h.symm⟩
  · simp only [store, Function.update_of_ne hslot] at h
    exact Or.inr ⟨hslot, h⟩

/-- An encryption that succeeds is for an account id, and gives a blob of the current version. -/
theorem encrypt_ok {cipher : MailPasswordCipher} {iv : Iv} {text : Text} {mailAccountId : ℕ}
    {blob : List Utf8.Byte} (h : cipher.encrypt A iv text mailAccountId = .ok blob) :
    0 < mailAccountId ∧ blob = sealed A versionCurrent cipher.current iv text mailAccountId := by
  rcases Nat.eq_zero_or_pos mailAccountId with rfl | hpos
  · cases h
  · rw [encrypt_eq _ _ _ hpos] at h
    exact ⟨hpos, (Except.ok.inj h).symm⟩

/-- A service that reads a secret has the key it was sealed with, and reads what was sealed. -/
theorem Readable.key_eq {p : Service} {slot : Slot} {secret : Secret} {key : MasterKey} {iv : Iv}
    {text : Text} (h : Readable A s) (hsecret : s.secrets slot = some secret)
    (hpos : 0 < slot.1) (hblob : secret.blob = sealed A versionCurrent key iv text slot.1) :
    (s.loaded p).current = key ∧ text = secret.plaintext := by
  have hread := h p slot secret hsecret
  rw [hblob, decrypt_current _ _ _ _ hpos] at hread
  by_cases hkey : (s.loaded p).current = key
  · rw [if_pos hkey] at hread
    exact ⟨hkey, Except.ok.inj hread⟩
  · rw [if_neg hkey] at hread
    cases hread

/-- As long as a secret is readable, all services have one current key. -/
theorem Readable.current_eq (h : Readable A s) (hsealed : WellSealed A s) {slot : Slot}
    {secret : Secret} (hsecret : s.secrets slot = some secret) (p q : Service) :
    (s.loaded q).current = (s.loaded p).current := by
  obtain ⟨hpos, key, iv, text, hblob⟩ := hsealed slot secret hsecret
  rw [(h.key_eq (p := p) hsecret hpos hblob).1, (h.key_eq (p := q) hsecret hpos hblob).1]

/-- Secrets stay readable when a blob is stored exactly when all services have its key. -/
theorem readable_store_iff (h : Readable A s) {slot : Slot} (hpos : 0 < slot.1) (key : MasterKey)
    (iv : Iv) (text : Text) :
    Readable A (store s slot (sealed A versionCurrent key iv text slot.1) text) ↔
      ∀ q, (s.loaded q).current = key := by
  constructor
  · intro hstore q
    have hself : (store s slot (sealed A versionCurrent key iv text slot.1) text).secrets slot =
        some ⟨sealed A versionCurrent key iv text slot.1, text⟩ := Function.update_self _ _ _
    exact (hstore.key_eq (p := q) hself hpos rfl).1
  · intro hkeys q slot' secret' hsecret'
    rcases store_eq_some hsecret' with ⟨rfl, rfl⟩ | ⟨-, hold⟩
    · exact (decrypt_current _ _ _ _ hpos).trans (if_pos (hkeys q))
    · exact h q slot' secret' hold

end Readable

/-! ## The system -/

variable [DecidableEq Service]

/-- The state after a step. -/
def next (s : KeyState Service) : KeyLabel Service → Option (KeyState Service)
  | .write p slot iv plaintext =>
    match (s.loaded p).encrypt A iv plaintext slot.1 with
    | .error _ => none
    | .ok blob => some (store s slot blob plaintext)
  | .rewrite p slot iv =>
    match s.secrets slot with
    | none => none
    | some secret =>
      match (s.loaded p).decrypt A secret.blob slot.1 with
      | .error _ => some s
      | .ok text =>
        match (s.loaded p).encrypt A iv text slot.1 with
        | .error _ => none
        | .ok blob => some (store s slot blob secret.plaintext)
  | .delete slot => some { s with secrets := Function.update s.secrets slot none }
  | .setKey key => some { s with env := { current := key, prev := some s.env.current } }
  | .clearPrev => some { s with env := { s.env with prev := none } }
  | .restart p => some { s with loaded := Function.update s.loaded p s.env }

/-- The services and the stored secrets. At first nothing is stored, and every service has the
keys of the environment. -/
def system : System (KeyState Service) (KeyLabel Service) where
  init s := (∀ p, s.loaded p = s.env) ∧ ∀ slot, s.secrets slot = none
  next := next A

/-- The condition on a step: a secret is written while all services have one current key, and a
service is restarted into its current key, or while nothing is stored. -/
def KeepsKey (s : KeyState Service) : KeyLabel Service → Prop
  | .write p _ _ _ => ∀ q, (s.loaded q).current = (s.loaded p).current
  | .restart p => (∀ slot, s.secrets slot = none) ∨ s.env.current = (s.loaded p).current
  | _ => True

variable {A} {s t : KeyState Service}

/-- **What a step does**: it puts a fresh blob into a slot, deletes, leaves the secrets and the
loaded keys alone, or restarts a service.

**Proof sketch.** By cases on the label. A write and a rewrite encrypt with the current key of their
service, for a positive account number, and put the blob into their slot; a rewrite has opened the
old blob before. The other labels delete, restart, change the environment, or read. -/
theorem next_cases {a : KeyLabel Service} (h : next A s a = some t) :
    (∃ p slot iv text, a = .write p slot iv text ∧ 0 < slot.1 ∧
      t = store s slot (sealed A versionCurrent (s.loaded p).current iv text slot.1) text) ∨
    (∃ p slot iv secret text, a = .rewrite p slot iv ∧ s.secrets slot = some secret ∧
      (s.loaded p).decrypt A secret.blob slot.1 = .ok text ∧ 0 < slot.1 ∧
      t = store s slot (sealed A versionCurrent (s.loaded p).current iv text slot.1)
        secret.plaintext) ∨
    (∃ slot, a = .delete slot ∧
      t = { s with secrets := Function.update s.secrets slot none }) ∨
    (t.secrets = s.secrets ∧ t.loaded = s.loaded ∧ KeepsKey s a) ∨
    (∃ p, a = .restart p ∧ t = { s with loaded := Function.update s.loaded p s.env }) := by
  cases a with
  | write p slot iv text =>
    left
    rw [next] at h
    cases hblob : (s.loaded p).encrypt A iv text slot.1 with
    | error e => rw [hblob] at h; cases h
    | ok blob =>
      rw [hblob] at h
      obtain ⟨hpos, rfl⟩ := encrypt_ok hblob
      exact ⟨p, slot, iv, text, rfl, hpos, (Option.some.inj h).symm⟩
  | rewrite p slot iv =>
    right
    rw [next] at h
    cases hsecret : s.secrets slot with
    | none => rw [hsecret] at h; cases h
    | some secret =>
      rw [hsecret] at h
      cases htext : (s.loaded p).decrypt A secret.blob slot.1 with
      | error e =>
        simp only [htext] at h
        obtain rfl := Option.some.inj h
        exact Or.inr (Or.inr (Or.inl ⟨rfl, rfl, trivial⟩))
      | ok text =>
        simp only [htext] at h
        cases hblob : (s.loaded p).encrypt A iv text slot.1 with
        | error e => rw [hblob] at h; cases h
        | ok blob =>
          rw [hblob] at h
          obtain ⟨hpos, rfl⟩ := encrypt_ok hblob
          exact Or.inl ⟨p, slot, iv, secret, text, rfl, hsecret, htext, hpos,
            (Option.some.inj h).symm⟩
  | delete slot => exact Or.inr (Or.inr (Or.inl ⟨slot, rfl, (Option.some.inj h).symm⟩))
  | setKey key =>
    obtain rfl := Option.some.inj h
    exact Or.inr (Or.inr (Or.inr (Or.inl ⟨rfl, rfl, trivial⟩)))
  | clearPrev =>
    obtain rfl := Option.some.inj h
    exact Or.inr (Or.inr (Or.inr (Or.inl ⟨rfl, rfl, trivial⟩)))
  | restart p => exact Or.inr (Or.inr (Or.inr (Or.inr ⟨p, rfl, (Option.some.inj h).symm⟩)))

/-- The invariant is kept. -/
theorem WellSealed.next {a : KeyLabel Service} (h : WellSealed A s)
    (hn : next A s a = some t) : WellSealed A t := by
  intro slot' secret' hsecret'
  obtain ⟨p, slot, iv, text, -, hpos, rfl⟩ | ⟨p, slot, iv, secret, text, -, -, -, hpos, rfl⟩ |
    ⟨slot, -, rfl⟩ | ⟨hsecrets, -, -⟩ | ⟨p, -, rfl⟩ := next_cases hn
  · rcases store_eq_some hsecret' with ⟨rfl, rfl⟩ | ⟨-, hold⟩
    · exact ⟨hpos, _, iv, text, rfl⟩
    · exact h slot' secret' hold
  · rcases store_eq_some hsecret' with ⟨rfl, rfl⟩ | ⟨-, hold⟩
    · exact ⟨hpos, _, iv, text, rfl⟩
    · exact h slot' secret' hold
  · by_cases hslot : slot' = slot
    · subst hslot
      simp only [Function.update_self] at hsecret'
      cases hsecret'
    · simp only [Function.update_of_ne hslot] at hsecret'
      exact h slot' secret' hsecret'
  · exact h slot' secret' (hsecrets ▸ hsecret')
  · exact h slot' secret' hsecret'

/-- Secrets stay readable when a service is restarted exactly when it keeps its current key or
nothing is stored.

**Proof sketch.** If something is stored, it opens with the loaded current key of the service before
and after the restart, which determines that key. Conversely, the other services keep their keys,
and the restarted one has the same current key as before. -/
theorem readable_restart_iff (h : Readable A s) (hsealed : WellSealed A s) (p : Service) :
    Readable A { s with loaded := Function.update s.loaded p s.env } ↔
      (∀ slot, s.secrets slot = none) ∨ s.env.current = (s.loaded p).current := by
  constructor
  · intro hafter
    by_cases hempty : ∀ slot, s.secrets slot = none
    · exact Or.inl hempty
    · right
      obtain ⟨slot, hslot⟩ := not_forall.mp hempty
      obtain ⟨secret, hsecret⟩ := Option.ne_none_iff_exists'.mp hslot
      obtain ⟨hpos, key, iv, text, hblob⟩ := hsealed slot secret hsecret
      have hbefore := (h.key_eq (p := p) hsecret hpos hblob).1
      have hnow := (hafter.key_eq (p := p) hsecret hpos hblob).1
      simp only [Function.update_self] at hnow
      rw [hnow, hbefore]
  · intro hkeeps q slot secret hsecret
    rcases hkeeps with hempty | hkey
    · rw [hempty slot] at hsecret
      cases hsecret
    · by_cases hq : q = p
      · subst hq
        obtain ⟨hpos, key, iv, text, hblob⟩ := hsealed slot secret hsecret
        obtain ⟨hcurrent, rfl⟩ := h.key_eq (p := q) hsecret hpos hblob
        simp only [Function.update_self]
        rw [hblob, decrypt_current _ _ _ _ hpos, if_pos (hkey.trans hcurrent)]
      · simp only [Function.update_of_ne hq]
        exact h q slot secret hsecret

/-- **One step keeps the secrets readable exactly when it meets the condition.** -/
theorem readable_next_iff {a : KeyLabel Service} (hsealed : WellSealed A s) (h : Readable A s)
    (hn : next A s a = some t) : Readable A t ↔ KeepsKey s a := by
  obtain ⟨p, slot, iv, text, rfl, hpos, rfl⟩ |
    ⟨p, slot, iv, secret, text, rfl, hsecret, htext, hpos, rfl⟩ | ⟨slot, rfl, rfl⟩ |
    ⟨hsecrets, hloaded, hkeeps⟩ | ⟨p, rfl, rfl⟩ := next_cases hn
  · exact readable_store_iff h hpos _ iv text
  · -- what is read in a readable state is the text the secret was written for
    obtain rfl : secret.plaintext = text :=
      Except.ok.inj ((h p slot secret hsecret).symm.trans htext)
    rw [readable_store_iff h hpos]
    exact ⟨fun _ => trivial, fun _ q => h.current_eq hsealed hsecret p q⟩
  · refine ⟨fun _ => trivial, fun _ q slot' secret' hsecret' => ?_⟩
    by_cases hslot : slot' = slot
    · subst hslot
      simp only [Function.update_self] at hsecret'
      cases hsecret'
    · simp only [Function.update_of_ne hslot] at hsecret'
      exact h q slot' secret' hsecret'
  · refine ⟨fun _ => hkeeps, fun _ q slot secret hsecret => ?_⟩
    rw [hloaded]
    exact h q slot secret (hsecrets ▸ hsecret)
  · exact readable_restart_iff h hsealed p

/-- **Along every run all secrets stay readable exactly when every step meets the condition.** -/
theorem readable_iff {labels : List (KeyLabel Service)} (hs : (system A).init s)
    (hrun : (system A).run s labels = some t) :
    (system A).Along (Readable A) s labels ↔ (system A).Meets KeepsKey s labels := by
  have hempty : ∀ slot secret, s.secrets slot ≠ some secret := by
    intro slot secret hsecret
    rw [hs.2 slot] at hsecret
    cases hsecret
  refine System.along_iff_meets (I := WellSealed A) (fun _ _ _ hsealed hn => hsealed.next hn)
    (fun _ _ _ hsealed hread hn => readable_next_iff hsealed hread hn) ?_ ?_ hrun
  · exact fun slot secret hsecret => absurd hsecret (hempty slot secret)
  · exact fun p slot secret hsecret => absurd hsecret (hempty slot secret)

/-! ## A rotation -/

/-- A key of 32 equal bytes. -/
def uniformKey (b : Utf8.Byte) : MasterKey := ⟨List.replicate 32 b, List.length_replicate⟩

/-- A cipher whose ciphertexts begin with the key. -/
def framedAead : Aead MasterKey := Aead.framed Subtype.val Subtype.val_injective

/-- One service with one key, and nothing stored. -/
def freshState : KeyState Unit where
  env := ⟨uniformKey 0, none⟩
  loaded _ := ⟨uniformKey 0, none⟩
  secrets _ := none

/-- A nonce. -/
def zeroIv : Iv := ⟨List.replicate 12 0, List.length_replicate⟩

/-- A password is stored, and then the key is rotated. -/
def rotationLabels : List (KeyLabel Unit) :=
  [.write () (1, .encryptedPassword) zeroIv "p".toList, .setKey (uniformKey 1), .restart ()]

theorem readable_iff_rotation :
    (system framedAead).Along (Readable framedAead) freshState rotationLabels ↔
      (system framedAead).Meets KeepsKey freshState rotationLabels :=
  readable_iff ⟨fun _ => rfl, fun _ => rfl⟩ rfl

/-- After the rotation the password stored before it is not readable. -/
theorem rotation_loses_secrets :
    ¬ ∀ (A : Aead MasterKey) (s t : KeyState Unit) (labels : List (KeyLabel Unit)),
      (system A).init s → (system A).run s labels = some t →
        (system A).Along (Readable A) s labels := by
  intro h
  have halong := h framedAead freshState _ rotationLabels ⟨fun _ => rfl, fun _ => rfl⟩ rfl
  have hafter : Readable framedAead _ := ((halong.2 _ rfl).2 _ rfl).2 _ rfl
  have hread := hafter () (1, .encryptedPassword) _ rfl
  have hkeys : uniformKey 1 ≠ uniformKey 0 := by decide
  have hblob : (MailPasswordCipher.mk (uniformKey 0) none).encrypt framedAead zeroIv "p".toList 1 =
    .ok _ := rfl
  have hlost := decrypt_encrypt_of_ne _ ⟨uniformKey 1, some (uniformKey 0)⟩ hkeys zeroIv "p".toList
    hblob
  exact absurd (hread.symm.trans hlost) fun heq => by cases heq

end KeyRotation

end MailAggregator
