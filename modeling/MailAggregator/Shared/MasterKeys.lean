import MailAggregator.Lib.Base64
import MailAggregator.Shared.MailCipher

set_option relaxedAutoImplicit false
set_option autoImplicit false

/-!
# The configured keys

The keys come from two variables of the environment, in Base64. They are checked once, when the
settings are loaded, by the decoder that refuses what is no digit; whenever a cipher is made they
are decoded again, by the one that skips it. A cipher is made for every request and every sync, so a
key that passed the check and then did not decode to 32 bytes would stop all of them.

## Main definitions

* `MailAggregator.KeySettings.load` — the validators of `Settings`.
* `MailAggregator.MailPasswordCipher.fromSettings` — `from_settings`.
* `MailAggregator.IsKeyText` — the texts that a key is configured with.

## Main results

* `MailAggregator.MailPasswordCipher.fromSettings_of_load` — the environments that load, and the
  cipher of each of them.
* `MailAggregator.MailPasswordCipher.fromSettings_encoded` — an operator's keys are the cipher's.
-/

namespace MailAggregator

open PyText Utf8

/-- The two variables, which may be missing. -/
structure KeyEnv where
  mailEncryptionKey : Option Text
  mailEncryptionKeyPrev : Option Text

/-- The keys in `Settings`. -/
structure KeySettings where
  mailEncryptionKey : Text
  mailEncryptionKeyPrev : Option Text
  deriving DecidableEq, Repr

namespace KeySettings

/-! ## The validators -/

/-- The check that both validators make of a value that is not empty. -/
def checkKey (name : String) (v : Text) : Except Text Text :=
  match Base64.decode true v with
  | none => .error (name.toList ++ ": not valid base64".toList)
  | some raw =>
    if raw.length ≠ 32 then
      .error (name.toList ++ ": must decode to 32 bytes, got ".toList ++ ofNat raw.length)
    else .ok v

/-- `_validate_master_key`. -/
def validateMasterKey (v : Text) : Except Text Text :=
  if v = [] then .ok v else checkKey "MAIL_ENCRYPTION_KEY" v

/-- `_validate_master_key_prev`. -/
def validateMasterKeyPrev : Option Text → Except Text (Option Text)
  | none | some [] => .ok none
  | some v =>
    match checkKey "MAIL_ENCRYPTION_KEY_PREV" v with
    | .error e => .error e
    | .ok v => .ok (some v)

/-- `_enforce_required`. -/
def enforceRequired (s : KeySettings) : Except Text KeySettings :=
  if s.mailEncryptionKey = [] then .error "Missing required env: MAIL_ENCRYPTION_KEY".toList
  else .ok s

/-- The errors of a field. -/
def errorsOf {α : Type} : Except Text α → List Text
  | .error e => [e]
  | .ok _ => []

/-- Loading `Settings`: the validators of the fields, and if none of them raises, that of the
whole. -/
def load (env : KeyEnv) : Except (List Text) KeySettings :=
  match validateMasterKey (env.mailEncryptionKey.getD []),
    validateMasterKeyPrev env.mailEncryptionKeyPrev with
  | .ok key, .ok prev =>
    match enforceRequired ⟨key, prev⟩ with
    | .error e => .error [e]
    | .ok s => .ok s
  | key, prev => .error (errorsOf key ++ errorsOf prev)

/-! ## The bytes of the keys -/

/-- `mail_master_key_bytes`; `none` is `binascii.Error`. -/
def mailMasterKeyBytes (s : KeySettings) : Option (List Byte) :=
  Base64.decode false s.mailEncryptionKey

/-- `mail_master_key_prev_bytes`. -/
def mailMasterKeyPrevBytes (s : KeySettings) : Option (Option (List Byte)) :=
  match s.mailEncryptionKeyPrev with
  | none | some [] => some none
  | some v => (Base64.decode false v).map some

end KeySettings

namespace MailPasswordCipher

/-- `MailPasswordCipher(current_key, prev_key)`. -/
def init (currentKey : List Byte) (prevKey : Option (List Byte)) :
    Except CryptoError MailPasswordCipher :=
  if h : currentKey.length = 32 then
    match prevKey with
    | none => .ok ⟨⟨currentKey, h⟩, none⟩
    | some prevKey =>
      if h' : prevKey.length = 32 then .ok ⟨⟨currentKey, h⟩, some ⟨prevKey, h'⟩⟩
      else .error .valueError
  else .error .valueError

/-- `from_settings`. -/
def fromSettings (s : KeySettings) : Except CryptoError MailPasswordCipher :=
  match s.mailMasterKeyBytes, s.mailMasterKeyPrevBytes with
  | some currentKey, some prevKey => init currentKey prevKey
  | _, _ => .error .valueError

end MailPasswordCipher

/-! ## What the validators accept -/

/-- **A text that a key is configured with**: 43 digits and a pad. -/
def IsKeyText (v : Text) : Prop :=
  ∃ digits : Text, v = digits ++ ['='] ∧ digits.length = 43 ∧ ∀ c ∈ digits, Base64.value c ≠ none

/-- These are the texts of 32 bytes. -/
theorem isKeyText_iff {v : Text} :
    IsKeyText v ↔ ∃ raw, Base64.decode true v = some raw ∧ raw.length = 32 := by
  rw [Base64.exists_strict_iff]
  constructor
  · rintro ⟨digits, rfl, hlength, hdigits⟩
    exact ⟨digits, 1, rfl, hdigits, by decide, by rw [hlength], by rw [hlength]⟩
  · rintro ⟨digits, pads, rfl, hdigits, hpads, hfull, hlength⟩
    obtain ⟨hcount, rfl⟩ : digits.length = 43 ∧ pads = 1 := by omega
    exact ⟨digits, rfl, hcount, hdigits⟩

theorem IsKeyText.ne_nil {v : Text} (h : IsKeyText v) : v ≠ [] := by
  obtain ⟨digits, rfl, -⟩ := h
  simp

namespace KeySettings

theorem checkKey_eq_ok_iff {name : String} {v v' : Text} :
    checkKey name v = .ok v' ↔ v' = v ∧ IsKeyText v := by
  rw [isKeyText_iff, checkKey]
  cases hdecode : Base64.decode true v with
  | none => simp
  | some raw =>
    by_cases hlength : raw.length = 32
    · simp [hlength, eq_comm]
    · simp [hlength]

theorem validateMasterKeyPrev_eq_ok_iff {v v' : Option Text} :
    validateMasterKeyPrev v = .ok v' ↔
      v' = v.filter (· ≠ []) ∧ ∀ prev ∈ v, prev = [] ∨ IsKeyText prev := by
  cases v with
  | none => simp [validateMasterKeyPrev, eq_comm]
  | some prev =>
    cases prev with
    | nil => simp [validateMasterKeyPrev, Option.filter, eq_comm]
    | cons c rest =>
      rw [validateMasterKeyPrev]
      · cases hcheck : checkKey "MAIL_ENCRYPTION_KEY_PREV" (c :: rest) with
        | error e =>
          have hnot : ¬ IsKeyText (c :: rest) := by
            intro h
            rw [checkKey_eq_ok_iff.mpr ⟨rfl, h⟩] at hcheck
            cases hcheck
          simp [hnot]
        | ok checked =>
          obtain ⟨rfl, h⟩ := checkKey_eq_ok_iff.mp hcheck
          simp [h, Option.filter, eq_comm]
      · simp

theorem validateMasterKey_eq_ok_iff {v v' : Text} :
    validateMasterKey v = .ok v' ↔ v' = v ∧ (v = [] ∨ IsKeyText v) := by
  rw [validateMasterKey]
  by_cases hnil : v = []
  · simp [hnil, eq_comm]
  · rw [if_neg hnil, checkKey_eq_ok_iff, or_iff_right hnil]

/-- **What is loaded**, and when.

**Proof sketch.** The two validators are applied to the two variables, and the required key must be
there. Each of them has an equation for its success; an empty previous key counts as none. -/
theorem load_eq_ok_iff {env : KeyEnv} {s : KeySettings} :
    load env = .ok s ↔
      (env.mailEncryptionKey = some s.mailEncryptionKey ∧ IsKeyText s.mailEncryptionKey) ∧
        s.mailEncryptionKeyPrev = env.mailEncryptionKeyPrev.filter (· ≠ []) ∧
          ∀ prev ∈ env.mailEncryptionKeyPrev, prev = [] ∨ IsKeyText prev := by
  constructor
  · intro h
    rw [load] at h
    split at h
    · next key prev hkey hprev =>
      obtain ⟨rfl, hkeyText⟩ := validateMasterKey_eq_ok_iff.mp hkey
      have hrequired : enforceRequired ⟨env.mailEncryptionKey.getD [], prev⟩ = .ok s := by
        split at h
        · cases h
        · next heq => rw [heq, Except.ok.inj h]
      rw [enforceRequired] at hrequired
      split_ifs at hrequired with hnil
      obtain rfl := Except.ok.inj hrequired
      refine ⟨⟨?_, hkeyText.resolve_left hnil⟩, validateMasterKeyPrev_eq_ok_iff.mp hprev⟩
      cases hsome : env.mailEncryptionKey with
      | none => exact absurd (by simp [hsome]) hnil
      | some key => rfl
    · cases h
  · rintro ⟨⟨hkey, hkeyText⟩, hprev⟩
    have hvalid := validateMasterKey_eq_ok_iff.mpr
      ⟨rfl, Or.inr hkeyText⟩
    rw [load, hkey, Option.getD_some, hvalid, validateMasterKeyPrev_eq_ok_iff.mpr hprev]
    simp only [enforceRequired, if_neg hkeyText.ne_nil]

end KeySettings

namespace MailPasswordCipher

/-! ## The ciphers -/

/-- The bytes of a configured key, by either decoder. -/
theorem exists_masterKey {v : Text} (h : IsKeyText v) :
    ∃ key : MasterKey, Base64.decode true v = some key.1 ∧ Base64.decode false v = some key.1 := by
  obtain ⟨raw, hraw, hlength⟩ := isKeyText_iff.mp h
  exact ⟨⟨raw, hlength⟩, hraw, Base64.decode_of_strict hraw⟩

theorem init_masterKeys (current : MasterKey) (prev : Option MasterKey) :
    init current.1 (prev.map Subtype.val) = .ok ⟨current, prev⟩ := by
  cases prev with
  | none => rw [init, dif_pos current.2]; rfl
  | some prev => simp only [init, dif_pos current.2, Option.map_some, dif_pos prev.2]

/-- The cipher of two configured keys: its keys are what the strict decoder reads. -/
theorem exists_fromSettings {s : KeySettings} (hkey : IsKeyText s.mailEncryptionKey)
    (hprev : ∀ v ∈ s.mailEncryptionKeyPrev, IsKeyText v) :
    ∃ cipher, fromSettings s = .ok cipher ∧
      Base64.decode true s.mailEncryptionKey = some cipher.current.1 ∧
      s.mailEncryptionKeyPrev.bind (Base64.decode true) = cipher.prev.map Subtype.val := by
  obtain ⟨current, hstrict, hlenient⟩ := exists_masterKey hkey
  obtain ⟨prev, hprevStrict, hprevLenient⟩ : ∃ prev : Option MasterKey,
      s.mailEncryptionKeyPrev.bind (Base64.decode true) = prev.map Subtype.val ∧
        s.mailMasterKeyPrevBytes = some (prev.map Subtype.val) := by
    rw [KeySettings.mailMasterKeyPrevBytes]
    cases hcase : s.mailEncryptionKeyPrev with
    | none => exact ⟨none, rfl, rfl⟩
    | some v =>
      have hv : IsKeyText v := hprev v hcase
      obtain ⟨prev, hs, hl⟩ := exists_masterKey hv
      refine ⟨some prev, hs, ?_⟩
      cases v with
      | nil => exact absurd rfl hv.ne_nil
      | cons c rest => simp only [hl, Option.map_some]
  refine ⟨⟨current, prev⟩, ?_, hstrict, hprevStrict⟩
  rw [fromSettings, KeySettings.mailMasterKeyBytes, hlenient, hprevLenient]
  exact init_masterKeys current prev

/-- **The environments that load, and the cipher of each of them.** The settings load exactly if
the key is 43 digits and a pad, and the previous key is this, empty or missing; then no cipher that
is made of them raises, and its keys are what the strict decoder has read: no key has been changed
by what the other decoder skips.

**Proof sketch.** What the strict decoder accepts the other one reads as the same bytes, and the
strict one gives 32 bytes exactly for 43 digits with the pad that completes their last group. -/
theorem fromSettings_of_load (env : KeyEnv) :
    ((∃ s, KeySettings.load env = .ok s) ↔
      (∃ key, env.mailEncryptionKey = some key ∧ IsKeyText key) ∧
        ∀ prev ∈ env.mailEncryptionKeyPrev, prev = [] ∨ IsKeyText prev) ∧
      ∀ s, KeySettings.load env = .ok s →
        ∃ cipher, fromSettings s = .ok cipher ∧
          env.mailEncryptionKey.bind (Base64.decode true) = some cipher.current.1 ∧
          (env.mailEncryptionKeyPrev.filter (· ≠ [])).bind (Base64.decode true) =
            cipher.prev.map Subtype.val := by
  constructor
  · constructor
    · rintro ⟨s, h⟩
      obtain ⟨hkey, -, hprev⟩ := KeySettings.load_eq_ok_iff.mp h
      exact ⟨⟨s.mailEncryptionKey, hkey⟩, hprev⟩
    · rintro ⟨⟨key, hkey⟩, hprev⟩
      exact ⟨⟨key, env.mailEncryptionKeyPrev.filter (· ≠ [])⟩,
        KeySettings.load_eq_ok_iff.mpr ⟨hkey, rfl, hprev⟩⟩
  · intro s h
    obtain ⟨⟨hkey, hkeyText⟩, hprevText, hprev⟩ := KeySettings.load_eq_ok_iff.mp h
    rw [hkey, ← hprevText]
    refine exists_fromSettings hkeyText fun v hv => ?_
    rw [hprevText, Option.mem_def, Option.filter_eq_some_iff, decide_eq_true_eq] at hv
    exact (hprev v hv.1).resolve_left hv.2

/-- A key of 32 zero bytes, and no previous one. -/
def zeroKeyEnv : KeyEnv where
  mailEncryptionKey := some (List.replicate 43 'A' ++ ['='])
  mailEncryptionKeyPrev := some []

/-- The settings load, and the cipher has this key alone. -/
theorem fromSettings_of_load_zeroKey :
    ∃ s cipher, KeySettings.load zeroKeyEnv = .ok s ∧ fromSettings s = .ok cipher ∧
      cipher.current.1 = List.replicate 32 0 ∧ cipher.prev = none := by
  have hload : (∃ key, zeroKeyEnv.mailEncryptionKey = some key ∧ IsKeyText key) ∧
      ∀ prev ∈ zeroKeyEnv.mailEncryptionKeyPrev, prev = [] ∨ IsKeyText prev := by
    refine ⟨⟨_, rfl, List.replicate 43 'A', rfl, by decide, fun c hc => ?_⟩, fun prev hprev => ?_⟩
    · rw [List.eq_of_mem_replicate hc]
      decide
    · exact Or.inl (Option.some.inj hprev).symm
  obtain ⟨s, hs⟩ := (fromSettings_of_load zeroKeyEnv).1.mpr hload
  obtain ⟨cipher, hcipher, hcurrent, hprev⟩ := (fromSettings_of_load zeroKeyEnv).2 s hs
  have hbytes : zeroKeyEnv.mailEncryptionKey.bind (Base64.decode true) =
      some (List.replicate 32 0) := by decide +kernel
  refine ⟨s, cipher, hs, hcipher, Option.some.inj (hcurrent.symm.trans hbytes), ?_⟩
  exact Option.map_eq_none_iff.mp hprev.symm

/-- **An operator's keys are the cipher's**: an environment with two keys in Base64 loads, and its
cipher has these keys.

**Proof sketch.** The strict decoder reads back what was encoded, so that both texts are key texts
and the environment loads. The lenient decoder reads the same bytes, which have the length of a
key. -/
theorem fromSettings_encoded {current prev : MasterKey} (hcurrent : ∀ b ∈ current.1, b < 0x100)
    (hprev : ∀ b ∈ prev.1, b < 0x100) :
    ∃ s, KeySettings.load ⟨some (Base64.encode .standard current.1),
        some (Base64.encode .standard prev.1)⟩ = .ok s ∧
      fromSettings s = .ok ⟨current, some prev⟩ := by
  have hread : ∀ key : MasterKey, (∀ b ∈ key.1, b < 0x100) →
      Base64.decode true (Base64.encode .standard key.1) = some key.1 :=
    fun _ h => Base64.decode_encode true h
  have htext : ∀ key : MasterKey, (∀ b ∈ key.1, b < 0x100) →
      IsKeyText (Base64.encode .standard key.1) :=
    fun key h => isKeyText_iff.mpr ⟨key.1, hread key h, key.2⟩
  refine ⟨⟨Base64.encode .standard current.1, some (Base64.encode .standard prev.1)⟩,
    KeySettings.load_eq_ok_iff.mpr ⟨⟨rfl, htext current hcurrent⟩, ?_, fun v hv => ?_⟩, ?_⟩
  · simp [Option.filter, (htext prev hprev).ne_nil]
  · obtain rfl := Option.some.inj hv
    exact Or.inr (htext prev hprev)
  · obtain ⟨cipher, hcipher, hc, hp⟩ := @exists_fromSettings
      ⟨Base64.encode .standard current.1, some (Base64.encode .standard prev.1)⟩
      (htext current hcurrent) fun v hv => Option.some.inj hv ▸ htext prev hprev
    rw [hread current hcurrent, Option.some.injEq] at hc
    rw [Option.bind_some, hread prev hprev] at hp
    obtain ⟨prev', hprev', hval⟩ := Option.map_eq_some_iff.mp hp.symm
    have hcurrentEq : cipher.current = current := Subtype.ext hc.symm
    have hprevEq : cipher.prev = some prev := by rw [hprev', Subtype.ext hval]
    rw [hcipher, ← hcurrentEq, ← hprevEq]

end MailPasswordCipher

end MailAggregator
