import MailAggregator.Lib.Aead
import MailAggregator.Shared.Crypto

set_option relaxedAutoImplicit false
set_option autoImplicit false

/-!
# The encryption of account secrets

A stored secret is a version byte, a nonce and a ciphertext. The version byte says which of the
two configured keys the ciphertext was made with, and the account's id is the associated data. The
cipher underneath is taken as ideal.

## Main definitions

* `MailAggregator.MailPasswordCipher` — the two keys.
* `MailAggregator.MailPasswordCipher.encrypt`, `MailAggregator.MailPasswordCipher.decrypt`.

## Main results

* `MailAggregator.MailPasswordCipher.decrypt_sealed` — when a well-formed blob opens.
* `MailAggregator.MailPasswordCipher.decrypt_encrypt` — what is encrypted now is read back as long
  as the current key stays.
* `MailAggregator.MailPasswordCipher.decrypt_encrypt_of_ne` — and is not once it is another.
* `MailAggregator.MailPasswordCipher.decrypt_eq_decryptMailPassword` — with one key, the bytes
  behave like the ideal blobs.
-/

namespace MailAggregator

open PyText Utf8 Lib

/-- `VERSION_CURRENT`. -/
def versionCurrent : Byte := 0x01

/-- `VERSION_PREV`. -/
def versionPrev : Byte := 0x00

/-- `IV_LEN`. -/
def ivLen : ℕ := 12

/-- `HEADER_LEN`. -/
def headerLen : ℕ := 1 + ivLen

/-- `AAD_PREFIX`. -/
def aadPrefix : List Byte := encode "mail_account_password|".toList

/-- A key of 32 bytes. -/
abbrev MasterKey := { key : List Byte // key.length = 32 }

/-- A nonce, as `os.urandom(IV_LEN)` draws it. -/
abbrev Iv := { iv : List Byte // iv.length = ivLen }

/-- How encryption and decryption fail. -/
inductive CryptoError where
  | valueError
  | invalidTag
  | unicodeDecodeError
  deriving DecidableEq, Repr

/-- The associated data of an account id. -/
def aadBytes (mailAccountId : ℕ) : List Byte := aadPrefix ++ encode (ofNat mailAccountId)

/-- `_aad_for`. -/
def aadFor (mailAccountId : ℕ) : Except CryptoError (List Byte) :=
  if mailAccountId = 0 then .error .valueError else .ok (aadBytes mailAccountId)

theorem aadFor_of_pos {mailAccountId : ℕ} (h : 0 < mailAccountId) :
    aadFor mailAccountId = .ok (aadBytes mailAccountId) :=
  if_neg h.ne'

/-- The associated data tell the accounts apart. -/
theorem aadBytes_injective : Function.Injective aadBytes := by
  intro m n h
  have hdigits := congrArg decode (List.append_cancel_left h)
  rw [decode_encode, decode_encode] at hdigits
  exact ofNat_injective (Option.some.inj hdigits)

/-- `MailPasswordCipher`: the current key, and the previous one during a rotation. -/
structure MailPasswordCipher where
  current : MasterKey
  prev : Option MasterKey
  deriving DecidableEq

namespace MailPasswordCipher

variable (A : Aead MasterKey)

/-- A blob: the version byte, the nonce and the ciphertext. -/
def sealed (version : Byte) (key : MasterKey) (iv : Iv) (plaintext : Text) (mailAccountId : ℕ) :
    List Byte :=
  version :: iv.1 ++ A.encrypt key iv.1 (encode plaintext) (aadBytes mailAccountId)

/-- `encrypt`, with the nonce that is drawn. -/
def encrypt (cipher : MailPasswordCipher) (iv : Iv) (plaintext : Text) (mailAccountId : ℕ) :
    Except CryptoError (List Byte) :=
  match aadFor mailAccountId with
  | .error e => .error e
  | .ok aad =>
    .ok (versionCurrent :: iv.1 ++ A.encrypt cipher.current iv.1 (encode plaintext) aad)

/-- The key that a version byte selects. -/
def keyFor (cipher : MailPasswordCipher) (version : Byte) : Option MasterKey :=
  if version = versionCurrent then some cipher.current
  else if version = versionPrev then cipher.prev
  else none

/-- `_decrypt_with_aad`. -/
def decryptWithAad (cipher : MailPasswordCipher) (blob aad : List Byte) :
    Except CryptoError Text :=
  if blob.length < headerLen + 16 then .error .invalidTag
  else
    match blob with
    | [] => .error .invalidTag
    | version :: rest =>
      match cipher.keyFor version with
      | none => .error .invalidTag
      | some key =>
        match A.decrypt key (rest.take ivLen) (rest.drop ivLen) aad with
        | none => .error .invalidTag
        | some plain =>
          match decode plain with
          | none => .error .unicodeDecodeError
          | some text => .ok text

/-- `decrypt`. -/
def decrypt (cipher : MailPasswordCipher) (blob : List Byte) (mailAccountId : ℕ) :
    Except CryptoError Text :=
  match aadFor mailAccountId with
  | .error e => .error e
  | .ok aad => cipher.decryptWithAad A blob aad

variable {A}

/-- Encryption tags every blob with the current version. -/
theorem encrypt_eq (cipher : MailPasswordCipher) (iv : Iv) (plaintext : Text) {mailAccountId : ℕ}
    (hpos : 0 < mailAccountId) :
    cipher.encrypt A iv plaintext mailAccountId =
      .ok (sealed A versionCurrent cipher.current iv plaintext mailAccountId) := by
  rw [encrypt, aadFor_of_pos hpos]
  rfl

theorem keyFor_versionCurrent (cipher : MailPasswordCipher) :
    cipher.keyFor versionCurrent = some cipher.current := if_pos rfl

theorem keyFor_versionPrev (cipher : MailPasswordCipher) :
    cipher.keyFor versionPrev = cipher.prev := by
  rw [keyFor, if_neg (by decide), if_pos rfl]

/-- A blob is never too short to be looked at. -/
theorem le_length_sealed (version : Byte) (key : MasterKey) (iv : Iv) (plaintext : Text)
    (mailAccountId : ℕ) :
    headerLen + 16 ≤ (sealed A version key iv plaintext mailAccountId).length := by
  have htag := A.tag_le key iv.1 (encode plaintext) (aadBytes mailAccountId)
  have hiv := iv.2
  simp only [sealed, headerLen, List.cons_append, List.length_cons, List.length_append]
  omega

/-- **When a blob opens**: the key that its version byte selects is the one it was made with, and
it is opened for the account it was made for.

**Proof sketch.** The blob is split where it was put together: its version byte, its nonce, its
ciphertext. The version byte selects a key. If that is the key and the account number is the one,
the cipher opens what it has sealed; with another key or another number it does not. -/
theorem decrypt_sealed (cipher : MailPasswordCipher) (version : Byte) (key : MasterKey) (iv : Iv)
    (plaintext : Text) (mailAccountId : ℕ) {mailAccountId' : ℕ} (hpos : 0 < mailAccountId') :
    cipher.decrypt A (sealed A version key iv plaintext mailAccountId) mailAccountId' =
      if cipher.keyFor version = some key ∧ mailAccountId' = mailAccountId then .ok plaintext
      else .error .invalidTag := by
  have hlength := le_length_sealed (A := A) version key iv plaintext mailAccountId
  rw [decrypt, aadFor_of_pos hpos]
  simp only
  rw [decryptWithAad.eq_def, if_neg (Nat.not_lt.mpr hlength), sealed, List.cons_append]
  simp only
  rw [List.take_left' iv.2, List.drop_left' iv.2]
  cases hkey : cipher.keyFor version with
  | none =>
    simp only
    rw [if_neg fun h => by cases h.1]
  | some key' =>
    simp only
    by_cases hsame : key' = key ∧ mailAccountId' = mailAccountId
    · obtain ⟨rfl, rfl⟩ := hsame
      simp only [A.decrypt_encrypt, decode_encode, and_self, if_true]
    · have hnone : A.decrypt key' iv.1 (A.encrypt key iv.1 (encode plaintext)
          (aadBytes mailAccountId)) (aadBytes mailAccountId') = none := by
        rw [not_and_or] at hsame
        rcases hsame with hne | hne
        · exact A.decrypt_of_key_ne hne _ _ _ _ _
        · exact A.decrypt_of_aad_ne (aadBytes_injective.ne hne) _ _ _ _ _
      rw [hnone, if_neg fun h => hsame ⟨Option.some.inj h.1, h.2⟩]

/-- A blob of the current version opens for its account exactly under the key it was made with. -/
theorem decrypt_current (cipher : MailPasswordCipher) (key : MasterKey) (iv : Iv)
    (plaintext : Text) {mailAccountId : ℕ} (hpos : 0 < mailAccountId) :
    cipher.decrypt A (sealed A versionCurrent key iv plaintext mailAccountId) mailAccountId =
      if cipher.current = key then .ok plaintext else .error .invalidTag := by
  rw [decrypt_sealed _ _ _ _ _ _ hpos, keyFor_versionCurrent]
  simp only [Option.some.injEq, and_true]

/-- What is encrypted under the current key is read back, whatever the previous key. -/
theorem decrypt_encrypt (cipher cipher' : MailPasswordCipher)
    (hcurrent : cipher'.current = cipher.current) (iv : Iv) (plaintext : Text) {mailAccountId : ℕ}
    {blob : List Byte} (hblob : cipher.encrypt A iv plaintext mailAccountId = .ok blob) :
    cipher'.decrypt A blob mailAccountId = .ok plaintext := by
  rcases Nat.eq_zero_or_pos mailAccountId with rfl | hpos
  · cases hblob
  · rw [encrypt_eq _ _ _ hpos] at hblob
    obtain rfl := Except.ok.inj hblob
    rw [decrypt_current _ _ _ _ hpos, if_pos hcurrent]

/-- **Once the current key is another, nothing that was encrypted before opens**, not even with
the old key configured as the previous one: the version byte still says "current". -/
theorem decrypt_encrypt_of_ne (cipher cipher' : MailPasswordCipher)
    (hcurrent : cipher'.current ≠ cipher.current) (iv : Iv) (plaintext : Text) {mailAccountId : ℕ}
    {blob : List Byte} (hblob : cipher.encrypt A iv plaintext mailAccountId = .ok blob) :
    cipher'.decrypt A blob mailAccountId = .error .invalidTag := by
  rcases Nat.eq_zero_or_pos mailAccountId with rfl | hpos
  · cases hblob
  · rw [encrypt_eq _ _ _ hpos] at hblob
    obtain rfl := Except.ok.inj hblob
    rw [decrypt_current _ _ _ _ hpos, if_neg hcurrent]

/-- The previous key is for blobs of the previous version, which nothing writes: a blob whose
version byte is set back opens. -/
theorem decrypt_versionPrev (cipher : MailPasswordCipher) {key : MasterKey}
    (hprev : cipher.prev = some key) (iv : Iv) (plaintext : Text) {mailAccountId : ℕ}
    (hpos : 0 < mailAccountId) :
    cipher.decrypt A (sealed A versionPrev key iv plaintext mailAccountId) mailAccountId =
      .ok plaintext := by
  rw [decrypt_sealed _ _ _ _ _ _ hpos, keyFor_versionPrev, if_pos ⟨hprev, rfl⟩]

/-- **The ideal blobs are what one key gives**: under a key that stays, the bytes open exactly when
the ideal blob does, and to the same text. -/
theorem decrypt_eq_decryptMailPassword (cipher cipher' : MailPasswordCipher)
    (hcurrent : cipher'.current = cipher.current) (iv : Iv) (plaintext : Text)
    {mailAccountId mailAccountId' : ℕ} (hpos' : 0 < mailAccountId') {blob : List Byte}
    (hblob : cipher.encrypt A iv plaintext mailAccountId = .ok blob) :
    (cipher'.decrypt A blob mailAccountId').toOption =
      decryptMailPassword (encryptMailPassword plaintext mailAccountId) mailAccountId' := by
  rcases Nat.eq_zero_or_pos mailAccountId with rfl | hpos
  · cases hblob
  · rw [encrypt_eq _ _ _ hpos] at hblob
    obtain rfl := Except.ok.inj hblob
    rw [decrypt_sealed _ _ _ _ _ _ hpos', keyFor_versionCurrent, hcurrent, decryptMailPassword,
      encryptMailPassword]
    by_cases hid : mailAccountId' = mailAccountId
    · subst hid
      simp [Except.toOption]
    · rw [if_neg fun h => hid h.2, if_neg fun h => hid h.symm]
      rfl

end MailPasswordCipher

end MailAggregator
