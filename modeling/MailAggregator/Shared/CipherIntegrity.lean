import MailAggregator.Shared.KeyRotation

set_option relaxedAutoImplicit false
set_option autoImplicit false

/-!
# What a stored secret cannot be replaced by

Anybody with access to the database can write any byte string into a row, but can make no
ciphertext. Of all byte strings, a row opens the blobs that were encrypted for its account under the
current key; and those that were encrypted for it under the previous one, with the version byte set
back, which is the form in which a rotation reads them.

## Main definitions

* `MailAggregator.MailPasswordCipher.EncryptCall` — a call of `encrypt`.
* `MailAggregator.MailPasswordCipher.decryptFrom` — `decrypt`, over any way to open a ciphertext.
* `MailAggregator.MailPasswordCipher.decryptIdeal` — `decrypt` over an ideal AEAD.
* `MailAggregator.MailPasswordCipher.BindsSecrets` — what the encryption promises.

## Main results

* `MailAggregator.MailPasswordCipher.decrypt_eq_decryptFrom` — the two agree.
* `MailAggregator.MailPasswordCipher.decrypt_of_decryptIdeal` — what the ideal decryption reads, the
  decryption reads.
* `MailAggregator.MailPasswordCipher.decryptIdeal_eq_ok_iff` — which byte strings open.
* `MailAggregator.MailPasswordCipher.bindsSecrets` — the encryption keeps what it promises.
-/

namespace MailAggregator

open PyText Utf8 Lib

namespace MailPasswordCipher

variable (A : Aead MasterKey)

/-! ## The calls -/

/-- A call of `encrypt` for an account: the keys as they were then, the nonce that was drawn, and
the plaintext. -/
structure EncryptCall where
  cipher : MailPasswordCipher
  iv : Iv
  plaintext : Text
  mailAccountId : ℕ
  pos : 0 < mailAccountId := by decide

namespace EncryptCall

/-- The key of a call. -/
def key (call : EncryptCall) : MasterKey := call.cipher.current

/-- The encryption that a call makes. -/
def toRecord (call : EncryptCall) : Aead.Record MasterKey where
  key := call.key
  nonce := call.iv.1
  plaintext := encode call.plaintext
  aad := aadBytes call.mailAccountId

/-- The blob that a call returns. -/
def blob (call : EncryptCall) : List Byte :=
  sealed A versionCurrent call.key call.iv call.plaintext call.mailAccountId

/-- That blob with its version byte set back. -/
def setBack (call : EncryptCall) : List Byte :=
  sealed A versionPrev call.key call.iv call.plaintext call.mailAccountId

variable {A}

theorem encrypt_eq_blob (call : EncryptCall) :
    call.cipher.encrypt A call.iv call.plaintext call.mailAccountId = .ok (call.blob A) :=
  encrypt_eq call.cipher call.iv call.plaintext call.pos

end EncryptCall

/-! ## Decryption -/

/-- `_decrypt_with_aad`, over any way to open a ciphertext. -/
def decryptBytes (openBytes : MasterKey → List Byte → List Byte → List Byte → Option (List Byte))
    (cipher : MailPasswordCipher) (blob aad : List Byte) : Except CryptoError Text :=
  if blob.length < headerLen + 16 then .error .invalidTag
  else
    match blob with
    | [] => .error .invalidTag
    | version :: rest =>
      match cipher.keyFor version with
      | none => .error .invalidTag
      | some key =>
        match openBytes key (rest.take ivLen) (rest.drop ivLen) aad with
        | none => .error .invalidTag
        | some plain =>
          match decode plain with
          | none => .error .unicodeDecodeError
          | some text => .ok text

/-- `decrypt`, over any way to open a ciphertext. -/
def decryptFrom (openBytes : MasterKey → List Byte → List Byte → List Byte → Option (List Byte))
    (cipher : MailPasswordCipher) (blob : List Byte) (mailAccountId : ℕ) :
    Except CryptoError Text :=
  match aadFor mailAccountId with
  | .error e => .error e
  | .ok aad => decryptBytes openBytes cipher blob aad

/-- `decrypt` over an ideal AEAD: what opens are the ciphertexts of the calls. -/
def decryptIdeal (calls : List EncryptCall) (cipher : MailPasswordCipher) (blob : List Byte)
    (mailAccountId : ℕ) : Except CryptoError Text :=
  decryptFrom (A.openRecorded (calls.map EncryptCall.toRecord)) cipher blob mailAccountId

/-- The two ways to write the decryption agree. -/
theorem decrypt_eq_decryptFrom (cipher : MailPasswordCipher) (blob : List Byte)
    (mailAccountId : ℕ) :
    cipher.decrypt A blob mailAccountId = decryptFrom A.decrypt cipher blob mailAccountId := by
  rw [decrypt.eq_def, decryptFrom.eq_def]
  cases aadFor mailAccountId with
  | error e => rfl
  | ok aad => rfl

/-- What decrypts with one way to open a ciphertext decrypts with every way that opens more.

**Proof sketch.** The two runs take the same branches up to the opening of the ciphertext: the
length, the version byte and the key that it selects do not depend on how a ciphertext is opened. -/
theorem decryptBytes_mono {f g : MasterKey → List Byte → List Byte → List Byte → Option (List Byte)}
    (hfg : ∀ key nonce ciphertext aad plain, f key nonce ciphertext aad = some plain →
      g key nonce ciphertext aad = some plain)
    {cipher : MailPasswordCipher} {blob aad : List Byte} {text : Text}
    (h : decryptBytes f cipher blob aad = .ok text) :
    decryptBytes g cipher blob aad = .ok text := by
  unfold decryptBytes at h ⊢
  split_ifs at h ⊢
  cases blob with
  | nil => cases h
  | cons version rest =>
    simp only at h ⊢
    cases hkey : cipher.keyFor version with
    | none =>
      rw [hkey] at h
      cases h
    | some key =>
      rw [hkey] at h
      simp only at h ⊢
      cases hopen : f key (rest.take ivLen) (rest.drop ivLen) aad with
      | none =>
        rw [hopen] at h
        cases h
      | some plain =>
        rw [hopen] at h
        rw [hfg _ _ _ _ _ hopen]
        exact h

/-- What the ideal decryption reads, the decryption reads. -/
theorem decrypt_of_decryptIdeal {calls : List EncryptCall} {cipher : MailPasswordCipher}
    {blob : List Byte} {mailAccountId : ℕ} {text : Text}
    (h : decryptIdeal A calls cipher blob mailAccountId = .ok text) :
    cipher.decrypt A blob mailAccountId = .ok text := by
  rw [decrypt_eq_decryptFrom]
  unfold decryptIdeal decryptFrom at h
  unfold decryptFrom
  cases haad : aadFor mailAccountId with
  | error e =>
    rw [haad] at h
    cases h
  | ok aad =>
    rw [haad] at h
    exact decryptBytes_mono (fun _ _ _ _ _ => A.decrypt_of_openRecorded) h

/-! ## Which byte strings open -/

variable {A} {calls : List EncryptCall} {cipher : MailPasswordCipher} {blob : List Byte}
  {mailAccountId : ℕ} {call : EncryptCall}

/-- A call opens a byte string: the byte string is what the call has made, behind a version byte
that selects the key of the call. -/
structure Opens (A : Aead MasterKey) (cipher : MailPasswordCipher) (blob : List Byte)
    (mailAccountId : ℕ) (call : EncryptCall) : Prop where
  account : call.mailAccountId = mailAccountId
  bytes : ∃ version, cipher.keyFor version = some call.key ∧
    blob = sealed A version call.key call.iv call.plaintext call.mailAccountId

/-- **A blob tells what it was made of**: an ideal ciphertext is authentic for its key, its nonce
and its associated data. -/
theorem sealed_injective {version version' : Byte} {key key' : MasterKey} {iv iv' : Iv}
    {plaintext plaintext' : Text} {mailAccountId mailAccountId' : ℕ}
    (h : sealed A version key iv plaintext mailAccountId =
      sealed A version' key' iv' plaintext' mailAccountId') :
    version = version' ∧ key = key' ∧ iv = iv' ∧ plaintext = plaintext' ∧
      mailAccountId = mailAccountId' := by
  rw [sealed, sealed, List.cons_append, List.cons_append, List.cons_eq_cons] at h
  obtain ⟨hversion, hbytes⟩ := h
  obtain ⟨hiv, hciphertext⟩ := List.append_inj hbytes (iv.2.trans iv'.2.symm)
  have hopen := A.decrypt_encrypt key iv.1 (encode plaintext) (aadBytes mailAccountId)
  rw [hciphertext, A.decrypt_eq_some_iff] at hopen
  obtain ⟨hkey, -, haad, hplain⟩ := hopen
  have htext := congrArg decode hplain
  rw [decode_encode, decode_encode] at htext
  exact ⟨hversion, hkey, Subtype.ext hiv, Option.some.inj htext, aadBytes_injective haad⟩

theorem decryptFrom_of_pos
    (openBytes : MasterKey → List Byte → List Byte → List Byte → Option (List Byte))
    (hpos : 0 < mailAccountId) :
    decryptFrom openBytes cipher blob mailAccountId =
      decryptBytes openBytes cipher blob (aadBytes mailAccountId) := by
  rw [decryptFrom.eq_def, aadFor_of_pos hpos]

theorem decryptIdeal_of_opens (hmem : call ∈ calls) (h : Opens A cipher blob mailAccountId call) :
    decryptIdeal A calls cipher blob mailAccountId = .ok call.plaintext := by
  obtain ⟨rfl, version, hkey, rfl⟩ := h
  have hlength := le_length_sealed (A := A) version call.key call.iv call.plaintext
    call.mailAccountId
  have hopen : A.openRecorded (calls.map EncryptCall.toRecord) call.key call.iv.1
      (A.encrypt call.key call.iv.1 (encode call.plaintext) (aadBytes call.mailAccountId))
      (aadBytes call.mailAccountId) = some (encode call.plaintext) :=
    A.openRecorded_eq_some_iff.mpr
      ⟨call.toRecord, List.mem_map_of_mem hmem, rfl, rfl, rfl, rfl, rfl⟩
  rw [decryptIdeal, decryptFrom_of_pos _ call.pos, decryptBytes.eq_def,
    if_neg (Nat.not_lt.mpr hlength), sealed, List.cons_append]
  simp only [hkey, List.take_left' call.iv.2, List.drop_left' call.iv.2, hopen, decode_encode]

/-- A byte string that no call opens is rejected.

**Proof sketch.** If the ciphertext opens it is that of a call, with the same key, nonce and
associated data; the associated data are those of one account only, so that the byte string is what
the call has made, behind the version byte that it has. -/
theorem decryptIdeal_of_not_opens (hpos : 0 < mailAccountId)
    (h : ∀ call ∈ calls, ¬ Opens A cipher blob mailAccountId call) :
    decryptIdeal A calls cipher blob mailAccountId = .error .invalidTag := by
  rw [decryptIdeal, decryptFrom_of_pos _ hpos, decryptBytes.eq_def]
  split_ifs with hshort
  · rfl
  cases blob with
  | nil => rfl
  | cons version rest =>
    simp only
    cases hkey : cipher.keyFor version with
    | none => rfl
    | some key =>
      simp only
      cases hopen : A.openRecorded (calls.map EncryptCall.toRecord) key (rest.take ivLen)
          (rest.drop ivLen) (aadBytes mailAccountId) with
      | none => rfl
      | some plain =>
        obtain ⟨r, hr, hrkey, hnonce, haad, hciphertext, -⟩ := A.openRecorded_eq_some_iff.mp hopen
        obtain ⟨call, hcall, rfl⟩ := List.mem_map.mp hr
        have haccount : call.mailAccountId = mailAccountId := aadBytes_injective haad
        refine absurd ⟨haccount, version, hkey.trans (congrArg some hrkey.symm), ?_⟩ (h call hcall)
        rw [sealed, List.cons_append]
        refine congrArg (version :: ·) ?_
        calc rest = rest.take ivLen ++ rest.drop ivLen := (List.take_append_drop _ _).symm
          _ = _ := congrArg₂ (· ++ ·) hnonce.symm hciphertext.symm

/-- **Which byte strings open**: those that a call for the account opens, to its plaintext. -/
theorem decryptIdeal_eq_ok_iff (hpos : 0 < mailAccountId) (plaintext : Text) :
    decryptIdeal A calls cipher blob mailAccountId = .ok plaintext ↔
      ∃ call ∈ calls, Opens A cipher blob mailAccountId call ∧ call.plaintext = plaintext := by
  constructor
  · intro hok
    by_contra hnone
    have hrejected : decryptIdeal A calls cipher blob mailAccountId = .error .invalidTag :=
      decryptIdeal_of_not_opens hpos fun call hmem hopens => by
        have hopened := decryptIdeal_of_opens hmem hopens
        rw [hok] at hopened
        exact hnone ⟨call, hmem, hopens, (Except.ok.inj hopened).symm⟩
    rw [hok] at hrejected
    cases hrejected
  · rintro ⟨call, hmem, hopens, rfl⟩
    exact decryptIdeal_of_opens hmem hopens

/-- A call opens its blob under the current key, and its blob with the version byte set back under
the previous one. -/
theorem opens_iff :
    Opens A cipher blob mailAccountId call ↔
      call.mailAccountId = mailAccountId ∧
        (cipher.current = call.key ∧ blob = call.blob A ∨
          cipher.prev = some call.key ∧ blob = call.setBack A) := by
  constructor
  · rintro ⟨haccount, version, hkey, hblob⟩
    refine ⟨haccount, ?_⟩
    unfold keyFor at hkey
    split_ifs at hkey with hcurrent hprev
    · subst hcurrent
      exact Or.inl ⟨Option.some.inj hkey, hblob⟩
    · subst hprev
      exact Or.inr ⟨hkey, hblob⟩
  · rintro ⟨haccount, ⟨hkey, hblob⟩ | ⟨hkey, hblob⟩⟩
    · exact ⟨haccount, versionCurrent, (keyFor_versionCurrent cipher).trans (congrArg some hkey),
        hblob⟩
    · exact ⟨haccount, versionPrev, (keyFor_versionPrev cipher).trans hkey, hblob⟩

/-! ## What the encryption promises -/

/-- **Secrets are bound to their account**, under the keys of a cipher and after some calls. -/
structure BindsSecrets (A : Aead MasterKey) (calls : List EncryptCall)
    (cipher : MailPasswordCipher) : Prop where
  /-- What was encrypted under the current key is read back. -/
  roundTrip : ∀ call ∈ calls, cipher.current = call.key →
    decryptIdeal A calls cipher (call.blob A) call.mailAccountId = .ok call.plaintext
  /-- A blob does not open for another account. -/
  foreign : ∀ call ∈ calls, ∀ mailAccountId, 0 < mailAccountId →
    mailAccountId ≠ call.mailAccountId →
      decryptIdeal A calls cipher (call.blob A) mailAccountId = .error .invalidTag
  /-- A byte string that was not produced for the account does not open for it, unless it is a blob
  of the previous key with its version byte set back. -/
  unmade : ∀ blob mailAccountId, 0 < mailAccountId →
    (∀ call ∈ calls, call.mailAccountId = mailAccountId → call.blob A ≠ blob) →
    (∀ call ∈ calls, call.mailAccountId = mailAccountId → cipher.prev = some call.key →
      call.setBack A ≠ blob) →
      decryptIdeal A calls cipher blob mailAccountId = .error .invalidTag
  /-- Such a blob is read as what it was. -/
  rotated : ∀ call ∈ calls, cipher.prev = some call.key →
    decryptIdeal A calls cipher (call.setBack A) call.mailAccountId = .ok call.plaintext
  /-- A blob of the current key does not open once its version byte is another. -/
  versionChanged : ∀ call ∈ calls, cipher.current = call.key → ∀ version mailAccountId,
    0 < mailAccountId → version ≠ versionCurrent →
      decryptIdeal A calls cipher (version :: (call.blob A).tail) mailAccountId =
        .error .invalidTag

/-- **The encryption keeps what it promises**, if the two keys are distinct.

**Proof sketch.** A blob that opens has been authenticated with the key, the nonce and the account
number that it is opened with. The cipher is ideal, so that a blob that was not made so does not
open, and one that was made so opens to its own plaintext. -/
theorem bindsSecrets (A : Aead MasterKey) (calls : List EncryptCall) (cipher : MailPasswordCipher)
    (hdistinct : cipher.prev ≠ some cipher.current) : BindsSecrets A calls cipher where
  roundTrip call hmem hkey :=
    decryptIdeal_of_opens hmem (opens_iff.mpr ⟨rfl, Or.inl ⟨hkey, rfl⟩⟩)
  foreign call _ mailAccountId hpos hne := by
    refine decryptIdeal_of_not_opens hpos fun call' _ hopens => ?_
    obtain ⟨haccount, version, -, hblob⟩ := hopens
    obtain ⟨-, -, -, -, hid⟩ := sealed_injective hblob
    exact hne (haccount.symm.trans hid.symm)
  unmade blob mailAccountId hpos hblob hsetBack := by
    refine decryptIdeal_of_not_opens hpos fun call hmem hopens => ?_
    obtain ⟨haccount, ⟨-, hmade⟩ | ⟨hkey, hmade⟩⟩ := opens_iff.mp hopens
    · exact hblob call hmem haccount hmade.symm
    · exact hsetBack call hmem haccount hkey hmade.symm
  rotated call hmem hkey :=
    decryptIdeal_of_opens hmem (opens_iff.mpr ⟨rfl, Or.inr ⟨hkey, rfl⟩⟩)
  versionChanged call _ hkey version mailAccountId hpos hversion := by
    refine decryptIdeal_of_not_opens hpos fun call' _ hopens => ?_
    obtain ⟨-, version', hselected, hblob⟩ := hopens
    have hsealed : sealed A version call.key call.iv call.plaintext call.mailAccountId =
        sealed A version' call'.key call'.iv call'.plaintext call'.mailAccountId := hblob
    obtain ⟨rfl, hsame, -⟩ := sealed_injective hsealed
    -- the version byte is another, and so is the key that it selects
    rw [keyFor, if_neg hversion] at hselected
    split_ifs at hselected with hprev
    exact hdistinct (hselected.trans (congrArg some (hsame.symm.trans hkey.symm)))

/-! ## A rotation -/

open KeyRotation

/-- The keys during a rotation. -/
def rotatedCipher : MailPasswordCipher := ⟨uniformKey 1, some (uniformKey 0)⟩

/-- A call before the rotation, and one after it. -/
def callUnder (key : MasterKey) : EncryptCall where
  cipher := ⟨key, none⟩
  iv := zeroIv
  plaintext := "p".toList
  mailAccountId := 1

theorem rotatedCipher_distinct : rotatedCipher.prev ≠ some rotatedCipher.current := by decide

/-- What is encrypted after the rotation is read back. -/
theorem roundTrip_rotated :
    decryptIdeal framedAead [callUnder (uniformKey 0), callUnder (uniformKey 1)] rotatedCipher
      ((callUnder (uniformKey 1)).blob framedAead) 1 = .ok "p".toList :=
  (bindsSecrets framedAead [callUnder (uniformKey 0), callUnder (uniformKey 1)] rotatedCipher
    rotatedCipher_distinct).roundTrip (callUnder (uniformKey 1))
      (List.mem_cons_of_mem _ List.mem_cons_self) rfl

/-- A blob from before the rotation opens once its version byte is set back, though no call has
produced it. -/
theorem setBack_opens :
    ¬ ∀ (A : Aead MasterKey) (calls : List EncryptCall) (cipher : MailPasswordCipher)
      (blob : List Byte) (mailAccountId : ℕ), cipher.prev ≠ some cipher.current →
      0 < mailAccountId →
      (∀ call ∈ calls, call.mailAccountId = mailAccountId → call.blob A ≠ blob) →
        decryptIdeal A calls cipher blob mailAccountId = .error .invalidTag := by
  intro h
  have hrejected := h framedAead [callUnder (uniformKey 0)] rotatedCipher
    ((callUnder (uniformKey 0)).setBack framedAead) 1 rotatedCipher_distinct (by decide)
    fun call _ _ hblob => absurd (sealed_injective hblob).1 (by decide)
  have hopens : Opens framedAead rotatedCipher ((callUnder (uniformKey 0)).setBack framedAead) 1
      (callUnder (uniformKey 0)) := opens_iff.mpr ⟨rfl, Or.inr ⟨rfl, rfl⟩⟩
  rw [decryptIdeal_of_opens (List.mem_singleton.mpr rfl) hopens] at hrejected
  cases hrejected

end MailPasswordCipher

end MailAggregator
