import MailAggregator.Lib.Utf8

set_option relaxedAutoImplicit false
set_option autoImplicit false

/-!
# Authenticated encryption with associated data

An ideal cipher: a ciphertext opens to the plaintext it was made from, under the key, the nonce
and the associated data it was made with, and under no others.

## Main definitions

* `Lib.Aead` — an ideal cipher whose keys are of a given type.
* `Lib.Aead.openRecorded` — what opens if nobody can make a ciphertext but by encrypting.
* `Lib.Aead.framed` — the cipher that writes down what it was given: the laws are consistent.

## Main results

* `Lib.Aead.decrypt_eq_some_iff` — when a ciphertext opens.
* `Lib.Aead.openRecorded_eq_some_iff` — when a byte string opens that anybody may have made.
-/

namespace Lib

open Utf8

universe u

/-- An ideal cipher. Nonces, plaintexts, associated data and ciphertexts are byte strings. -/
structure Aead (Key : Type u) where
  encrypt (key : Key) (nonce plaintext aad : List Byte) : List Byte
  /-- `none` is a failed authentication. -/
  decrypt (key : Key) (nonce ciphertext aad : List Byte) : Option (List Byte)
  decrypt_encrypt (key : Key) (nonce plaintext aad : List Byte) :
    decrypt key nonce (encrypt key nonce plaintext aad) aad = some plaintext
  /-- A ciphertext holds a tag of 16 bytes. -/
  tag_le (key : Key) (nonce plaintext aad : List Byte) :
    16 ≤ (encrypt key nonce plaintext aad).length
  /-- A ciphertext is authentic for one key, one nonce and one associated data. -/
  authentic {key key' : Key} {nonce nonce' plaintext plaintext' aad aad' : List Byte} :
    decrypt key' nonce' (encrypt key nonce plaintext aad) aad' = some plaintext' →
      key' = key ∧ nonce' = nonce ∧ aad' = aad

namespace Aead

variable {Key : Type u} (A : Aead Key)

/-- **When a ciphertext opens**, and to what. -/
theorem decrypt_eq_some_iff {key key' : Key} {nonce nonce' plaintext plaintext' aad aad' :
    List Byte} :
    A.decrypt key' nonce' (A.encrypt key nonce plaintext aad) aad' = some plaintext' ↔
      key' = key ∧ nonce' = nonce ∧ aad' = aad ∧ plaintext' = plaintext := by
  constructor
  · intro h
    obtain ⟨rfl, rfl, rfl⟩ := A.authentic h
    rw [A.decrypt_encrypt] at h
    exact ⟨rfl, rfl, rfl, (Option.some.inj h).symm⟩
  · rintro ⟨rfl, rfl, rfl, rfl⟩
    exact A.decrypt_encrypt _ _ _ _

/-- Another key does not open a ciphertext. -/
theorem decrypt_of_key_ne {key key' : Key} (h : key' ≠ key)
    (nonce nonce' plaintext aad aad' : List Byte) :
    A.decrypt key' nonce' (A.encrypt key nonce plaintext aad) aad' = none := by
  rw [Option.eq_none_iff_forall_ne_some]
  intro plaintext' hopen
  exact h (A.decrypt_eq_some_iff.mp hopen).1

/-- Other associated data do not open a ciphertext. -/
theorem decrypt_of_aad_ne {aad aad' : List Byte} (h : aad' ≠ aad) (key key' : Key)
    (nonce nonce' plaintext : List Byte) :
    A.decrypt key' nonce' (A.encrypt key nonce plaintext aad) aad' = none := by
  rw [Option.eq_none_iff_forall_ne_some]
  intro plaintext' hopen
  exact h (A.decrypt_eq_some_iff.mp hopen).2.2.1

/-! ## What has been encrypted -/

/-- One encryption: its key, its nonce, what was encrypted and the associated data. -/
structure Record (Key : Type u) where
  key : Key
  nonce : List Byte
  plaintext : List Byte
  aad : List Byte

/-- The ciphertext of an encryption. -/
def Record.ciphertext (r : Record Key) : List Byte := A.encrypt r.key r.nonce r.plaintext r.aad

/-- **The ideal opening** of a byte string: nobody can make a ciphertext but by encrypting, so that
it opens if it is the ciphertext of one of the encryptions that were made. -/
def openRecorded [DecidableEq Key] (records : List (Record Key)) (key : Key)
    (nonce ciphertext aad : List Byte) : Option (List Byte) :=
  records.findSome? fun r =>
    if r.key = key ∧ r.nonce = nonce ∧ r.aad = aad ∧ r.ciphertext A = ciphertext then
      some r.plaintext
    else none

/-- **When a byte string opens**, and to what.

**Proof sketch.** The first record that matches is opened. Two records that match have the same key,
nonce, associated data and ciphertext, and a ciphertext determines its plaintext; so it does not
matter which of them is the first. -/
theorem openRecorded_eq_some_iff [DecidableEq Key] {records : List (Record Key)} {key : Key}
    {nonce ciphertext aad plaintext : List Byte} :
    A.openRecorded records key nonce ciphertext aad = some plaintext ↔
      ∃ r ∈ records, r.key = key ∧ r.nonce = nonce ∧ r.aad = aad ∧ r.ciphertext A = ciphertext ∧
        r.plaintext = plaintext := by
  constructor
  · intro h
    obtain ⟨r, hr, hsome⟩ := List.exists_of_findSome?_eq_some h
    split_ifs at hsome with hmatch
    obtain ⟨hkey, hnonce, haad, hciphertext⟩ := hmatch
    exact ⟨r, hr, hkey, hnonce, haad, hciphertext, Option.some.inj hsome⟩
  · rintro ⟨r, hr, rfl, rfl, rfl, rfl, rfl⟩
    cases hfound : A.openRecorded records r.key r.nonce (r.ciphertext A) r.aad with
    | none =>
      have hnone := List.findSome?_eq_none_iff.mp hfound r hr
      simp at hnone
    | some plaintext =>
      -- another encryption with the same ciphertext was of the same plaintext
      obtain ⟨r', -, hsome⟩ := List.exists_of_findSome?_eq_some hfound
      split_ifs at hsome with hmatch
      obtain ⟨hkey, hnonce, haad, hciphertext⟩ := hmatch
      rw [← Option.some.inj hsome]
      have hopen := A.decrypt_encrypt r.key r.nonce r.plaintext r.aad
      rw [← Record.ciphertext, ← hciphertext, Record.ciphertext, A.decrypt_eq_some_iff] at hopen
      rw [hopen.2.2.2]

/-- What opens is a ciphertext that opens. -/
theorem decrypt_of_openRecorded [DecidableEq Key] {records : List (Record Key)} {key : Key}
    {nonce ciphertext aad plaintext : List Byte}
    (h : A.openRecorded records key nonce ciphertext aad = some plaintext) :
    A.decrypt key nonce ciphertext aad = some plaintext := by
  obtain ⟨r, -, rfl, rfl, rfl, rfl, rfl⟩ := A.openRecorded_eq_some_iff.mp h
  exact A.decrypt_encrypt _ _ _ _

/-! ## A cipher that meets the laws -/

/-- A byte string after its length. -/
def frame (bytes : List Byte) : List Byte := bytes.length :: bytes

/-- What is read back after a framed byte string is what was written. -/
theorem frame_append_inj {xs ys ss ts : List Byte} (h : frame xs ++ ss = frame ys ++ ts) :
    xs = ys ∧ ss = ts := by
  rw [frame, frame, List.cons_append, List.cons_append, List.cons_eq_cons] at h
  exact List.append_inj h.2 h.1

/-- What the ciphertexts of a key, a nonce and associated data begin with. -/
def header (key nonce aad : List Byte) : List Byte :=
  List.replicate 16 0 ++ frame key ++ frame nonce ++ frame aad

theorem header_append_inj {key key' nonce nonce' aad aad' p p' : List Byte}
    (h : header key nonce aad ++ p = header key' nonce' aad' ++ p') :
    key = key' ∧ nonce = nonce' ∧ aad = aad' ∧ p = p' := by
  simp only [header, List.append_assoc] at h
  obtain ⟨hkey, h₁⟩ := frame_append_inj (List.append_cancel_left h)
  obtain ⟨hnonce, h₂⟩ := frame_append_inj h₁
  obtain ⟨haad, hp⟩ := frame_append_inj h₂
  exact ⟨hkey, hnonce, haad, hp⟩

/-- The cipher that writes the key, the nonce and the associated data in front of the plaintext. -/
def framed (bytes : Key → List Byte) (hbytes : Function.Injective bytes) : Aead Key where
  encrypt key nonce plaintext aad := header (bytes key) nonce aad ++ plaintext
  decrypt key nonce ciphertext aad :=
    if header (bytes key) nonce aad <+: ciphertext then
      some (ciphertext.drop (header (bytes key) nonce aad).length)
    else none
  decrypt_encrypt key nonce plaintext aad := by
    rw [if_pos (List.prefix_append _ _), List.drop_left]
  tag_le key nonce plaintext aad := by
    simp only [header, List.length_append, List.length_replicate]
    omega
  authentic := by
    intro key key' nonce nonce' plaintext plaintext' aad aad' h
    by_cases hprefix : header (bytes key') nonce' aad' <+: header (bytes key) nonce aad ++ plaintext
    · obtain ⟨rest, hrest⟩ := hprefix
      obtain ⟨hkey, hnonce, haad, -⟩ := header_append_inj hrest
      exact ⟨hbytes hkey, hnonce, haad⟩
    · rw [if_neg hprefix] at h
      cases h

end Aead

end Lib
