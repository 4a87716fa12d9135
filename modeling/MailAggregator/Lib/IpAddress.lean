import MailAggregator.Lib.PyText
import Mathlib.Data.BitVec
import Mathlib.Tactic.Linarith
import Mathlib.Tactic.Ring

set_option relaxedAutoImplicit false
set_option autoImplicit false

/-!
# IP addresses and networks

IPv4 and IPv6 addresses as bit vectors, their textual forms, and networks given by a prefix. A
network is the interval of the addresses from its first to its last.

## Main definitions

* `Lib.IpAddress` — an address of either version.
* `Lib.Network` — a network: an address and the length of its prefix.
* `Lib.ipAddress` — the address that a text denotes.
* `Lib.mapped` — the IPv4-mapped IPv6 address of an IPv4 address.

## Main results

* `Lib.Network.contains_iff` — membership in a network is membership in an interval.
* `Lib.parseIpv4_dottedDecimal` — every IPv4 address is denoted by its dotted decimal form.
* `Lib.ipAddress_mapped` — and its mapped address by that form after `::ffff:`.
-/

namespace Lib

open PyText

/-- An address. -/
inductive IpAddress where
  | v4 (address : BitVec 32)
  | v6 (address : BitVec 128)
  deriving DecidableEq

/-- The IPv4 address of four octets. -/
def ipv4 (a b c d : ℕ) : BitVec 32 := BitVec.ofNat 32 (((a * 256 + b) * 256 + c) * 256 + d)

/-- The IPv4-mapped IPv6 address of an IPv4 address. -/
def mapped (address : BitVec 32) : BitVec 128 := BitVec.ofNat 128 (0xFFFF * 2 ^ 32 + address.toNat)

@[simp] theorem toNat_mapped (address : BitVec 32) :
    (mapped address).toNat = 0xFFFF * 2 ^ 32 + address.toNat := by
  have hlt := address.isLt
  rw [mapped, BitVec.toNat_ofNat]
  exact Nat.mod_eq_of_lt (by omega)

/-! ## Networks -/

/-- The mask of a prefix. -/
def netmask (w prefixLen : ℕ) : BitVec w := BitVec.allOnes w <<< (w - prefixLen)

/-- A network. Its address has no bits after the prefix. -/
structure Network (w : ℕ) where
  address : BitVec w
  prefixLen : ℕ
  aligned : address &&& netmask w prefixLen = address := by decide

/-- `ip in net`. -/
def Network.Contains {w : ℕ} (net : Network w) (ip : BitVec w) : Prop :=
  ip &&& netmask w net.prefixLen = net.address

instance {w : ℕ} (net : Network w) (ip : BitVec w) : Decidable (net.Contains ip) :=
  inferInstanceAs (Decidable (_ = _))

/-- The last address of a network. -/
def Network.last {w : ℕ} (net : Network w) : BitVec w :=
  BitVec.ofNat w (net.address.toNat + 2 ^ (w - net.prefixLen) - 1)

/-- Masking clears the bits after the prefix. -/
theorem and_shiftLeft_allOnes {w : ℕ} (k : ℕ) (x : BitVec w) :
    x &&& BitVec.allOnes w <<< k = (x >>> k) <<< k := by
  apply BitVec.eq_of_getLsbD_eq
  intro i hi
  simp only [BitVec.getLsbD_and, BitVec.getLsbD_shiftLeft, BitVec.getLsbD_allOnes,
    BitVec.getLsbD_ushiftRight]
  by_cases hik : i < k
  · simp [hik]
  · have hsub : k + (i - k) = i := by omega
    have hlt : i - k < w := by omega
    simp [hi, hik, hsub, hlt]

/-- The number of a masked address. -/
theorem toNat_and_netmask {w : ℕ} (prefixLen : ℕ) (x : BitVec w) :
    (x &&& netmask w prefixLen).toNat =
      x.toNat / 2 ^ (w - prefixLen) * 2 ^ (w - prefixLen) := by
  have hlt : x.toNat / 2 ^ (w - prefixLen) * 2 ^ (w - prefixLen) < 2 ^ w :=
    (Nat.div_mul_le_self _ _).trans_lt x.isLt
  rw [netmask, and_shiftLeft_allOnes, BitVec.toNat_shiftLeft, BitVec.toNat_ushiftRight,
    Nat.shiftRight_eq_div_pow, Nat.shiftLeft_eq, Nat.mod_eq_of_lt hlt]

/-- Clearing the digits below `p` gives a multiple of `p` exactly on the interval of length `p`
that begins there. -/
theorem div_mul_eq_iff {p : ℕ} (hp : 0 < p) {a n : ℕ} (ha : a / p * p = a) :
    n / p * p = a ↔ a ≤ n ∧ n < a + p := by
  constructor
  · intro h
    have hle := Nat.div_mul_le_self n p
    have hlt := Nat.lt_div_mul_add (a := n) hp
    omega
  · rintro ⟨hle, hlt⟩
    have hquot : n / p = a / p := by
      apply Nat.div_eq_of_lt_le
      · rw [ha]
        exact hle
      · rw [Nat.succ_mul, ha]
        exact hlt
    rw [hquot, ha]

variable {w : ℕ} (net : Network w)

theorem Network.toNat_address :
    net.address.toNat / 2 ^ (w - net.prefixLen) * 2 ^ (w - net.prefixLen) = net.address.toNat := by
  rw [← toNat_and_netmask, net.aligned]

/-- The last address is that of the network plus its size. -/
theorem Network.toNat_last :
    net.last.toNat = net.address.toNat + 2 ^ (w - net.prefixLen) - 1 := by
  have hlt : net.address.toNat + 2 ^ (w - net.prefixLen) ≤ 2 ^ w := by
    have hdvd : 2 ^ (w - net.prefixLen) ∣ 2 ^ w := pow_dvd_pow 2 (Nat.sub_le _ _)
    obtain ⟨m, hm⟩ := hdvd
    have hquot := net.toNat_address
    have hbound := net.address.isLt
    set p := 2 ^ (w - net.prefixLen)
    set q := net.address.toNat / p
    rw [← hquot, hm] at hbound
    have hqm : q < m := Nat.lt_of_mul_lt_mul_left (a := p) (by rw [Nat.mul_comm p q]; exact hbound)
    calc net.address.toNat + p = (q + 1) * p := by rw [Nat.succ_mul, hquot]
      _ ≤ m * p := Nat.mul_le_mul_right p hqm
      _ = 2 ^ w := by rw [hm, Nat.mul_comm]
  have hpos : 0 < 2 ^ (w - net.prefixLen) := Nat.two_pow_pos _
  rw [Network.last, BitVec.toNat_ofNat]
  exact Nat.mod_eq_of_lt (by omega)

/-- **A network is an interval**: it contains the addresses from its first to its last. -/
theorem Network.contains_iff (ip : BitVec w) :
    net.Contains ip ↔ net.address.toNat ≤ ip.toNat ∧ ip.toNat ≤ net.last.toNat := by
  have hpos : 0 < 2 ^ (w - net.prefixLen) := Nat.two_pow_pos _
  rw [Network.Contains, ← BitVec.toNat_inj, toNat_and_netmask,
    div_mul_eq_iff hpos net.toNat_address, net.toNat_last]
  omega

/-! ## Textual forms -/

/-- The number of an octet of a dotted decimal form. -/
def parseOctet (octet : Text) : Option ℕ :=
  if octet ≠ [] ∧ (∀ c ∈ octet, c.isDigit) ∧ octet.length ≤ 3 ∧
      (octet ≠ ['0'] → octet.head? ≠ some '0') ∧ Nat.ofDigitChars 10 octet 0 ≤ 255 then
    some (Nat.ofDigitChars 10 octet 0)
  else none

/-- `IPv4Address(text)`. -/
def parseIpv4 (text : Text) : Option (BitVec 32) :=
  match text.splitOn '.' with
  | [a, b, c, d] =>
    match parseOctet a, parseOctet b, parseOctet c, parseOctet d with
    | some a, some b, some c, some d => some (ipv4 a b c d)
    | _, _, _, _ => none
  | _ => none

/-- The value of a hexadecimal digit. -/
def hexValue (c : Char) : Option ℕ :=
  if c.isDigit then some (c.toNat - '0'.toNat)
  else if 'a' ≤ c ∧ c ≤ 'f' then some (c.toNat - 'a'.toNat + 10)
  else if 'A' ≤ c ∧ c ≤ 'F' then some (c.toNat - 'A'.toNat + 10)
  else none

/-- A part of an IPv6 form: the text between two colons, or one half of the IPv4 address at its
end. -/
inductive Hextet where
  | text (digits : Text)
  | value (n : ℕ)
  deriving DecidableEq

/-- The number of a part. -/
def Hextet.parse : Hextet → Option ℕ
  | .value n => some n
  | .text digits =>
    if digits ≠ [] ∧ digits.length ≤ 4 then
      digits.foldl (fun n c => match n, hexValue c with
        | some n, some d => some (n * 16 + d)
        | _, _ => none) (some 0)
    else none

@[simp] theorem Hextet.parse_value (n : ℕ) : (Hextet.value n).parse = some n := rfl

/-- The parts of an IPv6 form. An IPv4 address at the end counts for two. -/
def ipv6Parts (text : Text) : Option (List Hextet) :=
  let parts := text.splitOn ':'
  let last := parts.getLast?.getD []
  if parts.length < 3 then none
  else if '.' ∈ last then
    (parseIpv4 last).map fun address => parts.dropLast.map Hextet.text ++
      [.value (address.toNat / 0x10000), .value (address.toNat % 0x10000)]
  else some (parts.map .text)

/-- The places of the empty parts that are neither the first nor the last. -/
def skipIndices (parts : List Hextet) : List ℕ :=
  (List.range parts.length).filter fun i =>
    decide (0 < i) && decide (i + 1 < parts.length) && decide (parts[i]? = some (.text []))

/-- The parts before and after the `::`, and how many it stands for. -/
def expand (parts : List Hextet) : Option (List Hextet × ℕ × List Hextet) :=
  match skipIndices parts with
  | [] =>
    if parts.length = 8 ∧ parts.head? ≠ some (.text []) ∧ parts.getLast? ≠ some (.text []) then
      some (parts, 0, [])
    else none
  | [i] =>
    let hi := parts.take i
    let lo := parts.drop (i + 1)
    if hi.head? = some (.text []) ∧ hi.length ≠ 1 then none
    else if lo.getLast? = some (.text []) ∧ lo.length ≠ 1 then none
    else
      let hi := if hi.head? = some (.text []) then [] else hi
      let lo := if lo.getLast? = some (.text []) then [] else lo
      if hi.length + lo.length < 8 then some (hi, 8 - (hi.length + lo.length), lo) else none
  | _ => none

/-- The number that a list of hextets stands for. -/
def ofHextets (hextets : List ℕ) : ℕ := hextets.foldl (fun n h => n * 0x10000 + h) 0

/-- The address of an IPv6 form without a scope. -/
def parseIpv6Address (text : Text) : Option (BitVec 128) :=
  match ipv6Parts text with
  | none => none
  | some parts =>
    if 9 < parts.length then none
    else
      match expand parts with
      | none => none
      | some (hi, skipped, lo) =>
        match hi.mapM Hextet.parse, lo.mapM Hextet.parse with
        | some hi, some lo =>
          some (BitVec.ofNat 128 (ofHextets (hi ++ List.replicate skipped 0 ++ lo)))
        | _, _ => none

/-- `IPv6Address(text)`, without its scope. -/
def parseIpv6 (text : Text) : Option (BitVec 128) :=
  if '/' ∈ text then none
  else
    match text.dropWhile (· ≠ '%') with
    | [] => parseIpv6Address text
    | _ :: scope =>
      if scope = [] ∨ '%' ∈ scope then none
      else parseIpv6Address (text.takeWhile (· ≠ '%'))

/-- `ip_address(text)`. `none` is `ValueError`. -/
def ipAddress (text : Text) : Option IpAddress :=
  match parseIpv4 text with
  | some address => some (.v4 address)
  | none => (parseIpv6 text).map .v6

/-! ## What the dotted decimal forms denote -/

/-- The four octets of an address, most significant first. -/
def octets (address : BitVec 32) : List ℕ :=
  [address.toNat / 2 ^ 24, address.toNat / 2 ^ 16 % 256, address.toNat / 2 ^ 8 % 256,
    address.toNat % 256]

/-- The dotted decimal form of an address. -/
def dottedDecimal (address : BitVec 32) : Text :=
  ['.'].intercalate ((octets address).map ofNat)

theorem octets_lt (address : BitVec 32) : ∀ n ∈ octets address, n < 256 := by
  have hlt := address.isLt
  intro n hn
  simp only [octets, List.mem_cons, List.not_mem_nil, or_false] at hn
  omega

/-- An octet is read back from its decimal form. -/
theorem parseOctet_ofNat {n : ℕ} (h : n < 256) : parseOctet (ofNat n) = some n := by
  have hall : ∀ n < 256, parseOctet (ofNat n) = some n := by decide +kernel
  exact hall n h

/-- The characters of a number are digits. -/
theorem isDigit_of_mem_ofNat {n : ℕ} {c : Char} (h : c ∈ ofNat n) : c.isDigit := by
  rw [ofNat, Nat.toList_repr] at h
  exact Nat.isDigit_of_mem_toDigits (by decide) (by decide) h

theorem not_mem_ofNat {n : ℕ} {c : Char} (h : ¬ c.isDigit) : c ∉ ofNat n :=
  fun hmem => h (isDigit_of_mem_ofNat hmem)

/-- The parts of the dotted decimal form, after any text without a dot. -/
theorem splitOn_dottedDecimal {start : Text} (hstart : '.' ∉ start) (address : BitVec 32) :
    (start ++ dottedDecimal address).splitOn '.' =
      [start ++ ofNat (address.toNat / 2 ^ 24), ofNat (address.toNat / 2 ^ 16 % 256),
        ofNat (address.toNat / 2 ^ 8 % 256), ofNat (address.toNat % 256)] := by
  have hjoin : start ++ dottedDecimal address = ['.'].intercalate
      [start ++ ofNat (address.toNat / 2 ^ 24), ofNat (address.toNat / 2 ^ 16 % 256),
        ofNat (address.toNat / 2 ^ 8 % 256), ofNat (address.toNat % 256)] := by
    simp [dottedDecimal, octets, List.intercalate]
  have hdot : ∀ n, '.' ∉ ofNat n := fun n => not_mem_ofNat (by decide)
  rw [hjoin, List.splitOn_intercalate]
  · intro part hpart
    simp only [List.mem_cons, List.not_mem_nil, or_false] at hpart
    rcases hpart with rfl | rfl | rfl | rfl
    · simp only [List.mem_append, not_or]
      exact ⟨hstart, hdot _⟩
    · exact hdot _
    · exact hdot _
    · exact hdot _
  · exact List.cons_ne_nil _ _

/-- The octets put together again. -/
theorem ipv4_octets (address : BitVec 32) :
    ipv4 (address.toNat / 2 ^ 24) (address.toNat / 2 ^ 16 % 256) (address.toNat / 2 ^ 8 % 256)
      (address.toNat % 256) = address := by
  have hlt := address.isLt
  apply BitVec.eq_of_toNat_eq
  rw [ipv4, BitVec.toNat_ofNat]
  omega

/-- **The dotted decimal form is read back.** -/
@[simp] theorem parseIpv4_dottedDecimal (address : BitVec 32) :
    parseIpv4 (dottedDecimal address) = some address := by
  have hparts := splitOn_dottedDecimal (List.not_mem_nil (a := '.')) address
  rw [List.nil_append] at hparts
  have hoctet := octets_lt address
  simp only [octets, List.forall_mem_cons] at hoctet
  obtain ⟨ha, hb, hc, hd, -⟩ := hoctet
  rw [parseIpv4, hparts]
  simp only [List.nil_append, parseOctet_ofNat ha, parseOctet_ofNat hb, parseOctet_ofNat hc,
    parseOctet_ofNat hd, ipv4_octets]

/-- The text of a mapped address. -/
def mappedText (address : BitVec 32) : Text :=
  [':', ':', 'f', 'f', 'f', 'f', ':'] ++ dottedDecimal address

theorem parseIpv4_mappedText (address : BitVec 32) : parseIpv4 (mappedText address) = none := by
  have hcolon (rest : Text) : parseOctet ([':', ':', 'f', 'f', 'f', 'f', ':'] ++ rest) = none := by
    rw [parseOctet, if_neg]
    rintro ⟨-, hdigits, -⟩
    exact absurd (hdigits ':' List.mem_cons_self) (by decide)
  have hstart : '.' ∉ [':', ':', 'f', 'f', 'f', 'f', ':'] := by decide
  rw [parseIpv4, mappedText, splitOn_dottedDecimal hstart]
  simp only [hcolon]

/-- The characters of a dotted decimal form. -/
theorem mem_dottedDecimal {address : BitVec 32} {c : Char} (h : c ∈ dottedDecimal address) :
    c = '.' ∨ c.isDigit := by
  simp only [dottedDecimal, octets, List.intercalate, List.map_cons, List.map_nil,
    List.intersperse_cons_cons, List.intersperse_singleton, List.flatten_cons, List.flatten_nil,
    List.mem_append, List.mem_singleton, List.not_mem_nil, or_false] at h
  rcases h with h | h | h | h | h | h | h
  · exact Or.inr (isDigit_of_mem_ofNat h)
  · exact Or.inl h
  · exact Or.inr (isDigit_of_mem_ofNat h)
  · exact Or.inl h
  · exact Or.inr (isDigit_of_mem_ofNat h)
  · exact Or.inl h
  · exact Or.inr (isDigit_of_mem_ofNat h)

theorem not_mem_mappedText {c : Char} (hdot : c ≠ '.') (hdigit : ¬ c.isDigit)
    (hstart : c ∉ [':', ':', 'f', 'f', 'f', 'f', ':']) (address : BitVec 32) :
    c ∉ mappedText address := by
  rw [mappedText, List.mem_append, not_or]
  refine ⟨hstart, fun h => ?_⟩
  rcases mem_dottedDecimal h with h | h
  · exact hdot h
  · exact hdigit h

/-- The parts of the mapped form.

**Proof sketch.** The text is split at its colons, none of which stands in the dotted decimal form.
The last part has a dot, so that it is read as an IPv4 address and replaced by its two halves. -/
theorem ipv6Parts_mappedText (address : BitVec 32) :
    ipv6Parts (mappedText address) = some [.text [], .text [], .text ['f', 'f', 'f', 'f'],
      .value (address.toNat / 0x10000), .value (address.toNat % 0x10000)] := by
  have hcolon : ':' ∉ dottedDecimal address := by
    intro h
    rcases mem_dottedDecimal h with h | h
    · exact absurd h (by decide)
    · exact absurd h (by decide)
  have hdot : '.' ∈ dottedDecimal address := by
    simp [dottedDecimal, octets, List.intercalate]
  have hparts : (mappedText address).splitOn ':' =
      [[], [], ['f', 'f', 'f', 'f'], dottedDecimal address] := by
    have hjoin : mappedText address =
        [':'].intercalate [[], [], ['f', 'f', 'f', 'f'], dottedDecimal address] := by
      simp [mappedText, List.intercalate]
    rw [hjoin, List.splitOn_intercalate]
    · intro part hpart
      simp only [List.mem_cons, List.not_mem_nil, or_false] at hpart
      rcases hpart with rfl | rfl | rfl | rfl
      · decide
      · decide
      · decide
      · exact hcolon
    · exact List.cons_ne_nil _ _
  simp only [ipv6Parts, hparts, List.getLast?_cons_cons, List.getLast?_singleton,
    Option.getD_some, if_pos hdot, parseIpv4_dottedDecimal, List.length_cons, List.length_nil,
    List.dropLast_cons_cons, List.dropLast_singleton, Option.map_some, List.map_cons, List.map_nil,
    List.cons_append, List.nil_append]
  rfl

/-- **Every IPv4-mapped address is denoted by the dotted decimal form after `::ffff:`.**

**Proof sketch.** The text is no IPv4 address and has neither a slash nor a scope. Its parts are the
empty ones of the `::`, `ffff`, and the two halves of the dotted address; the `::` stands for five
zeros, and the eight values make up the address. -/
theorem ipAddress_mapped (address : BitVec 32) :
    ipAddress (mappedText address) = some (.v6 (mapped address)) := by
  have hlt := address.isLt
  have hslash : '/' ∉ mappedText address := not_mem_mappedText (by decide) (by decide) (by decide) _
  have hscope : (mappedText address).dropWhile (· ≠ '%') = [] := by
    rw [List.dropWhile_eq_nil_iff]
    intro c hc
    have hne : c ≠ '%' := by
      rintro rfl
      exact not_mem_mappedText (by decide) (by decide) (by decide) address hc
    simpa using hne
  have hvalue : ofHextets ([] ++ List.replicate 5 0 ++
      [0xFFFF, address.toNat / 0x10000, address.toNat % 0x10000]) =
      0xFFFF * 2 ^ 32 + address.toNat := by
    simp only [ofHextets, List.nil_append, List.replicate, List.cons_append, List.foldl_cons,
      List.foldl_nil]
    omega
  have hexpand : expand [.text [], .text [], .text ['f', 'f', 'f', 'f'],
      .value (address.toNat / 0x10000), .value (address.toNat % 0x10000)] =
      some ([], 5, [.text ['f', 'f', 'f', 'f'], .value (address.toNat / 0x10000),
        .value (address.toNat % 0x10000)]) := rfl
  have hffff : Hextet.parse (.text ['f', 'f', 'f', 'f']) = some 0xFFFF := by decide
  rw [ipAddress, parseIpv4_mappedText, parseIpv6, if_neg hslash, hscope]
  simp only [parseIpv6Address, ipv6Parts_mappedText, hexpand]
  simp only [List.mapM_cons, List.mapM_nil, hffff, Hextet.parse_value, Option.pure_def,
    Option.bind_eq_bind, Option.bind_some, hvalue, mapped]
  have hparts : ¬ 9 < [Hextet.text [], .text [], .text ['f', 'f', 'f', 'f'],
      .value (address.toNat / 0x10000), .value (address.toNat % 0x10000)].length := by
    simp only [List.length_cons, List.length_nil]
    omega
  rw [if_neg hparts, Option.map_some]

end Lib
