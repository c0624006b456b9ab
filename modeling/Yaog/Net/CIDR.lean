import Yaog.Net.Print

/-!
# Prefixes, as `net.ParseCIDR` and `net.IPNet` treat them

A prefix keeps its network number in 16-byte form with the host bits cleared.
-/

namespace Yaog.Net

structure IPNet where
  bits : Nat
  ones : Nat
  ip : IP
  ones_le : ones ≤ bits
  bits_le : bits ≤ 128
  masked : ip.toNat % 2 ^ (bits - ones) = 0

namespace IPNet

/-- Number of host bits, `bits - ones` of `Mask.Size`. -/
def hostBits (net : IPNet) : Nat := net.bits - net.ones

private theorem clear_masked (ip : IP) (width : Nat) :
    (BitVec.ofNat 128 (ip.toNat / 2 ^ width * 2 ^ width)).toNat % 2 ^ width = 0 := by
  have bound := ip.isLt
  have below : ip.toNat / 2 ^ width * 2 ^ width < 2 ^ 128 :=
    Nat.lt_of_le_of_lt (Nat.div_mul_le_self _ _) bound
  rw [BitVec.toNat_ofNat, Nat.mod_eq_of_lt below, Nat.mul_mod_left]

/-- `IP.Mask`: clear the host bits. -/
def ofPrefix (bits ones : Nat) (ip : IP) (ones_le : ones ≤ bits) (bits_le : bits ≤ 128) : IPNet where
  bits := bits
  ones := ones
  ip := BitVec.ofNat 128 (ip.toNat / 2 ^ (bits - ones) * 2 ^ (bits - ones))
  ones_le := ones_le
  bits_le := bits_le
  masked := clear_masked ip _

/-- `IPNet.Contains`: an IPv4 prefix holds only IPv4 addresses and the converse; the bits above the
host bits must agree. -/
def contains (net : IPNet) (ip : IP) : Bool :=
  net.ip.to4.isSome == ip.to4.isSome &&
    decide (ip.toNat / 2 ^ net.hostBits = net.ip.toNat / 2 ^ net.hostBits)

end IPNet

/-- The mask length of `ParseCIDR`, `dtoi`: decimal digits only, leading zeros allowed. -/
def parseMaskLength (digits : List Char) : Option Nat :=
  if digits ≠ [] ∧ digits.all Char.isDigit then some (Nat.ofDigitChars 10 digits 0) else none

/-- `net.ParseCIDR`, its network only. The text splits at its first slash. -/
def parseCIDR (text : String) : Option IPNet :=
  match text.toList.span (· ≠ '/') with
  | (address, '/' :: mask) =>
    match parseAddr (String.ofList address), parseMaskLength mask with
    | some (dotted, ip), some ones =>
      if fits : ones ≤ (if dotted then 32 else 128) then
        some (IPNet.ofPrefix (if dotted then 32 else 128) ones ip fits (by split <;> omega))
      else none
    | _, _ => none
  | _ => none

theorem to4_eq_some_iff {ip : IP} {address : IPv4} : ip.to4 = some address ↔ ip = IP.ofIPv4 address := by
  constructor
  · intro found
    rw [IP.to4] at found
    split at found
    case isTrue quotient =>
      apply BitVec.eq_of_toNat_eq
      rw [← Option.some.inj found, IP.ofIPv4_toNat, BitVec.toNat_ofNat]
      omega
    case isFalse => simp at found
  · rintro rfl
    exact IP.to4_ofIPv4 address

theorem IP.format_eq_iff {ip : IP} {address : IPv4} : ip.format = address.format ↔ ip = IP.ofIPv4 address := by
  constructor
  · intro same
    rw [IP.format] at same
    cases isIPv4 : ip.to4 with
    | some found =>
      rw [isIPv4] at same
      rw [to4_eq_some_iff.mp isIPv4, IPv4.format_injective same]
    | none =>
      rw [isIPv4] at same
      exact absurd (same ▸ ip.colon_mem_format6) address.colon_not_mem_format
  · rintro rfl
    exact IP.format_ofIPv4 address

namespace IPNet

variable {net : IPNet} {network : IPv4} {host : Nat}

/-- In an IPv4 network with fewer than 32 host bits, adding a host number to the network number stays
inside: neither the 32-bit sum wraps nor do the network bits change. -/
theorem host_toNat (isNetwork : net.ip.to4 = some network) (small : net.hostBits ≤ 32)
    (bounded : host < 2 ^ net.hostBits) :
    (network + BitVec.ofNat 32 host).toNat = network.toNat + host ∧ network.toNat % 2 ^ net.hostBits = 0 := by
  have prefixed := to4_eq_some_iff.mp isNetwork
  have clear := net.masked
  rw [prefixed, IP.ofIPv4_toNat] at clear
  have split : 2 ^ 32 = 2 ^ net.hostBits * 2 ^ (32 - net.hostBits) := by
    rw [← Nat.pow_add]
    congr 1
    omega
  have networkClear : network.toNat % 2 ^ net.hostBits = 0 := by
    have multiple : (0xffff * 2 ^ 32) % 2 ^ net.hostBits = 0 := by
      rw [split, ← Nat.mul_assoc, Nat.mul_comm 0xffff, Nat.mul_assoc, Nat.mul_mod_right]
    have sum := clear
    change (0xffff * 2 ^ 32 + network.toNat) % 2 ^ net.hostBits = 0 at sum
    rwa [Nat.add_mod, multiple, Nat.zero_add, Nat.mod_mod] at sum
  have bound := network.isLt
  refine ⟨?_, networkClear⟩
  have room : network.toNat + host < 2 ^ 32 := by
    have quotient : network.toNat / 2 ^ net.hostBits < 2 ^ (32 - net.hostBits) := by
      rw [Nat.div_lt_iff_lt_mul (Nat.two_pow_pos _), Nat.mul_comm, ← split]
      exact bound
    have exact : network.toNat = 2 ^ net.hostBits * (network.toNat / 2 ^ net.hostBits) := by
      have division := Nat.div_add_mod network.toNat (2 ^ net.hostBits)
      omega
    calc network.toNat + host < 2 ^ net.hostBits * (network.toNat / 2 ^ net.hostBits) + 2 ^ net.hostBits := by omega
      _ ≤ 2 ^ net.hostBits * 2 ^ (32 - net.hostBits) := Nat.mul_le_mul_left _ quotient
      _ = 2 ^ 32 := split.symm
  have hostBound : host < 2 ^ 32 := by omega
  rw [BitVec.toNat_add, BitVec.toNat_ofNat, Nat.mod_eq_of_lt hostBound, Nat.mod_eq_of_lt room]

theorem contains_host (isNetwork : net.ip.to4 = some network) (small : net.hostBits ≤ 32)
    (bounded : host < 2 ^ net.hostBits) :
    net.contains (IP.ofIPv4 (network + BitVec.ofNat 32 host)) = true := by
  obtain ⟨sum, -⟩ := host_toNat isNetwork small bounded
  have prefixed := to4_eq_some_iff.mp isNetwork
  have clear := net.masked
  simp only [contains, isNetwork, IP.to4_ofIPv4, Option.isSome_some, beq_self_eq_true, Bool.true_and,
    decide_eq_true_eq]
  rw [IP.ofIPv4_toNat, sum, ← Nat.add_assoc, ← IP.ofIPv4_toNat, ← prefixed]
  change net.ip.toNat % 2 ^ net.hostBits = 0 at clear
  have exact : net.ip.toNat = 2 ^ net.hostBits * (net.ip.toNat / 2 ^ net.hostBits) := by
    have division := Nat.div_add_mod net.ip.toNat (2 ^ net.hostBits)
    omega
  rw [exact, Nat.mul_add_div (Nat.two_pow_pos _), Nat.div_eq_of_lt bounded, Nat.add_zero,
    Nat.mul_div_cancel_left _ (Nat.two_pow_pos _)]

theorem hostBits_le_of_to4 (isNetwork : net.ip.to4 = some network) : net.hostBits ≤ 32 := by
  by_contra wide
  have clear := net.masked
  rw [to4_eq_some_iff.mp isNetwork, IP.ofIPv4_toNat] at clear
  have divides : 2 ^ 33 ∣ 2 ^ net.hostBits := Nat.pow_dvd_pow 2 (by omega)
  have residue := Nat.mod_eq_zero_of_dvd (divides.trans (Nat.dvd_of_mod_eq_zero clear))
  omega

end IPNet

theorem parseCIDR_bits {text : String} {net : IPNet} (parsed : parseCIDR text = some net) :
    net.bits = 32 ∨ net.bits = 128 := by
  rw [parseCIDR] at parsed
  split at parsed
  case h_2 => cases parsed
  case h_1 =>
    split at parsed
    case h_2 => cases parsed
    case h_1 dotted ip ones _ _ =>
      cases dotted with
      | true =>
        simp only [if_true] at parsed
        split at parsed
        case isFalse => cases parsed
        case isTrue =>
          rw [← Option.some.inj parsed]
          exact .inl rfl
      | false =>
        simp only [Bool.false_eq_true, if_false] at parsed
        split at parsed
        case isFalse => cases parsed
        case isTrue =>
          rw [← Option.some.inj parsed]
          exact .inr rfl

theorem hostBits_of_parseCIDR {text : String} {net : IPNet} {network : IPv4} (parsed : parseCIDR text = some net)
    (isNetwork : net.ip.to4 = some network) (short : net.ones ≤ 32) : net.hostBits = 32 - net.ones := by
  have narrow := IPNet.hostBits_le_of_to4 isNetwork
  rw [IPNet.hostBits] at narrow ⊢
  rcases parseCIDR_bits parsed with bits | bits
  · rw [bits]
  · omega

end Yaog.Net
