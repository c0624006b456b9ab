import Mathlib.Data.List.Basic
import Mathlib.Data.BitVec
import Mathlib.Tactic

/-!
# IP addresses as Go's `net` and `net/netip` read and print them

Texts are lists of characters. An address is the 16-byte form that `net.ParseIP` returns; an IPv4
address sits in it behind the prefix `::ffff:0:0/96`.
-/

namespace Yaog.Net

open List Option

/-- The 16-byte form of an address. -/
abbrev IP := BitVec 128

abbrev IPv4 := BitVec 32

def IP.ofIPv4 (address : IPv4) : IP := BitVec.ofNat 128 (0xffff * 2 ^ 32 + address.toNat)

/-- `IP.To4`: the 4-byte form of an address behind the IPv4-in-IPv6 prefix. -/
def IP.to4 (ip : IP) : Option IPv4 :=
  if ip.toNat / 2 ^ 32 = 0xffff then some (BitVec.ofNat 32 ip.toNat) else none

theorem IP.ofIPv4_toNat (address : IPv4) :
    (IP.ofIPv4 address).toNat = 0xffff * 2 ^ 32 + address.toNat := by
  have bound := address.isLt
  simp only [IP.ofIPv4, BitVec.toNat_ofNat]
  omega

@[simp] theorem IP.to4_ofIPv4 (address : IPv4) : (IP.ofIPv4 address).to4 = some address := by
  have bound := address.isLt
  have quotient : (IP.ofIPv4 address).toNat / 2 ^ 32 = 0xffff := by
    rw [IP.ofIPv4_toNat]
    omega
  simp only [IP.to4, quotient, if_true, some.injEq]
  apply BitVec.eq_of_toNat_eq
  rw [BitVec.toNat_ofNat, IP.ofIPv4_toNat]
  omega

theorem IP.ofIPv4_injective : Function.Injective IP.ofIPv4 := by
  intro left right equal
  have images := congrArg IP.to4 equal
  simpa using images

/-- The scanner of `parseIPv4Fields`: octets already closed by a dot, the value of the open octet and
its number of digits. An octet has no leading zero and is at most 255. -/
def scanIPv4 : List Char → List Nat → Nat → Nat → Option (List Nat)
  | [], octets, value, digits =>
    if digits = 0 ∨ octets.length ≠ 3 then none else some (octets ++ [value])
  | c :: rest, octets, value, digits =>
    if c.isDigit then
      if digits = 1 ∧ value = 0 then none
      else
        let value := value * 10 + (c.toNat - '0'.toNat)
        if 255 < value then none else scanIPv4 rest octets value (digits + 1)
    else if c = '.' then
      if digits = 0 ∨ octets.length = 3 then none
      else scanIPv4 rest (octets ++ [value]) 0 0
    else none

def octetsValue (octets : List Nat) : Nat := octets.foldl (fun value octet => value * 256 + octet) 0

/-- `netip.parseIPv4`. -/
def parseIPv4 (text : List Char) : Option IPv4 :=
  (scanIPv4 text [] 0 0).map fun octets => BitVec.ofNat 32 (octetsValue octets)

def hexValue? (c : Char) : Option Nat :=
  if c.isDigit then some (c.toNat - '0'.toNat)
  else if 'a' ≤ c ∧ c ≤ 'f' then some (c.toNat - 'a'.toNat + 10)
  else if 'A' ≤ c ∧ c ≤ 'F' then some (c.toNat - 'A'.toNat + 10)
  else none

/-- Read the hexadecimal digits at the head of the text: their value, their number and the rest.
More than four digits in one group are an error. -/
def scanHexGroup : List Char → Nat → Nat → Option (Nat × Nat × List Char)
  | [], value, digits => some (value, digits, [])
  | c :: rest, value, digits =>
    match hexValue? c with
    | none => some (value, digits, c :: rest)
    | some digit => if digits > 3 then none else scanHexGroup rest (value * 16 + digit) (digits + 1)

/-- The groups read so far, and the position of the ellipsis among them. -/
structure IPv6Scan where
  groups : List Nat
  ellipsis : Option Nat

def IPv6Scan.separator (scan : IPv6Scan) : List Char → Option (IPv6Scan × List Char)
  | [] => some (scan, [])
  | [':'] => none
  | ':' :: ':' :: rest =>
    if scan.ellipsis.isSome then none
    else some ({ scan with ellipsis := some scan.groups.length }, rest)
  | ':' :: rest => some (scan, rest)
  | _ => none

/-- The group loop of `parseIPv6`. `room` is the number of groups still free (the source's `i < 16`
counts bytes); the second component of the result is the text left over. -/
def scanIPv6 : Nat → List Char → IPv6Scan → Option (IPv6Scan × List Char)
  | 0, text, scan => some (scan, text)
  | room + 1, text, scan =>
    match scanHexGroup text 0 0 with
    | none => none
    | some (value, digits, rest) =>
      if digits = 0 then none
      else if rest.head? = some '.' then
        -- an embedded IPv4 address replaces the last two groups
        if scan.ellipsis = none ∧ scan.groups.length ≠ 6 then none
        else if room = 0 then none
        else (scanIPv4 text [] 0 0).map fun octets =>
          ({ scan with groups :=
              scan.groups ++ [octetsValue (octets.take 2), octetsValue (octets.drop 2)] }, [])
      else
        match IPv6Scan.separator { scan with groups := scan.groups ++ [value] } rest with
        | none => none
        | some (scan, rest) => if rest = [] then some (scan, []) else scanIPv6 room rest scan

def groupsValue (groups : List Nat) : Nat := groups.foldl (fun value group => value * 65536 + group) 0

/-- Fill the ellipsis with zero groups. The address must be complete without one, and an ellipsis
stands for at least one group. -/
def IPv6Scan.expand (scan : IPv6Scan) : Option IP :=
  match scan.ellipsis with
  | none => if scan.groups.length = 8 then some (BitVec.ofNat 128 (groupsValue scan.groups)) else none
  | some position =>
    if scan.groups.length < 8 then
      some (BitVec.ofNat 128 (groupsValue
        (scan.groups.take position ++ List.replicate (8 - scan.groups.length) 0
          ++ scan.groups.drop position)))
    else none

/-- `netip.parseIPv6` on a text without a zone. -/
def parseIPv6 (text : List Char) : Option IP :=
  let leading := text.take 2 = [':', ':']
  let start : IPv6Scan := { groups := [], ellipsis := if leading then some 0 else none }
  let rest := if leading then text.drop 2 else text
  if leading ∧ rest = [] then start.expand
  else match scanIPv6 8 rest start with
    | some (scan, []) => scan.expand
    | _ => none

/-- `netip.ParseAddr` decides the family by the first dot, colon or percent sign. A zone is never
accepted by `net`, so a text with a percent sign is refused as a whole. The flag says that the text
is dotted IPv4. -/
def parseAddr (text : String) : Option (Bool × IP) :=
  match text.toList.find? fun c => c = '.' ∨ c = ':' ∨ c = '%' with
  | some '.' => (parseIPv4 text.toList).map fun address => (true, IP.ofIPv4 address)
  | some ':' => if '%' ∈ text.toList then none else (parseIPv6 text.toList).map fun ip => (false, ip)
  | _ => none

/-- `net.ParseIP`. -/
def parseIP (text : String) : Option IP := (parseAddr text).map (·.2)

def isAddressChar (c : Char) : Bool := (hexValue? c).isSome || c = '.' || c = ':'

theorem isAddressChar_of_isDigit {c : Char} (digit : c.isDigit = true) : isAddressChar c = true := by
  simp [isAddressChar, hexValue?, digit]

theorem scanIPv4_chars {text : List Char} {octets : List Nat} {value digits : Nat} {read : List Nat}
    (scanned : scanIPv4 text octets value digits = some read) : ∀ c ∈ text, isAddressChar c = true := by
  induction text generalizing octets value digits with
  | nil => simp
  | cons c rest ih =>
    rw [scanIPv4] at scanned
    split at scanned
    case isTrue digit =>
      split at scanned
      case isTrue => cases scanned
      case isFalse =>
        dsimp only at scanned
        split at scanned
        case isTrue => cases scanned
        case isFalse => exact forall_mem_cons.mpr ⟨isAddressChar_of_isDigit digit, ih scanned⟩
    case isFalse =>
      split at scanned
      case isFalse => cases scanned
      case isTrue dot =>
        split at scanned
        case isTrue => cases scanned
        case isFalse => exact forall_mem_cons.mpr ⟨by simp [isAddressChar, dot], ih scanned⟩

theorem scanHexGroup_chars {text rest : List Char} {value digits value' digits' : Nat}
    (scanned : scanHexGroup text value digits = some (value', digits', rest)) :
    ∃ front, text = front ++ rest ∧ ∀ c ∈ front, isAddressChar c = true := by
  induction text generalizing value digits with
  | nil =>
    simp only [scanHexGroup, some.injEq, Prod.mk.injEq] at scanned
    exact ⟨[], by simp [← scanned.2.2], by simp⟩
  | cons c later ih =>
    rw [scanHexGroup] at scanned
    cases hex : hexValue? c with
    | none =>
      simp only [hex, some.injEq, Prod.mk.injEq] at scanned
      exact ⟨[], by simp [← scanned.2.2], by simp⟩
    | some digit =>
      simp only [hex] at scanned
      split at scanned
      case isTrue => cases scanned
      case isFalse =>
        obtain ⟨front, shape, each⟩ := ih scanned
        exact ⟨c :: front, by rw [shape, cons_append], forall_mem_cons.mpr ⟨by simp [isAddressChar, hex], each⟩⟩

theorem separator_chars {scan scan' : IPv6Scan} {text rest : List Char}
    (stepped : scan.separator text = some (scan', rest)) :
    ∃ front, text = front ++ rest ∧ ∀ c ∈ front, isAddressChar c = true := by
  have colon : isAddressChar ':' = true := by decide
  rw [IPv6Scan.separator.eq_def] at stepped
  split at stepped
  case h_1 => exact ⟨[], by simp [← (Prod.mk.inj (some.inj stepped)).2], by simp⟩
  case h_2 => cases stepped
  case h_3 later =>
    split at stepped
    case isTrue => cases stepped
    case isFalse => exact ⟨[':', ':'], by simp [← (Prod.mk.inj (some.inj stepped)).2], by simp [colon]⟩
  case h_4 later _ _ => exact ⟨[':'], by simp [← (Prod.mk.inj (some.inj stepped)).2], by simp [colon]⟩
  case h_5 => cases stepped

theorem scanIPv6_chars {room : Nat} {text left : List Char} {scan scan' : IPv6Scan}
    (scanned : scanIPv6 room text scan = some (scan', left)) :
    ∃ front, text = front ++ left ∧ ∀ c ∈ front, isAddressChar c = true := by
  induction room generalizing text scan with
  | zero =>
    simp only [scanIPv6, some.injEq, Prod.mk.injEq] at scanned
    exact ⟨[], by simp [scanned.2], by simp⟩
  | succ room ih =>
    rw [scanIPv6] at scanned
    split at scanned
    case h_1 => cases scanned
    case h_2 value digits rest group =>
      obtain ⟨front, shape, each⟩ := scanHexGroup_chars group
      split at scanned
      case isTrue => cases scanned
      case isFalse =>
        split at scanned
        case isTrue =>
          split at scanned
          case isTrue => cases scanned
          case isFalse =>
            split at scanned
            case isTrue => cases scanned
            case isFalse =>
              obtain ⟨octets, embedded, result⟩ := map_eq_some_iff.mp scanned
              exact ⟨text, by rw [← (Prod.mk.inj result).2, append_nil], scanIPv4_chars embedded⟩
        case isFalse =>
          split at scanned
          case h_1 => cases scanned
          case h_2 next after stepped =>
            obtain ⟨middle, shape', each'⟩ := separator_chars stepped
            have both : ∀ c ∈ front ++ middle, isAddressChar c = true := forall_mem_append.mpr ⟨each, each'⟩
            split at scanned
            case isTrue ended =>
              refine ⟨front ++ middle, ?_, both⟩
              rw [shape, shape', ended, (Prod.mk.inj (some.inj scanned)).2.symm, append_assoc]
            case isFalse =>
              obtain ⟨final, shape'', each''⟩ := ih scanned
              exact ⟨front ++ middle ++ final, by rw [shape, shape', shape'']; simp,
                forall_mem_append.mpr ⟨both, each''⟩⟩

theorem parseIPv6_chars {text : List Char} {ip : IP} (parsed : parseIPv6 text = some ip) :
    ∀ c ∈ text, isAddressChar c = true := by
  have colon : isAddressChar ':' = true := by decide
  have leads : text.take 2 = [':', ':'] → text = [':', ':'] ++ text.drop 2 := fun leading => by
    rw [← leading, take_append_drop]
  have rest : ∀ c ∈ (if text.take 2 = [':', ':'] then text.drop 2 else text), isAddressChar c = true := by
    simp only [parseIPv6] at parsed
    generalize (if text.take 2 = [':', ':'] then text.drop 2 else text) = rest at parsed ⊢
    generalize (if text.take 2 = [':', ':'] then some 0 else none) = ellipsis at parsed
    split at parsed
    case isTrue empty => simp [empty.2]
    case isFalse =>
      split at parsed
      case h_1 scan scanned =>
        obtain ⟨front, shape, each⟩ := scanIPv6_chars scanned
        rw [shape, append_nil]
        exact each
      case h_2 => cases parsed
  by_cases leading : text.take 2 = [':', ':']
  · rw [if_pos leading] at rest
    rw [leads leading]
    exact forall_mem_append.mpr ⟨by simp [colon], rest⟩
  · rw [if_neg leading] at rest
    exact rest

theorem parseIP_chars {text : String} {ip : IP} (parsed : parseIP text = some ip) :
    ∀ c ∈ text.toList, isAddressChar c = true := by
  obtain ⟨found, isAddr, -⟩ := map_eq_some_iff.mp parsed
  rw [parseAddr] at isAddr
  split at isAddr
  case h_1 =>
    obtain ⟨address, parsed4, -⟩ := map_eq_some_iff.mp isAddr
    obtain ⟨octets, scanned, -⟩ := map_eq_some_iff.mp parsed4
    exact scanIPv4_chars scanned
  case h_2 =>
    split at isAddr
    case isTrue => cases isAddr
    case isFalse =>
      obtain ⟨address, parsed6, -⟩ := map_eq_some_iff.mp isAddr
      exact parseIPv6_chars parsed6
  case h_3 => cases isAddr

end Yaog.Net
