import Yaog.Net.Addr

/-!
# Printing addresses, and reading back what was printed
-/

namespace Yaog.Net

open List Option

def IPv4.octets (address : IPv4) : List Nat :=
  [address.toNat / 2 ^ 24, address.toNat / 2 ^ 16 % 256, address.toNat / 2 ^ 8 % 256, address.toNat % 256]

def IPv4.format (address : IPv4) : String := ".".intercalate (address.octets.map Nat.repr)

def IP.groups (ip : IP) : List Nat :=
  (List.range 8).map fun i => ip.toNat / 2 ^ (16 * (7 - i)) % 2 ^ 16

def hexText (value : Nat) : String := String.ofList (Nat.toDigits 16 value)

def zeroRun : List Nat → Nat
  | 0 :: rest => zeroRun rest + 1
  | _ => 0

def longestZeroRun (groups : List Nat) : Option (Nat × Nat) :=
  (List.range groups.length).foldl
    (fun best start =>
      let length := zeroRun (groups.drop start)
      if 2 ≤ length ∧ (best.map (·.2)).getD 0 < length then some (start, length) else best)
    none

def IP.format6 (ip : IP) : String :=
  let text := fun groups : List Nat => ":".intercalate (groups.map hexText)
  match longestZeroRun ip.groups with
  | none => text ip.groups
  | some (start, length) => text (ip.groups.take start) ++ "::" ++ text (ip.groups.drop (start + length))

/-- `IP.String`. -/
def IP.format (ip : IP) : String :=
  match ip.to4 with
  | some address => address.format
  | none => ip.format6

theorem IPv4.octetsValue_octets (address : IPv4) : octetsValue address.octets = address.toNat := by
  simp only [IPv4.octets, octetsValue, foldl_cons, foldl_nil]
  omega

private theorem digitChar_digit (digit : Nat) (small : digit < 10) :
    (Nat.digitChar digit).isDigit = true ∧ (Nat.digitChar digit).toNat - '0'.toNat = digit := by
  have all : ∀ digit : Fin 10, (Nat.digitChar digit).isDigit = true ∧
      (Nat.digitChar digit).toNat - '0'.toNat = digit.val := by
    decide
  exact all ⟨digit, small⟩

private theorem scanIPv4_digit {digit value digits : Nat} (small : digit < 10) (rest : List Char)
    (octets : List Nat) (lead : ¬ (digits = 1 ∧ value = 0)) (fits : value * 10 + digit ≤ 255) :
    scanIPv4 (Nat.digitChar digit :: rest) octets value digits =
      scanIPv4 rest octets (value * 10 + digit) (digits + 1) := by
  obtain ⟨isDigit, read⟩ := digitChar_digit digit small
  rw [scanIPv4, if_pos isDigit, if_neg lead, read]
  exact if_neg (by omega)

theorem scanIPv4_octet (octet : Nat) (small : octet < 256) (rest : List Char) (octets : List Nat) :
    scanIPv4 (Nat.toDigits 10 octet ++ rest) octets 0 0 =
      scanIPv4 rest octets octet (Nat.toDigits 10 octet).length := by
  induction octet using Nat.strong_induction_on generalizing rest with
  | _ octet ih =>
    rw [Nat.toDigits_eq_if (by decide)]
    split
    case isTrue single =>
      rw [singleton_append, scanIPv4_digit single _ _ (by omega) (by omega)]
      simp
    case isFalse several =>
      -- the leading digits have a positive value, so no digit that follows is a leading zero
      rw [append_assoc, singleton_append, ih (octet / 10) (by omega) (by omega),
        scanIPv4_digit (by omega) _ _ (by omega) (by omega), length_append, length_singleton]
      congr 1
      omega

private theorem scanIPv4_dot {octets : List Nat} {value digits : Nat} (rest : List Char)
    (opened : 0 < digits) (room : octets.length < 3) :
    scanIPv4 ('.' :: rest) octets value digits = scanIPv4 rest (octets ++ [value]) 0 0 := by
  rw [scanIPv4, if_neg (by decide), if_pos rfl]
  exact if_neg (by omega)

def dottedChars (a b c d : Nat) : List Char :=
  Nat.toDigits 10 a ++ '.' :: (Nat.toDigits 10 b ++ '.' :: (Nat.toDigits 10 c ++ '.' :: Nat.toDigits 10 d))

theorem scanIPv4_dotted {a b c d : Nat} (ha : a < 256) (hb : b < 256) (hc : c < 256) (hd : d < 256) :
    scanIPv4 (dottedChars a b c d) [] 0 0 = some [a, b, c, d] := by
  have last : scanIPv4 (Nat.toDigits 10 d) [a, b, c] 0 0 = scanIPv4 [] [a, b, c] d (Nat.toDigits 10 d).length := by
    simpa only [append_nil] using scanIPv4_octet d hd [] [a, b, c]
  rw [dottedChars, scanIPv4_octet a ha, scanIPv4_dot _ Nat.length_toDigits_pos (by simp), nil_append,
    scanIPv4_octet b hb, scanIPv4_dot _ Nat.length_toDigits_pos (by simp), singleton_append,
    scanIPv4_octet c hc, scanIPv4_dot _ Nat.length_toDigits_pos (by simp), cons_append,
    singleton_append, last, scanIPv4]
  exact if_neg (by simp)

theorem IPv4.format_toList (address : IPv4) :
    address.format.toList =
      dottedChars (address.toNat / 2 ^ 24) (address.toNat / 2 ^ 16 % 256) (address.toNat / 2 ^ 8 % 256)
        (address.toNat % 256) := by
  simp [IPv4.format, IPv4.octets, dottedChars, Nat.toList_repr]

theorem parseIPv4_format (address : IPv4) : parseIPv4 address.format.toList = some address := by
  rw [parseIPv4, IPv4.format_toList, scanIPv4_dotted (by omega) (by omega) (by omega) (by omega), map_some,
    show [address.toNat / 2 ^ 24, address.toNat / 2 ^ 16 % 256, address.toNat / 2 ^ 8 % 256,
      address.toNat % 256] = address.octets from rfl, IPv4.octetsValue_octets]
  simp

theorem IPv4.format_injective : Function.Injective IPv4.format := by
  intro left right equal
  have readLeft := parseIPv4_format left
  rw [equal, parseIPv4_format right] at readLeft
  exact (some.inj readLeft).symm

private theorem find_separator_digits {digits rest : List Char} (isDigits : ∀ c ∈ digits, c.isDigit = true) :
    (digits ++ rest).find? (fun c => decide (c = '.' ∨ c = ':' ∨ c = '%')) =
      rest.find? fun c => decide (c = '.' ∨ c = ':' ∨ c = '%') := by
  rw [find?_append, find?_eq_none.mpr, none_or]
  intro c member
  have digit := isDigits c member
  rw [decide_eq_true_eq]
  rintro (rfl | rfl | rfl) <;> exact absurd digit (by decide)

theorem parseAddr_format (address : IPv4) :
    parseAddr address.format = some (true, IP.ofIPv4 address) := by
  have separator : address.format.toList.find? (fun c => decide (c = '.' ∨ c = ':' ∨ c = '%')) = some '.' := by
    rw [IPv4.format_toList, dottedChars, find_separator_digits fun c member =>
      Nat.isDigit_of_mem_toDigits (by decide) (by decide) member]
    rfl
  rw [parseAddr, separator]
  simp only [parseIPv4_format, map_some]

@[simp] theorem parseIP_format (address : IPv4) : parseIP address.format = some (IP.ofIPv4 address) := by
  rw [parseIP, parseAddr_format, map_some]

theorem format_ne_empty (address : IPv4) : address.format ≠ "" := by
  intro blank
  have parsed := parseIP_format address
  rw [blank] at parsed
  cases parsed

@[simp] theorem IP.format_ofIPv4 (address : IPv4) : (IP.ofIPv4 address).format = address.format := by
  rw [IP.format, IP.to4_ofIPv4]

theorem IP.colon_mem_format6 (ip : IP) : ':' ∈ ip.format6.toList := by
  rw [IP.format6]
  cases longestZeroRun ip.groups with
  | none => simp [IP.groups, range_succ]
  | some run => simp

theorem IPv4.colon_not_mem_format (address : IPv4) : ':' ∉ address.format.toList := by
  have digits : ∀ value, ':' ∉ Nat.toDigits 10 value := by
    intro value member
    exact absurd (Nat.isDigit_of_mem_toDigits (by decide) (by decide) member) (by decide)
  rw [IPv4.format_toList, dottedChars]
  simp [digits]

private theorem hexValue?_digitChar (digit : Nat) (small : digit < 16) :
    hexValue? (Nat.digitChar digit) = some digit := by
  have all : ∀ digit : Fin 16, hexValue? (Nat.digitChar digit) = some digit.val := by
    decide
  exact all ⟨digit, small⟩

theorem scanHexGroup_digits (value : Nat) (short : (Nat.toDigits 16 value).length ≤ 4) (rest : List Char) :
    scanHexGroup (Nat.toDigits 16 value ++ rest) 0 0 =
      scanHexGroup rest value (Nat.toDigits 16 value).length := by
  induction value using Nat.strong_induction_on generalizing rest with
  | _ value ih =>
    rw [Nat.toDigits_eq_if (by decide)] at short ⊢
    split
    case isTrue single =>
      simp only [singleton_append, scanHexGroup, hexValue?_digitChar value single]
      simp
    case isFalse several =>
      rw [if_neg several, length_append, length_singleton] at short
      rw [append_assoc, singleton_append, ih (value / 16) (by omega) (by omega)]
      simp only [scanHexGroup, hexValue?_digitChar (value % 16) (by omega), length_append, length_singleton]
      rw [if_neg (by omega)]
      congr 1
      omega

theorem hexDigits_length_le (value : Nat) (small : value < 65536) : (Nat.toDigits 16 value).length ≤ 4 :=
  (Nat.length_toDigits_le_iff (by decide) (by decide)).mpr (by simpa using small)

private theorem scanHexGroup_prefix {value : Nat} (small : value < 65536) (rest : List Char)
    (stops : ∀ c ∈ rest.head?, hexValue? c = none) :
    scanHexGroup (Nat.toDigits 16 value ++ rest) 0 0 =
      some (value, (Nat.toDigits 16 value).length, rest) := by
  rw [scanHexGroup_digits value (hexDigits_length_le value small)]
  cases rest with
  | nil => rfl
  | cons c tail => simp only [scanHexGroup, stops c rfl]

private theorem digitChar_injective {left right : Nat} (leftSmall : left < 16) (rightSmall : right < 16)
    (same : Nat.digitChar left = Nat.digitChar right) : left = right := by
  have read := congrArg hexValue? same
  rwa [hexValue?_digitChar left leftSmall, hexValue?_digitChar right rightSmall, some.injEq] at read

private theorem toDigits_injective {left right : Nat} (same : Nat.toDigits 16 left = Nat.toDigits 16 right) :
    left = right := by
  induction left using Nat.strong_induction_on generalizing right with
  | _ left ih =>
    rw [Nat.toDigits_eq_if (n := left) (by decide), Nat.toDigits_eq_if (n := right) (by decide)] at same
    split at same <;> split at same
    case isTrue.isTrue leftSmall rightSmall =>
      exact digitChar_injective leftSmall rightSmall (by simpa using same)
    case isTrue.isFalse =>
      have lengths := congrArg List.length same
      simp at lengths
    case isFalse.isTrue =>
      have lengths := congrArg List.length same
      simp at lengths
    case isFalse.isFalse leftLarge rightLarge =>
      obtain ⟨quotients, remainders⟩ := append_inj' same rfl
      have quotient := ih (left / 16) (by omega) quotients
      have remainder : left % 16 = right % 16 :=
        digitChar_injective (by omega) (by omega) (by simpa using remainders)
      omega

theorem hexText_injective : Function.Injective hexText := by
  intro left right same
  exact toDigits_injective (String.ofList_injective same)

def twoGroupText (first last : Nat) : String := hexText first ++ "::" ++ hexText last

def twoGroupValue (first last : Nat) : IP := BitVec.ofNat 128 (first * 2 ^ 112 + last)

theorem exists_hexDigit {c : Char} {value : Nat} (member : c ∈ Nat.toDigits 16 value) :
    ∃ digit : Fin 16, c = Nat.digitChar digit := by
  induction value using Nat.strong_induction_on with
  | _ value ih =>
    rw [Nat.toDigits_eq_if (by decide)] at member
    split at member
    case isTrue small => exact ⟨⟨value, small⟩, by simpa using member⟩
    case isFalse large =>
      rcases mem_append.mp member with early | final
      · exact ih (value / 16) (by omega) early
      · exact ⟨⟨value % 16, by omega⟩, by simpa using final⟩

private theorem hexDigit_not_separator {c : Char} {value : Nat} (member : c ∈ Nat.toDigits 16 value) :
    c ≠ '.' ∧ c ≠ ':' ∧ c ≠ '%' := by
  have plain : ∀ digit : Fin 16,
      Nat.digitChar digit ≠ '.' ∧ Nat.digitChar digit ≠ ':' ∧ Nat.digitChar digit ≠ '%' := by
    decide
  obtain ⟨digit, rfl⟩ := exists_hexDigit member
  exact plain digit

private theorem scanIPv6_group (room : Nat) {value : Nat} (small : value < 65536) (scan : IPv6Scan) (rest : List Char)
    (stops : ∀ c ∈ rest.head?, hexValue? c = none) (notDot : rest.head? ≠ some '.') :
    scanIPv6 (room + 1) (Nat.toDigits 16 value ++ rest) scan =
      match IPv6Scan.separator { scan with groups := scan.groups ++ [value] } rest with
      | none => none
      | some (scan, rest) => if rest = [] then some (scan, []) else scanIPv6 room rest scan := by
  have digits : (Nat.toDigits 16 value).length ≠ 0 := Nat.ne_of_gt Nat.length_toDigits_pos
  rw [scanIPv6, scanHexGroup_prefix small rest stops]
  exact (if_neg digits).trans (if_neg notDot)

private theorem scanIPv6_twoGroups {first last : Nat} (firstSmall : first < 65536) (lastSmall : last < 65536) :
    scanIPv6 8 (Nat.toDigits 16 first ++ ':' :: ':' :: Nat.toDigits 16 last)
        { groups := [], ellipsis := none } =
      some ({ groups := [first, last], ellipsis := some 1 }, []) := by
  have lastGroup := scanIPv6_group 6 lastSmall { groups := [first], ellipsis := some 1 } [] (by simp) (by simp)
  rw [append_nil] at lastGroup
  rw [scanIPv6_group 7 firstSmall _ _ (by simp; decide) (by simp)]
  have separated : IPv6Scan.separator { groups := [first], ellipsis := none } (':' :: ':' :: Nat.toDigits 16 last) =
      some ({ groups := [first], ellipsis := some 1 }, Nat.toDigits 16 last) := by
    simp [IPv6Scan.separator]
  simp only [nil_append, separated, Nat.toDigits_ne_nil, if_false, lastGroup]
  rfl

theorem parseIP_twoGroupText {first last : Nat} (firstSmall : first < 65536) (lastSmall : last < 65536) :
    parseIP (twoGroupText first last) = some (twoGroupValue first last) := by
  have chars : (twoGroupText first last).toList = Nat.toDigits 16 first ++ ':' :: ':' :: Nat.toDigits 16 last := by
    simp [twoGroupText, hexText]
  have separator : (twoGroupText first last).toList.find?
      (fun c => decide (c = '.' ∨ c = ':' ∨ c = '%')) = some ':' := by
    rw [chars, find?_append, find?_eq_none.mpr, none_or]
    · rfl
    · intro c member
      have plain := hexDigit_not_separator member
      simp [plain]
  have noZone : '%' ∉ (twoGroupText first last).toList := by
    rw [chars]
    simp only [mem_append, mem_cons, not_or]
    exact ⟨fun member => (hexDigit_not_separator member).2.2 rfl, by decide, by decide,
      fun member => (hexDigit_not_separator member).2.2 rfl⟩
  have notLeading : (twoGroupText first last).toList.take 2 ≠ [':', ':'] := by
    obtain ⟨head, tail, digits⟩ := exists_cons_of_ne_nil (Nat.toDigits_ne_nil (b := 16) (n := first))
    have member : head ∈ Nat.toDigits 16 first := by simp [digits]
    have plain := (hexDigit_not_separator member).2.1
    rw [chars, digits]
    simp [plain]
  have parsed : parseIPv6 (twoGroupText first last).toList = some (twoGroupValue first last) := by
    simp only [parseIPv6, notLeading, if_false, false_and]
    rw [chars, scanIPv6_twoGroups firstSmall lastSmall]
    refine congrArg some (congrArg (BitVec.ofNat 128) ?_)
    simp only [groupsValue, length_cons, length_nil, List.take, List.drop, List.replicate,
      cons_append, nil_append, foldl_cons, foldl_nil]
    omega
  rw [parseIP, parseAddr, separator]
  simp only [noZone, if_false, parsed, map_some]

theorem format_twoGroupValue {first last : Nat} (firstSet : 0 < first) (lastSet : 0 < last)
    (firstSmall : first < 65536) (lastSmall : last < 65536) :
    (twoGroupValue first last).format = twoGroupText first last := by
  have value : (twoGroupValue first last).toNat = first * 2 ^ 112 + last := by
    rw [twoGroupValue, BitVec.toNat_ofNat]
    omega
  have noIPv4 : (twoGroupValue first last).to4 = none := by
    rw [IP.to4, value, if_neg]
    omega
  have groups : (twoGroupValue first last).groups = [first, 0, 0, 0, 0, 0, 0, last] := by
    simp only [IP.groups, value, range_succ, range_zero, nil_append,
      map_cons, map_nil, cons_append, List.cons.injEq, and_true]
    omega
  obtain ⟨first, rfl⟩ := Nat.exists_eq_succ_of_ne_zero firstSet.ne'
  obtain ⟨last, rfl⟩ := Nat.exists_eq_succ_of_ne_zero lastSet.ne'
  rw [IP.format, noIPv4, IP.format6, groups]
  rfl

end Yaog.Net
