import Yaog.Model.Topology

/-!
# Portable node identifiers and WireGuard interface names

The functions this development leaves open are collected in `Externals`: SHA-256, the quoting verb of
`fmt`, and the checks of a node's telemetry probes.
-/

namespace Yaog

open List

structure Externals where
  sha256 : String → Fin 32 → BitVec 8
  /-- The verb `%q`. -/
  quote : String → String
  /-- `probepolicy.Validate`: the text of its error, if any. -/
  validateProbes : List TelemetryProbe → Option String

/-- `unicode.ToLower`, exact on the characters whose lower case is ASCII. -/
def lowerChar (c : Char) : Char :=
  if c = '\u0130' then 'i' else if c = '\u212a' then 'k' else c.toLower

def lowerText (text : String) : String := String.ofList (text.toList.map lowerChar)

def isLetter (c : Char) : Bool := ('a' ≤ c && c ≤ 'z') || ('A' ≤ c && c ≤ 'Z')

/-- The class `[A-Za-z0-9._-]`. -/
def isIDChar (c : Char) : Bool := isLetter c || c.isDigit || c = '.' || c = '_' || c = '-'

def maxPortableNodeIDLength : Nat := 240

/-- `PortableNodeIDKey`. -/
def portableNodeIDKey (id : String) : String := lowerText id

/-- `ValidPortableNodeID`: no Windows device name, no name of a project-level helper. -/
def validPortableNodeID (id : String) : Bool :=
  let folded := portableNodeIDKey id
  let base := folded.toList.takeWhile (· ≠ '.')
  !(id = "" || id = "." || id = ".." || maxPortableNodeIDLength < id.length || id.toList.getLast? = some '.')
    && id.toList.all isIDChar
    && !(folded = "deploy-all.sh" || folded = "deploy-all.ps1")
    && !(base = "con".toList || base = "prn".toList || base = "aux".toList || base = "nul".toList)
    && !(base.length = 4 && (base.take 3 = "com".toList || base.take 3 = "lpt".toList)
      && (base.drop 3).all fun c => '1' ≤ c && c ≤ '9')

/-- `cleanInterfaceName`. -/
def cleanInterfaceName (remoteName : String) : List Char :=
  (lowerText remoteName).toList.map fun c =>
    if ('a' ≤ c && c ≤ 'z') || c.isDigit || c = '-' then c else '-'

def hexByte (byte : BitVec 8) : List Char :=
  [Nat.digitChar (byte.toNat / 16), Nat.digitChar (byte.toNat % 16)]

section

variable (env : Externals)

def hashSuffix (text : String) : List Char := hexByte (env.sha256 text 0) ++ hexByte (env.sha256 text 1)

def hashedInterfaceName (remoteName hashInput : String) : String :=
  String.ofList ("wg-".toList ++ (cleanInterfaceName remoteName).take 8 ++ hashSuffix env hashInput)

/-- `WgInterfaceName`. -/
def wgInterfaceName (remoteName : String) : String :=
  let name := "wg-".toList ++ cleanInterfaceName remoteName
  if name.length ≤ 15 then String.ofList name else hashedInterfaceName env remoteName remoteName

/-- `WgInterfaceNameForEdge`. -/
def wgInterfaceNameForEdge (remoteName edgeID : String) (backup : Bool) : String :=
  if backup then hashedInterfaceName env remoteName (remoteName ++ "|" ++ edgeID)
  else wgInterfaceName env remoteName

end

def isInterfaceChar (c : Char) : Bool := ('a' ≤ c && c ≤ 'z') || c.isDigit || c = '-'

/-- A name the kernel takes for an interface. -/
structure UsableName (name : String) : Prop where
  chars : ∀ c ∈ name.toList, isInterfaceChar c = true
  short : name.utf8ByteSize ≤ 15

theorem isInterfaceChar_digitChar {digit : Nat} (small : digit < 16) :
    isInterfaceChar (Nat.digitChar digit) = true := by
  have all : ∀ digit < 16, isInterfaceChar (Nat.digitChar digit) = true := by decide
  exact all digit small

theorem isInterfaceChar_hexByte {byte : BitVec 8} {c : Char} (member : c ∈ hexByte byte) : isInterfaceChar c = true := by
  rcases mem_pair.mp member with rfl | rfl
  · exact isInterfaceChar_digitChar (by omega)
  · exact isInterfaceChar_digitChar (by omega)

theorem isInterfaceChar_clean {remoteName : String} {c : Char} (member : c ∈ cleanInterfaceName remoteName) :
    isInterfaceChar c = true := by
  obtain ⟨given, -, rfl⟩ := mem_map.mp member
  split
  case isTrue kept => exact kept
  case isFalse => decide

theorem utf8Size_interfaceChar {c : Char} (usable : isInterfaceChar c = true) : c.utf8Size = 1 := by
  have bound : ∀ last : Char, last.val ≤ 0x7f → c ≤ last → c.utf8Size = 1 := fun _ small below =>
    Char.utf8Size_eq_one_iff.mpr (UInt32.le_trans below small)
  simp only [isInterfaceChar, Char.isDigit, Bool.or_eq_true, Bool.and_eq_true, decide_eq_true_eq] at usable
  rcases usable with (letter | digit) | rfl
  · exact bound 'z' (by decide) letter.2
  · exact bound '9' (by decide) digit.2
  · decide

theorem utf8ByteSize_interfaceChars {chars : List Char} (each : ∀ c ∈ chars, isInterfaceChar c = true) :
    (String.ofList chars).utf8ByteSize = chars.length := by
  induction chars with
  | nil => rfl
  | cons c rest ih =>
    obtain ⟨first, later⟩ := forall_mem_cons.mp each
    rw [String.ofList_cons, String.utf8ByteSize_append, String.utf8ByteSize_singleton, utf8Size_interfaceChar first,
      ih later, length_cons]
    omega

theorem usableName_ofList {chars : List Char} (each : ∀ c ∈ chars, isInterfaceChar c = true)
    (short : chars.length ≤ 15) : UsableName (String.ofList chars) :=
  ⟨by rwa [String.toList_ofList], by rwa [utf8ByteSize_interfaceChars each]⟩

section

variable (env : Externals) (remoteName : String)

theorem hashedInterfaceName_usable (hashInput : String) : UsableName (hashedInterfaceName env remoteName hashInput) := by
  refine usableName_ofList (fun c member => ?_) ?_
  · simp only [hashSuffix, mem_append] at member
    rcases member with (lead | cleaned) | first | second
    · exact all_eq_true.mp (show "wg-".toList.all isInterfaceChar = true by decide) c lead
    · exact isInterfaceChar_clean (mem_of_mem_take cleaned)
    · exact isInterfaceChar_hexByte first
    · exact isInterfaceChar_hexByte second
  · have lead : "wg-".toList.length = 3 := by decide
    simp only [hashSuffix, hexByte, length_append, length_take, length_cons, length_nil, lead]
    omega

theorem wgInterfaceName_usable : UsableName (wgInterfaceName env remoteName) := by
  rw [wgInterfaceName]
  split
  case isTrue short =>
    refine usableName_ofList (fun c member => ?_) short
    rcases mem_append.mp member with lead | cleaned
    · exact all_eq_true.mp (show "wg-".toList.all isInterfaceChar = true by decide) c lead
    · exact isInterfaceChar_clean cleaned
  case isFalse => exact hashedInterfaceName_usable env remoteName remoteName

theorem wgInterfaceNameForEdge_usable (edgeID : String) (backup : Bool) :
    UsableName (wgInterfaceNameForEdge env remoteName edgeID backup) := by
  rw [wgInterfaceNameForEdge]
  split
  · exact hashedInterfaceName_usable env remoteName _
  · exact wgInterfaceName_usable env remoteName

end

end Yaog
