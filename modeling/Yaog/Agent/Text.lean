import Mathlib.Tactic

/-!
# Strings as bytes

The parts of `strings`, `path` and `encoding/hex` that the agent applies to bundle files and their names.
-/

namespace Yaog.Agent

abbrev Bytes := List UInt8

def utf8 (text : String) : Bytes := text.toUTF8.toList

def hexDigit (nibble : Nat) : UInt8 := if nibble < 10 then UInt8.ofNat (48 + nibble) else UInt8.ofNat (87 + nibble)

/-- `hex.EncodeToString`. -/
def hexEncode (bytes : Bytes) : Bytes :=
  bytes.flatMap fun byte => [hexDigit (byte.toNat / 16), hexDigit (byte.toNat % 16)]

/-- What `hex.DecodeString` takes for a digit. -/
def isHexDigit (byte : UInt8) : Bool :=
  (48 ≤ byte && byte ≤ 57) || (97 ≤ byte && byte ≤ 102) || (65 ≤ byte && byte ≤ 70)

def lowerASCII (byte : UInt8) : UInt8 := if 65 ≤ byte && byte ≤ 90 then byte + 32 else byte

/-- The bytes of one space in front, as `unicode.IsSpace` counts them. -/
def dropSpace : Bytes → Option Bytes
  | 0x09 :: rest | 0x0a :: rest | 0x0b :: rest | 0x0c :: rest | 0x0d :: rest | 0x20 :: rest => some rest
  | 0xc2 :: 0x85 :: rest | 0xc2 :: 0xa0 :: rest => some rest
  | 0xe1 :: 0x9a :: 0x80 :: rest => some rest
  | 0xe2 :: 0x80 :: last :: rest =>
    if (0x80 ≤ last && last ≤ 0x8a) || last = 0xa8 || last = 0xa9 || last = 0xaf then some rest else none
  | 0xe2 :: 0x81 :: 0x9f :: rest => some rest
  | 0xe3 :: 0x80 :: 0x80 :: rest => some rest
  | _ => none

def dropSpaceBack : Bytes → Option Bytes
  | 0x09 :: rest | 0x0a :: rest | 0x0b :: rest | 0x0c :: rest | 0x0d :: rest | 0x20 :: rest => some rest
  | 0x85 :: 0xc2 :: rest | 0xa0 :: 0xc2 :: rest => some rest
  | 0x80 :: 0x9a :: 0xe1 :: rest => some rest
  | 0x9f :: 0x81 :: 0xe2 :: rest => some rest
  | 0x80 :: 0x80 :: 0xe3 :: rest => some rest
  | last :: 0x80 :: 0xe2 :: rest =>
    if (0x80 ≤ last && last ≤ 0x8a) || last = 0xa8 || last = 0xa9 || last = 0xaf then some rest else none
  | _ => none

def trimWith (drop : Bytes → Option Bytes) : Nat → Bytes → Bytes
  | 0, bytes => bytes
  | fuel + 1, bytes =>
    match drop bytes with
    | none => bytes
    | some rest => trimWith drop fuel rest

/-- `strings.TrimSpace`. -/
def trimBytes (bytes : Bytes) : Bytes :=
  let front := trimWith dropSpace bytes.length bytes
  (trimWith dropSpaceBack front.length front.reverse).reverse

/-- The representative that `strings.EqualFold` gives the letters it compares with ASCII ones: besides the
capitals these are the Kelvin sign and the long s. -/
def foldCase : Bytes → Bytes
  | [] => []
  | 0xe2 :: 0x84 :: 0xaa :: rest => 107 :: foldCase rest
  | 0xc5 :: 0xbf :: rest => 115 :: foldCase rest
  | byte :: rest => lowerASCII byte :: foldCase rest

/-- `strings.EqualFold` against a text of ASCII characters. -/
def equalFold (bytes ascii : Bytes) : Bool := foldCase bytes = foldCase ascii

/-- `strings.Index`: what stands before the first occurrence, and what after it. -/
def cutAt (sep : Bytes) : Bytes → Option (Bytes × Bytes)
  | [] => if sep = [] then some ([], []) else none
  | byte :: rest =>
    if sep.isPrefixOf (byte :: rest) then some ([], (byte :: rest).drop sep.length)
    else (cutAt sep rest).map fun (before, after) => (byte :: before, after)

def slash : UInt8 := 47
def dot : Bytes := [46]
def dotDot : Bytes := [46, 46]

/-- The elements that `path.Clean` keeps, the last one first. -/
def cleanElements (rooted : Bool) : List Bytes → List Bytes → List Bytes
  | kept, [] => kept
  | kept, element :: rest =>
    if element = [] ∨ element = dot then cleanElements rooted kept rest
    else if element = dotDot then
      match kept with
      | [] => cleanElements rooted (if rooted then [] else [dotDot]) rest
      | last :: earlier =>
        if last = dotDot then cleanElements rooted (dotDot :: kept) rest
        else cleanElements rooted earlier rest
    else cleanElements rooted (element :: kept) rest

def isAbs (path : Bytes) : Bool := path.head? = some slash

/-- `path.Clean`. -/
def pathClean (path : Bytes) : Bytes :=
  let kept := (cleanElements (isAbs path) [] (path.splitOn slash)).reverse
  if isAbs path then slash :: [slash].intercalate kept
  else if kept = [] then dot
  else [slash].intercalate kept

/-- `path.Dir`. -/
def pathDir (path : Bytes) : Bytes :=
  pathClean (path.reverse.dropWhile (· ≠ slash)).reverse

end Yaog.Agent
