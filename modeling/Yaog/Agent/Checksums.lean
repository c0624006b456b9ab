import Yaog.Agent.ManifestBinding
import Yaog.Data.Lines

/-!
# The checksums that the exporter writes

The exporter lists a bundle's members with their digests, and the agent parses the list with code of its own.
-/

namespace Yaog.Agent

open List Data

inductive MemberError where
  | notCanonical (path : Bytes)
  | collide (first path : Bytes)
  deriving DecidableEq, Repr

/-- The characters of `\:`, the line breaks and the zero byte. -/
def unportable : Bytes := [92, 58, 13, 10, 0]

variable (platform : Platform)

/-- `validateBundleMemberPaths`, with the paths checked so far under their folded names. -/
def validateBundleMemberPaths (caseFolded : List (Bytes × Bytes)) : List Bytes → Except MemberError Unit
  | [] => .ok ()
  | rel :: rest =>
    if rel = [] ∨ isAbs rel ∨ pathClean rel ≠ rel ∨ rel.any unportable.contains then .error (.notCanonical rel)
    else
      match caseFolded.lookup (platform.toLower rel) with
      | some first => .error (.collide first rel)
      | none => validateBundleMemberPaths ((platform.toLower rel, rel) :: caseFolded) rest

def checksumLine (files : Bundle) (path : Bytes) : Bytes :=
  platform.digest ((files.get? path).getD []) ++ utf8 "  " ++ path

def canonicalize (files : Bundle) : Bytes :=
  (files.paths.mergeSort fun first second => decide (first ≤ second)).flatMap fun path =>
    checksumLine platform files path ++ [newline]

variable {platform} {files : Bundle} {listed : List (Bytes × Bytes)}

theorem validateBundleMemberPaths_ok {caseFolded : List (Bytes × Bytes)} {paths : List Bytes}
    (accepted : validateBundleMemberPaths platform caseFolded paths = .ok ()) :
    ∀ path ∈ paths, path ≠ [] ∧ newline ∉ path := by
  induction paths generalizing caseFolded with
  | nil => simp
  | cons rel rest ih =>
    rw [validateBundleMemberPaths] at accepted
    split at accepted
    · cases accepted
    · next canonical =>
      split at accepted
      · cases accepted
      · refine forall_mem_cons.mpr ⟨?_, ih accepted⟩
        simp only [not_or, any_eq_true, not_exists, not_and] at canonical
        exact ⟨canonical.1, fun broken => canonical.2.2.2 newline broken (by decide)⟩

/-- A digest is written with the digits of `%x`. -/
theorem digest_digits (content : Bytes) : ∀ byte ∈ platform.digest content,
    isHexDigit byte = true ∧ lowerASCII byte = byte ∧ byte ≠ 32 ∧ byte ≠ newline :=
  forall_mem_hexEncode (by decide) _

theorem length_digest (content : Bytes) : (platform.digest content).length = 64 := by
  simp [Platform.digest, hexEncode]

theorem cutAt_append {before : Bytes} (free : 32 ∉ before) (after : Bytes) :
    cutAt [32, 32] (before ++ 32 :: 32 :: after) = some (before, after) := by
  induction before with
  | nil => simp [cutAt]
  | cons byte before ih =>
    obtain ⟨other, free⟩ := not_or.mp (mt mem_cons.mpr free)
    simp [cutAt, ih free, other]

theorem parseLine_checksumLine {path : Bytes} (number : Nat) (named : path ≠ []) (fresh : listed.lookup path = none) :
    parseLine number listed (checksumLine platform files path) =
      .ok (path, platform.digest ((files.get? path).getD [])) := by
  have digits := @digest_digits platform ((files.get? path).getD [])
  have spaces : utf8 "  " = [32, 32] := by decide +kernel
  have cut := cutAt_append (fun space => (digits _ space).2.2.1 rfl) path
  have hex : (platform.digest ((files.get? path).getD [])).all isHexDigit = true :=
    all_eq_true.mpr fun byte member => (digits byte member).1
  have lower : (platform.digest ((files.get? path).getD [])).map lowerASCII = platform.digest _ :=
    map_congr_left (fun byte member => (digits byte member).2.1) |>.trans (map_id' _)
  simp [parseLine, checksumLine, spaces, cut, length_digest, hex, named, fresh, lower]

variable (platform files) in
/-- What the agent lists for the paths. -/
def listing (paths : List Bytes) : List (Bytes × Bytes) :=
  paths.map fun path => (path, platform.digest ((files.get? path).getD []))

theorem parseLines_checksumLines {paths : List Bytes} (named : ∀ path ∈ paths, path ≠ []) (nodup : paths.Nodup)
    (number : Nat) (fresh : ∀ path ∈ paths, listed.lookup path = none) :
    parseLines number listed (paths.map (checksumLine platform files) ++ [[]]) =
      .ok (listed ++ listing platform files paths) := by
  induction paths generalizing number listed with
  | nil => simp [parseLines, listing]
  | cons path paths ih =>
    obtain ⟨namedHere, named⟩ := forall_mem_cons.mp named
    obtain ⟨freshHere, fresh⟩ := forall_mem_cons.mp fresh
    obtain ⟨apart, nodup⟩ := nodup_cons.mp nodup
    rw [map_cons, cons_append, parseLines.eq_3 _ _ _ _ (by simp [checksumLine, namedHere]),
      parseLine_checksumLine number namedHere freshHere]
    refine (ih named nodup (number + 1) ?_).trans ?_
    · intro later member
      rw [lookup_append, fresh later member, Option.none_or, lookup_eq_none_iff]
      intro entry here
      rw [mem_singleton.mp here, bne_iff_ne]
      rintro rfl
      exact apart member
    · rw [append_assoc]
      rfl

theorem lookup_listing {paths : List Bytes} (whole : ∀ path, path ∈ paths ↔ path ∈ files.paths) (path : Bytes) :
    (listing platform files paths).lookup path = (files.get? path).map platform.digest := by
  cases held : files.get? path with
  | some content =>
    have member : path ∈ files.paths := mem_map_of_mem (files.mem_files_of_get? held)
    rw [listing, lookup_graph (fun path => platform.digest ((files.get? path).getD [])) ((whole path).mpr member), held]
    rfl
  | none =>
    rw [Option.map_none, lookup_eq_none_iff]
    intro entry member
    obtain ⟨other, inPaths, rfl⟩ := mem_map.mp member
    obtain ⟨file, inFiles, rfl⟩ := mem_map.mp ((whole other).mp inPaths)
    exact lookup_eq_none_iff.mp held file inFiles

/-- The agent reads back the exporter's list of every bundle that has a member. -/
theorem checksums_read_back (platform : Platform) (files : Bundle) (nonempty : files.files ≠ [])
    (accepted : validateBundleMemberPaths platform [] files.paths = .ok ()) :
    ∃ listed, parseChecksums (canonicalize platform files) = .ok listed ∧
      ∀ path, listed.lookup path = (files.get? path).map platform.digest := by
  let paths := files.paths.mergeSort fun first second => decide (first ≤ second)
  have whole (path : Bytes) : path ∈ paths ↔ path ∈ files.paths := mem_mergeSort
  have members := validateBundleMemberPaths_ok accepted
  have named : ∀ path ∈ paths, path ≠ [] := fun path member => (members path ((whole path).mp member)).1
  have nodup : paths.Nodup := (mergeSort_perm _ _).nodup_iff.mpr files.nodup
  have lines : (canonicalize platform files).splitOn newline = paths.map (checksumLine platform files) ++ [[]] := by
    rw [← splitOn_flatMap _ not_mem_nil, flatMap_map, append_nil]
    · rfl
    intro line member
    obtain ⟨path, inPaths, rfl⟩ := mem_map.mp member
    have spaces : newline ∉ utf8 "  " := by decide +kernel
    simp only [checksumLine, mem_append, not_or]
    exact ⟨⟨fun broken => (digest_digits _ _ broken).2.2.2 rfl, spaces⟩, (members path ((whole path).mp inPaths)).2⟩
  refine ⟨listing platform files paths, ?_, lookup_listing whole⟩
  have parsed : parseLines 1 [] ((canonicalize platform files).splitOn newline) = .ok (listing platform files paths) :=
    lines ▸ parseLines_checksumLines named nodup 1 fun _ _ => lookup_nil
  have some : listing platform files paths ≠ [] := by
    obtain ⟨file, member⟩ := exists_mem_of_ne_nil _ nonempty
    exact ne_nil_of_mem (mem_map_of_mem ((whole file.1).mpr (mem_map_of_mem member)))
  rw [parseChecksums]
  exact (congrArg (· >>= _) parsed).trans (if_neg some)

def emptyBundle : Bundle := ⟨[], nodup_nil⟩

theorem emptyBundle_refused :
    validateBundleMemberPaths samplePlatform [] emptyBundle.paths = .ok () ∧
      parseChecksums (canonicalize samplePlatform emptyBundle) = .error .listsNoFiles := by
  decide +kernel

/-- Two members, one under a name that begins with blanks. -/
def blankBundle : Bundle := ⟨[(utf8 "install.sh", utf8 "#!/bin/sh"), (utf8 "  a b", utf8 "a\nb")], by decide +kernel⟩

theorem blankBundle_read_back :
    ∃ listed, parseChecksums (canonicalize samplePlatform blankBundle) = .ok listed ∧
      ∀ path, listed.lookup path = (blankBundle.get? path).map samplePlatform.digest :=
  checksums_read_back samplePlatform blankBundle (cons_ne_nil _ _) (by decide +kernel)

end Yaog.Agent
