import Yaog.Agent.Verify
import Yaog.Data.Durable

/-!
# The signed trust list determines the bundle

Two bundles that pass the gates under one trust list list the same files with the same contents.
-/

namespace Yaog.Agent

open Data (bind_ok)

theorem hexDigit_injective : ∀ first < 16, ∀ second < 16, hexDigit first = hexDigit second → first = second := by
  decide

theorem hexEncode_injective {first second : Bytes} (same : hexEncode first = hexEncode second) : first = second := by
  induction first generalizing second with
  | nil =>
    cases second with
    | nil => rfl
    | cons byte rest => simp [hexEncode] at same
  | cons byte rest ih =>
    cases second with
    | nil => simp [hexEncode] at same
    | cons other later =>
      simp only [hexEncode, List.flatMap_cons, List.cons_append, List.nil_append, List.cons.injEq] at same
      obtain ⟨high, low, same⟩ := same
      have bound (byte : UInt8) : byte.toNat / 16 < 16 := by
        have := byte.toNat_lt
        omega
      have high := hexDigit_injective _ (bound byte) _ (bound other) high
      have low := hexDigit_injective _ (Nat.mod_lt _ (by decide)) _ (Nat.mod_lt _ (by decide)) low
      have whole : byte = other := by
        apply UInt8.toNat_inj.mp
        omega
      rw [whole, ih same]

def Folded (byte : UInt8) : Prop := byte < 65 ∨ 91 ≤ byte ∧ byte < 128

theorem foldCase_of_folded {bytes : Bytes} (folded : ∀ byte ∈ bytes, Folded byte) : foldCase bytes = bytes := by
  induction bytes with
  | nil => rfl
  | cons byte rest ih =>
    have here := folded byte List.mem_cons_self
    have later := ih fun byte member => folded byte (List.mem_cons_of_mem _ member)
    unfold foldCase
    split
    · next impossible => cases impossible
    · next same => exact absurd ((List.cons.inj same).1 ▸ here) (by unfold Folded; decide)
    · next same => exact absurd ((List.cons.inj same).1 ▸ here) (by unfold Folded; decide)
    · next same =>
      obtain ⟨rfl, rfl⟩ := List.cons.inj same
      rw [later, lowerASCII, if_neg]
      unfold Folded at here
      simp only [Bool.and_eq_true, decide_eq_true_eq, UInt8.le_iff_toNat_le, UInt8.lt_iff_toNat_lt] at here ⊢
      have bounds : (65 : UInt8).toNat = 65 ∧ (90 : UInt8).toNat = 90 ∧ (91 : UInt8).toNat = 91 := by decide
      omega

theorem forall_mem_hexEncode {good : UInt8 → Prop} (digits : ∀ nibble < 16, good (hexDigit nibble)) (bytes : Bytes) :
    ∀ byte ∈ hexEncode bytes, good byte := by
  intro byte member
  obtain ⟨source, -, member⟩ := List.mem_flatMap.mp member
  rcases List.mem_cons.mp member with rfl | member
  · have := source.toNat_lt
    exact digits _ (by omega)
  · rw [List.mem_singleton.mp member]
    exact digits _ (Nat.mod_lt _ (by decide))

theorem folded_hexEncode (bytes : Bytes) : ∀ byte ∈ hexEncode bytes, Folded byte :=
  forall_mem_hexEncode (by unfold Folded; decide) bytes

theorem digest_eq_of_equalFold {platform : Platform} {bound first second : Bytes}
    (one : equalFold bound (platform.digest first) = true) (two : equalFold bound (platform.digest second) = true) :
    platform.sha256 first = platform.sha256 second := by
  have same : foldCase (platform.digest first) = foldCase (platform.digest second) :=
    (of_decide_eq_true one).symm.trans (of_decide_eq_true two)
  rw [Platform.digest, Platform.digest, foldCase_of_folded (folded_hexEncode _),
    foldCase_of_folded (folded_hexEncode _)] at same
  exact Vector.toList_inj.mp (hexEncode_injective same)

section

variable {platform : Platform} {bundle : Bundle} {reason : VerifyError} {path : Bytes}

theorem refuseIf_ok {condition : Prop} [Decidable condition] {result : Unit}
    (passes : refuseIf condition reason = .ok result) : ¬condition := by
  unfold refuseIf at passes
  split at passes
  · cases passes
  · assumption

theorem verifyFiles_ok {listed : List (Bytes × Bytes)} (passes : verifyFiles platform bundle listed = .ok ()) :
    ∀ entry ∈ listed, ∃ content, bundle.get? entry.1 = some content ∧ platform.digest content = entry.2 := by
  induction listed with
  | nil => exact nofun
  | cons first rest ih =>
    obtain ⟨path, want⟩ := first
    unfold verifyFiles at passes
    split at passes
    · cases passes
    · next content found =>
      split at passes
      · cases passes
      · next same =>
        intro entry member
        rcases List.mem_cons.mp member with rfl | later
        · exact ⟨content, found, not_not.mp same⟩
        · exact ih passes entry later

theorem requireCovered_ok {listed : List (Bytes × Bytes)}
    (passes : requireCovered bundle listed path = .ok ()) (present : (bundle.get? path).isSome) :
    (listed.lookup path).isSome := by
  by_contra absent
  exact refuseIf_ok passes ⟨present, absent⟩

/-- A bundle that passed: its checksums list its files, and cover the ones that are acted on. -/
structure Verified (platform : Platform) (bundle : Bundle) (checksums : Bytes) (listed : List (Bytes × Bytes)) :
    Prop where
  present : bundle.get? checksumsFile = some checksums
  parsed : parseChecksums checksums = .ok listed
  files : ∀ entry ∈ listed, ∃ content, bundle.get? entry.1 = some content ∧ platform.digest content = entry.2
  install : (listed.lookup installFile).isSome
  covered : ∀ path ∈ [artifactsFile, policyFile, successorPolicyFile], (bundle.get? path).isSome →
    (listed.lookup path).isSome

theorem verifyBundle_ok {pinnedPubPEM : Bytes} {result : VerifyResult}
    (passes : verifyBundle platform bundle pinnedPubPEM = .ok result) :
    ∃ checksums listed, Verified platform bundle checksums listed := by
  unfold verifyBundle at passes
  split at passes
  · cases passes
  · next checksums found =>
    obtain ⟨listed, parsed, passes⟩ := bind_ok passes
    obtain ⟨-, -, passes⟩ := bind_ok passes
    obtain ⟨signed, -, passes⟩ := bind_ok passes
    obtain ⟨⟨⟩, files, passes⟩ := bind_ok passes
    obtain ⟨-, -, passes⟩ := bind_ok passes
    obtain ⟨⟨⟩, install, passes⟩ := bind_ok passes
    obtain ⟨⟨⟩, artifacts, passes⟩ := bind_ok passes
    obtain ⟨⟨⟩, policy, passes⟩ := bind_ok passes
    obtain ⟨⟨⟩, successor, passes⟩ := bind_ok passes
    refine ⟨checksums, listed, found, parsed, verifyFiles_ok files, not_not.mp (refuseIf_ok install), ?_⟩
    intro path member present
    simp only [List.mem_cons, List.not_mem_nil, or_false] at member
    rcases member with rfl | rfl | rfl
    · exact requireCovered_ok artifacts present
    · exact requireCovered_ok policy present
    · exact requireCovered_ok successor present

theorem requireFile_ok {content : Bytes} (found : requireFile bundle path = .ok content) :
    bundle.get? path = some content := by
  unfold requireFile at found
  split at found
  · cases found
  · next held => rw [held, Except.ok.inj found]

theorem decodeOr_ok {α : Type} {decoded : Option α} {value : α}
    (returns : decodeOr decoded reason = .ok value) : decoded = some value := by
  unfold decodeOr at returns
  split at returns
  · cases returns
  · rw [Except.ok.inj returns]

theorem verifyMembership_ok {config : MembershipConfig} {floor epoch : Int} (pinned : config.operatorCredPEM ≠ [])
    (passes : verifyMembership platform bundle config floor = .ok epoch) :
    ∃ trustListJSON list checksums bound, bundle.get? trustListFile = some trustListJSON ∧
      platform.decodeTrustList trustListJSON = some list ∧ bundle.get? checksumsFile = some checksums ∧
      boundDigest list config.nodeID = .ok bound ∧ equalFold bound (platform.digest checksums) = true ∧
      list.epoch = epoch ∧ floor ≤ epoch := by
  unfold verifyMembership at passes
  rw [if_neg pinned] at passes
  obtain ⟨trustListJSON, trustList, passes⟩ := bind_ok passes
  obtain ⟨signatureJSON, -, passes⟩ := bind_ok passes
  obtain ⟨checksums, integrity, passes⟩ := bind_ok passes
  obtain ⟨list, decoded, passes⟩ := bind_ok passes
  obtain ⟨signed, -, passes⟩ := bind_ok passes
  obtain ⟨content, -, passes⟩ := bind_ok passes
  obtain ⟨-, -, passes⟩ := bind_ok passes
  obtain ⟨pin, -, passes⟩ := bind_ok passes
  obtain ⟨-, -, passes⟩ := bind_ok passes
  obtain ⟨bound, binds, passes⟩ := bind_ok passes
  obtain ⟨⟨⟩, matching, passes⟩ := bind_ok passes
  obtain ⟨keys, -, passes⟩ := bind_ok passes
  obtain ⟨-, -, passes⟩ := bind_ok passes
  obtain ⟨⟨⟩, fresh, passes⟩ := bind_ok passes
  cases passes
  exact ⟨trustListJSON, list, checksums, bound, requireFile_ok trustList, decodeOr_ok decoded,
    requireFile_ok integrity, binds, not_not.mp (refuseIf_ok matching), rfl, Int.not_lt.mp (refuseIf_ok fresh)⟩

def Bundle.listed (bundle : Bundle) : Except VerifyError (List (Bytes × Bytes)) := do
  let checksums ← requireFile bundle checksumsFile
  parseChecksums checksums

def CollisionFree (platform : Platform) (first second : Bundle) : Prop :=
  ∀ one ∈ first.files, ∀ two ∈ second.files, platform.sha256 one.2 = platform.sha256 two.2 → one.2 = two.2

theorem Bundle.mem_files_of_get? {content : Bytes} (found : bundle.get? path = some content) :
    (path, content) ∈ bundle.files := by
  obtain ⟨before, after, split, -⟩ := List.lookup_eq_some_iff.mp found
  rw [split]
  exact List.mem_append_right _ List.mem_cons_self

theorem mem_of_lookup_isSome {listed : List (Bytes × Bytes)} (found : (listed.lookup path).isSome) :
    ∃ entry ∈ listed, entry.1 = path := by
  obtain ⟨digest, found⟩ := Option.isSome_iff_exists.mp found
  obtain ⟨before, after, split, -⟩ := List.lookup_eq_some_iff.mp found
  exact ⟨(path, digest), split ▸ List.mem_append_right _ List.mem_cons_self, rfl⟩

variable {first second : Bundle} {checksums : Bytes} {listed : List (Bytes × Bytes)}

theorem Verified.get?_eq (one : Verified platform first checksums listed)
    (two : Verified platform second checksums listed) (apart : CollisionFree platform first second)
    {entry : Bytes × Bytes} (member : entry ∈ listed) :
    (first.get? entry.1).isSome ∧ first.get? entry.1 = second.get? entry.1 := by
  obtain ⟨content, held, digest⟩ := one.files entry member
  obtain ⟨other, heldToo, digestToo⟩ := two.files entry member
  have same : platform.sha256 content = platform.sha256 other :=
    Vector.toList_inj.mp (hexEncode_injective (digest.trans digestToo.symm))
  have equal := apart _ (first.mem_files_of_get? held) _ (second.mem_files_of_get? heldToo) same
  rw [held, heldToo]
  exact ⟨rfl, congrArg some equal⟩

theorem Verified.covered_eq (one : Verified platform first checksums listed)
    (two : Verified platform second checksums listed) (apart : CollisionFree platform first second)
    (member : path ∈ [artifactsFile, policyFile, successorPolicyFile]) :
    first.get? path = second.get? path := by
  have fromListed (found : (listed.lookup path).isSome) : first.get? path = second.get? path := by
    obtain ⟨entry, among, rfl⟩ := mem_of_lookup_isSome found
    exact (one.get?_eq two apart among).2
  cases held : first.get? path with
  | some content =>
    rw [← held]
    exact fromListed (one.covered path member (by rw [held]; rfl))
  | none =>
    cases heldToo : second.get? path with
    | some content =>
      rw [← held, ← heldToo]
      exact fromListed (two.covered path member (by rw [heldToo]; rfl))
    | none => rfl

theorem Verified.listed_eq (verified : Verified platform bundle checksums listed) :
    bundle.listed = .ok listed := by
  simp only [Bundle.listed, requireFile, verified.present, bind, Except.bind, verified.parsed]

end

/-- Bundles that pass both gates with the same trust list, under one pinned operator credential, list the
same files and hold the same bytes in them. -/
theorem trust_list_determines_bundle (platform : Platform) (config : MembershipConfig) (first second : Bundle)
    (pinnedPubPEM pinnedPubPEM' : Bytes) (floor floor' epoch epoch' : Int) (result result' : VerifyResult)
    (pinned : config.operatorCredPEM ≠ []) (apart : CollisionFree platform first second)
    (verified : verifyBundle platform first pinnedPubPEM = .ok result)
    (verified' : verifyBundle platform second pinnedPubPEM' = .ok result')
    (member : verifyMembership platform first config floor = .ok epoch)
    (member' : verifyMembership platform second config floor' = .ok epoch')
    (same : first.get? trustListFile = second.get? trustListFile) :
    ∃ listed, first.listed = .ok listed ∧ second.listed = .ok listed ∧
      (∀ entry ∈ listed, (first.get? entry.1).isSome ∧ first.get? entry.1 = second.get? entry.1) ∧
      ((first.get? installFile).isSome ∧ first.get? installFile = second.get? installFile) ∧
      first.get? artifactsFile = second.get? artifactsFile ∧
      first.get? policyFile = second.get? policyFile ∧
      first.get? successorPolicyFile = second.get? successorPolicyFile := by
  obtain ⟨checksums, listed, one⟩ := verifyBundle_ok verified
  obtain ⟨checksums', listed', two⟩ := verifyBundle_ok verified'
  obtain ⟨json, list, held, bound, signed, decoded, present, binds, matching, -⟩ :=
    verifyMembership_ok pinned member
  obtain ⟨json', list', held', bound', signed', decoded', present', binds', matching', -⟩ :=
    verifyMembership_ok pinned member'
  -- one trust list binds one digest, so the checksums are the same bytes
  obtain rfl : json = json' := by
    rw [signed, signed'] at same
    exact Option.some.inj same
  obtain rfl : list = list' := Option.mem_unique decoded decoded'
  obtain rfl : bound = bound' := Except.ok.inj (binds.symm.trans binds')
  obtain rfl : held = checksums := Option.mem_unique present one.present
  obtain rfl : held' = checksums' := Option.mem_unique present' two.present
  obtain rfl : held = held' := apart _ (first.mem_files_of_get? present) _ (second.mem_files_of_get? present')
    (digest_eq_of_equalFold matching matching')
  obtain rfl : listed = listed' := Except.ok.inj (one.parsed.symm.trans two.parsed)
  obtain ⟨install, covers, isInstall⟩ := mem_of_lookup_isSome one.install
  refine ⟨listed, one.listed_eq, two.listed_eq, fun entry => one.get?_eq two apart,
    isInstall ▸ one.get?_eq two apart covers, ?_, ?_, ?_⟩
  · exact one.covered_eq two apart (by simp)
  · exact one.covered_eq two apart (by simp)
  · exact one.covered_eq two apart (by simp)

def sampleHash (content : Bytes) : Vector UInt8 32 := Vector.ofFn fun index => content.getD index.val 0

def sampleScript : Bytes := utf8 "#!/bin/sh\n"

def sampleChecksums : Bytes := hexEncode (sampleHash sampleScript).toList ++ utf8 "  install.sh\n"

def sampleTrustList : TrustList where
  schemaVersion := 1
  tenant := "home"
  epoch := 3
  members := [{
    nodeID := "alpha"
    wgPublicKey := "key"
    bundleSHA256 :=
      String.ofList ((hexEncode (sampleHash sampleChecksums).toList).map fun byte => Char.ofNat byte.toNat) }]

def samplePlatform : Platform where
  sha256 := sampleHash
  verify _ _ _ := true
  verifyAssertion _ _ _ := false
  parsePinnedPublicKey := some
  parseES256Pin := some
  decodeBase64 := some
  decodeBase64URL text := some (utf8 text)
  decodeTrustList json := if json = utf8 "trust list" then some sampleTrustList else none
  decodeSignedTrustList _ :=
    some { alg := .ed25519, credentialID := "operator", publicKey := "", signature := "" }
  encodeTrustList _ := utf8 "trust list"
  toLower bytes := bytes.map lowerASCII

def sampleMembership : MembershipConfig where
  nodeID := "alpha"
  operatorCredPEM := utf8 "pem"
  operatorCredAlg := .ed25519
  operatorRPID := ""
  operatorOrigin := ""

/-- A bundle whose manifest, which is not signed, says when it was compiled. -/
def sampleBundle (manifest : String) : Bundle where
  files := [(installFile, sampleScript), (checksumsFile, sampleChecksums), (trustListFile, utf8 "trust list"),
    (trustListSigFile, utf8 "signature"), (manifestFile, utf8 manifest)]
  nodup := show [installFile, checksumsFile, trustListFile, trustListSigFile, manifestFile].Nodup by decide +kernel

theorem sampleBundles_agree :
    (sampleBundle "first").get? manifestFile ≠ (sampleBundle "second").get? manifestFile ∧
      ∃ listed, (sampleBundle "first").listed = .ok listed ∧ (sampleBundle "second").listed = .ok listed ∧
        (∀ entry ∈ listed, ((sampleBundle "first").get? entry.1).isSome ∧
          (sampleBundle "first").get? entry.1 = (sampleBundle "second").get? entry.1) ∧
        (((sampleBundle "first").get? installFile).isSome ∧
          (sampleBundle "first").get? installFile = (sampleBundle "second").get? installFile) ∧
        (sampleBundle "first").get? artifactsFile = (sampleBundle "second").get? artifactsFile ∧
        (sampleBundle "first").get? policyFile = (sampleBundle "second").get? policyFile ∧
        (sampleBundle "first").get? successorPolicyFile = (sampleBundle "second").get? successorPolicyFile :=
  ⟨by decide +kernel, trust_list_determines_bundle samplePlatform sampleMembership (sampleBundle "first")
    (sampleBundle "second") [] [] 0 0 3 3 { signed := false, fileCount := 1 } { signed := false, fileCount := 1 }
    (by decide +kernel) (by unfold CollisionFree; decide +kernel) (by decide +kernel) (by decide +kernel)
    (by decide +kernel) (by decide +kernel) (by decide +kernel)⟩

end Yaog.Agent
