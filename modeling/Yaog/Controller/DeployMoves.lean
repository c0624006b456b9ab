import Yaog.Compiler.CompileFacts
import Yaog.Controller.Deploy
import Yaog.Controller.PromoteSpec

/-!
# The controller's operations as moves

What the controller adds to the store's protocol: a manifest continues the last one, a signature is
over the sealed manifest, a candidate is bound by its manifest, and a promotion passes the gate.
-/

namespace Yaog.Controller

open Compiler Data Validator Durable List Option

variable {nodes : List StagedNode} {tenant : String} {rules : Rules} {skipped : List String}

def StoredTrustList.Continues (newer older : StoredTrustList) : Prop :=
  older.epoch ≤ newer.epoch ∧
    (older.epoch = newer.epoch →
      membership older.trustList.members = membership newer.trustList.members)

def StoredTrustList.Same (first second : StoredTrustList) : Prop :=
  first.trustList = second.trustList ∧ first.epoch = second.epoch

section

variable (crypto : Crypto)

def SignedBundle.digest (bundle : SignedBundle) : Option String :=
  bundle.files["checksums.sha256"]?.map crypto.bundleSHA256

def Store.Binds (store : Store) (member : Member) : Prop :=
  (∃ bundle, store.staged[member.nodeID]? = some bundle ∧ bundle.generation = store.generation + 1 ∧
      bundle.digest crypto = some member.bundleSHA256) ∨
    (∀ bundle, store.staged[member.nodeID]? = some bundle → bundle.generation ≠ store.generation + 1) ∧
      ∃ bundle, store.current[member.nodeID]? = some bundle ∧ bundle.generation ≤ store.generation ∧
        bundle.digest crypto = some member.bundleSHA256

def deployRules (design : Option Topology → Prop := fun _ => True) : Rules where
  manifest store list := list.trustList.epoch = list.epoch ∧
    ∀ prior, store.getLastStagedTrustList = some prior → list.Continues prior
  resign store list := ∃ kept, store.stagedTL = some kept ∧ list.Same kept
  candidate store := ∀ list, store.stagedTL = some list → ∀ member ∈ list.trustList.members,
    store.Binds crypto member
  promotion store := ∀ cred, store.operatorCred = some cred →
    ∃ list, store.getCurrentSignedTrustList crypto = .ok list ∧ verifiesAgainst crypto list cred = true
  design

end

section

variable {crypto : Crypto} {env : StageEnv} {config : StageConfig} {store : Store} {result : CompileResult}
  {skipEnabled : Bool} {design : Option Topology → Prop}

/-- How a node is staged or left out. -/
structure StagedNode.Fits (crypto : Crypto) (store : Store) (staged : StagedNode) : Prop where
  skipped : staged.bundle = none → servedBundleDigest crypto store staged.member.nodeID =
    some staged.member.bundleSHA256
  staged : ∀ bundle, staged.bundle = some bundle → bundle.nodeID = staged.member.nodeID ∧
    bundle.generation = store.generation + 1 ∧
    (store.operatorCred.isSome = true → bundle.digest crypto = some staged.member.bundleSHA256)

theorem stageNode_fits {node : Node} {staged : StagedNode}
    (planned : stageNode crypto env config store result skipEnabled node = .ok staged) :
    staged.Fits crypto store ∧ staged.member.nodeID = node.id := by
  unfold stageNode at planned
  cases exported : env.bundleFiles result node.id with
  | error detail => simp [exported] at planned
  | ok files =>
    simp only [exported] at planned
    split at planned
    · cases planned
    · next bound =>
      split at planned
      · next same =>
        cases planned
        simp only [Bool.and_eq_true, decide_eq_true_eq] at same
        exact ⟨⟨fun _ => same.2, nofun⟩, rfl⟩
      · cases planned
        refine ⟨⟨nofun, ?_⟩, rfl⟩
        intro bundle taken
        cases taken
        refine ⟨rfl, rfl, fun pinned => ?_⟩
        simp only [pinned, Bool.true_and, Bool.not_eq_true, isNone_eq_false_iff, isSome_iff_exists] at bound
        obtain ⟨checksums, listed⟩ := bound
        simp [SignedBundle.digest, listed]

theorem stageNodes_fit {nodes : List Node} {staged : List StagedNode}
    (planned : stageNodes crypto env config store result skipEnabled nodes = .ok staged) :
    (∀ node ∈ staged, node.Fits crypto store) ∧ staged.map (·.member.nodeID) = nodes.map (·.id) := by
  induction nodes generalizing staged with
  | nil =>
    cases planned
    exact ⟨nofun, rfl⟩
  | cons node rest ih =>
    rw [stageNodes] at planned
    cases first : stageNode crypto env config store result skipEnabled node with
    | error reason => simp [first, bind, Except.bind] at planned
    | ok head =>
      cases others : stageNodes crypto env config store result skipEnabled rest with
      | error reason => simp [first, others, bind, Except.bind] at planned
      | ok tail =>
        simp only [first, others, bind, Except.bind, Except.ok.injEq] at planned
        subst planned
        obtain ⟨fits, same⟩ := stageNode_fits first
        obtain ⟨each, names⟩ := ih others
        refine ⟨fun other member => ?_, by simp [same, names]⟩
        rcases mem_cons.mp member with rfl | later
        · exact fits
        · exact each other later

theorem mem_stagedMembers {member : Member}
    (listed : member ∈ (stagedMembers nodes).toList.map (·.2)) : ∃ node ∈ nodes, node.member = member := by
  suffices general : ∀ (rest : List StagedNode) (known : Records Member) (nodeID : String) (found : Member),
      (rest.foldl (fun known node => known.insert node.member.nodeID node.member) known)[nodeID]? = some found →
      known[nodeID]? = some found ∨ ∃ node ∈ rest, node.member = found by
    obtain ⟨entry, inList, rfl⟩ := mem_map.mp listed
    rcases general nodes ∅ entry.1 entry.2 (Records.mem_toList.mp inList) with old | new
    · simp at old
    · exact new
  intro rest
  induction rest with
  | nil => exact fun _ _ _ held => .inl held
  | cons node rest ih =>
    intro known nodeID found held
    rcases ih _ nodeID found held with old | ⟨other, later, same⟩
    · rw [Records.getElem?_insert] at old
      split at old
      · exact .inr ⟨node, mem_cons_self, some.inj old⟩
      · exact .inl old
    · exact .inr ⟨other, mem_cons_of_mem _ later, same⟩

theorem stagedSet_binds {staged : Records SignedBundle} {history : Option StoredTrustList} (settled : ¬store.Ahead)
    (fits : ∀ node ∈ nodes, node.Fits crypto store) (distinct : (nodes.map (·.member.nodeID)).Nodup)
    (exactly : StagedAs staged (stagedBundles nodes)) :
    (deployRules crypto design).candidate
      { store with stagedSeal := none, staged, stagedTL := (stagedSet tenant store nodes).trustList
                   stagedTLHist := history } := by
  intro list manifest member listed
  cases pinned : store.operatorCred.isSome with
  | false => simp [stagedSet, pinned] at manifest
  | true =>
    simp only [stagedSet, pinned, if_true, some.injEq] at manifest
    subst manifest
    obtain ⟨node, inNodes, rfl⟩ := mem_stagedMembers listed
    cases taken : node.bundle with
    | some bundle =>
      obtain ⟨same, next, bound⟩ := (fits node inNodes).staged bundle taken
      have inBundles : bundle ∈ stagedBundles nodes := mem_filterMap.mpr ⟨node, inNodes, taken⟩
      exact .inl ⟨asStaged bundle, (exactly _ _).mpr ⟨bundle, inBundles, same, rfl⟩, next, bound pinned⟩
    | none =>
      have served := (fits node inNodes).skipped taken
      simp only [servedBundleDigest, map_eq_some_iff, bind_eq_some_iff] at served
      obtain ⟨checksums, ⟨bundle, held, kept⟩, digest⟩ := served
      refine .inr ⟨?_, bundle, held, ?_, by simp [SignedBundle.digest, kept, digest]⟩
      · intro other again _
        obtain ⟨source, inBundles, same, -⟩ := (exactly _ _).mp again
        obtain ⟨owner, inOwners, hasBundle⟩ := mem_filterMap.mp inBundles
        have owned := ((fits owner inOwners).staged source hasBundle).1
        have one : owner = node := inj_on_of_nodup_map distinct inOwners inNodes (owned.symm.trans same)
        rw [one, taken] at hasBundle
        cases hasBundle
      · by_contra above
        exact settled (.inl ⟨node.member.nodeID, bundle, held, Nat.lt_of_not_le above⟩)

theorem stagedSet_continues {list : StoredTrustList}
    (staged : Records SignedBundle) (manifest : (stagedSet tenant store nodes).trustList = some list) :
    (deployRules crypto design).manifest { store with stagedSeal := none, staged } list := by
  simp only [stagedSet] at manifest
  split at manifest
  · cases manifest
    refine ⟨rfl, fun prior last => ?_⟩
    have known : store.getLastStagedTrustList = some prior := last
    simp only [StoredTrustList.Continues, buildStagedManifest, known]
    split
    · next same => exact ⟨le_refl _, fun _ => same.symm⟩
    · exact ⟨Nat.le_succ _, fun impossible => absurd impossible (Nat.ne_of_lt (Nat.lt_succ_self _))⟩
  · cases manifest

end

def Reconciled (store after : Store) : Prop :=
  ∃ keystoneTransition audit, after = { store with keystoneTransition, audit }

section

variable {store : Store} {eventID : String}

theorem Reconciled.refl (store : Store) : Reconciled store store := ⟨_, _, rfl⟩

theorem deletePending_frames {start : Store} (reached : Reconciled start store) :
    Keeps store (deletePendingKeystoneTransition eventID) (Reconciled start) := by
  obtain ⟨pending, audit, rfl⟩ := reached
  have here : Reconciled start { start with keystoneTransition := pending, audit } := ⟨_, _, rfl⟩
  have cleared : Reconciled start { start with keystoneTransition := none, audit } := ⟨_, _, rfl⟩
  apply Ensures.require_bind (fun _ => here)
  intro _
  apply Ensures.read_bind
  split
  · exact .pure here
  · apply Ensures.require_bind (fun _ => here)
    exact fun _ => .write here cleared cleared

theorem deletePending_settles :
    Ensures store (deletePendingKeystoneTransition eventID) (fun _ => True) fun _ after =>
      after.keystoneTransition = none := by
  apply Ensures.require_bind (fun _ => trivial)
  intro _
  apply Ensures.read_bind
  cases held : store.keystoneTransition with
  | none => exact .pure held
  | some current => exact .require_bind (fun _ => trivial) fun _ => .write trivial trivial rfl

theorem ensureAudit_frames {entry : AuditEntry} :
    Keeps store (ensureAudit entry) (Reconciled store) := by
  have here := Reconciled.refl store
  have appended : Reconciled store (store.appendAudit entry) := ⟨_, _, rfl⟩
  apply Ensures.read_bind
  apply Ensures.lift_bind (fun _ _ => here)
  intro found _
  cases found with
  | true => exact .pure here
  | false =>
    have observed {after : Store} {reported : Bool} (reached : Reconciled store after) : Keeps after (do
          let current ← read
          let found ← lift (findPendingKeystoneAudit current entry)
          require (found = true) (if reported then KeystoneError.auditNotObservable else .auditAppend))
        (Reconciled store) := by
      apply Ensures.read_bind
      apply Ensures.lift_bind (fun _ _ => reached)
      exact fun _ _ => .require (fun _ => reached) (fun _ => reached)
    refine .bind ?_
    exact .attempt here (observed here) (observed appended) (observed appended)

theorem reconcile_frames :
    Keeps store reconcilePendingKeystoneTransition (Reconciled store) := by
  have here := Reconciled.refl store
  apply Ensures.read_bind
  split
  · exact .pure here
  · apply Ensures.lift_bind (fun _ _ => here)
    intro _ _
    split
    · refine .bind ?_
      apply ensureAudit_frames.weaken
      exact fun _ after reached => deletePending_frames reached
    split
    · exact deletePending_frames here
    · exact .fail here

theorem reconcile_settles :
    Ensures store reconcilePendingKeystoneTransition (fun _ => True) fun _ after => after.keystoneTransition = none := by
  apply Ensures.read_bind
  cases held : store.keystoneTransition with
  | none => exact .pure held
  | some pending =>
    apply Ensures.lift_bind (fun _ _ => trivial)
    intro _ _
    split
    · exact .trivial_bind fun _ _ => deletePending_settles
    split
    · exact deletePending_settles
    · exact .fail trivial

end

section

variable {crypto : Crypto} {env : StageEnv} {config : StageConfig} {start store : Store}
  {design : Option Topology → Prop}

theorem Prepares.keystoneTransition (path : Prepares crypto rules start store) :
    store.keystoneTransition = start.keystoneTransition := by
  induction path with
  | refl => rfl
  | tail _ move ih => cases move <;> exact ih

theorem appendStageAudit_prepares {action nodeID : String} (settled : start.keystoneTransition = none)
    (path : Prepares crypto rules start store) :
    Keeps store (appendStageAudit action nodeID) (Prepares crypto rules start) :=
  Ensures.tryWrite path path (path.tail (Prepare.note _ rfl (path.keystoneTransition.trans settled)))

theorem notePurged_prepares {purged : List String} (settled : start.keystoneTransition = none)
    (path : Prepares crypto rules start store) :
    Keeps store (notePurged purged) (Prepares crypto rules start) :=
  Ensures.forM (fun _ => Prepares crypto rules start) path
    fun _ _ _ _ _ reached => appendStageAudit_prepares settled reached

theorem replaceNoting_prepares {set : StagedSet} (settled : store.keystoneTransition = none)
    (replaced : Keeps store (replaceStagedSet crypto set) (Prepares crypto (deployRules crypto design) store)) :
    Keeps store (replaceNoting crypto set) (Prepares crypto (deployRules crypto design) store) := by
  have noted (result : Except ReplaceError (List String)) {after : Store}
      (path : Prepares crypto (deployRules crypto design) store after) :
      Keeps after (do
        notePurged (purgedBy result)
        lift ((result.mapError fun failure => DeployError.replace failure.reason).map fun _ => ()))
      (Prepares crypto (deployRules crypto design) store) := by
    refine .bind ?_
    apply (notePurged_prepares settled path).weaken
    exact fun _ _ reached => .lift (fun _ _ => reached) fun _ _ => reached
  refine .bind ?_
  apply Ensures.observe
  · apply replaced.weaken
    exact fun purged _ path => noted (.ok purged) path
  · exact fun failure _ path => noted (.error failure) path

theorem replaceEmpty_prepares :
    Keeps store (replaceStagedSet crypto {}) (Prepares crypto (deployRules crypto design) store) :=
  replaceStagedSet_prepares (fun _ _ impossible => absurd impossible (by simp))
    fun _ _ _ _ _ _ impossible => absurd impossible (by simp)

theorem publishStage_prepares (settled : store.keystoneTransition = none)
    (fits : ∀ node ∈ nodes, node.Fits crypto store) (distinct : (nodes.map (·.member.nodeID)).Nodup) :
    Keeps store (publishStage crypto tenant store skipped nodes) (Prepares crypto (deployRules crypto design) store) := by
  have ended {after : Store} {action : String} {told : StageResult}
      (path : Prepares crypto (deployRules crypto design) store after) :
      Keeps after (do appendStageAudit action ""; pure told) (Prepares crypto (deployRules crypto design) store) := by
    refine .bind ?_
    apply (appendStageAudit_prepares settled path).weaken
    exact fun _ _ reached => .pure reached
  unfold publishStage
  split
  · refine .bind ?_
    apply (replaceNoting_prepares settled replaceEmpty_prepares).weaken
    exact fun _ _ path => ended path
  · refine .bind ?_
    apply (replaceNoting_prepares settled (replaceStagedSet_prepares
      (fun list staged manifest _ => stagedSet_continues staged manifest)
      fun staged history settled exactly _ => stagedSet_binds settled fits distinct exactly)).mono
        (fun _ stopped => stopped)
    exact fun _ _ path => ended path

theorem storeAllocations_prepares {full compiled : Topology} (path : Prepares crypto rules start store)
    (allowed : rules.design (some (persistAllocations full compiled))) :
    Keeps store (storeAllocations full compiled) (Prepares crypto rules start) := by
  apply Ensures.read_bind
  simp only
  split
  · exact .pure path
  · have written := path.tail (Prepare.record store.nodes (some (persistAllocations full compiled))
      store.signingAnchor (.inr allowed))
    exact .write path written written

theorem enforceSigningAnchor_prepares {signer : Option String} {rotate : Bool}
    (settled : start.keystoneTransition = none) (path : Prepares crypto rules start store) :
    Keeps store (enforceSigningAnchor signer rotate) (Prepares crypto rules start) := by
  have anchored {key action : String} : Keeps store (do
        write (fun store => { store with signingAnchor := some key }) (.store .storage)
        appendStageAudit action "") (Prepares crypto rules start) := by
    have written := path.tail (Prepare.record store.nodes store.topology (some key) (.inl rfl))
    refine .bind ?_
    exact .write path written (appendStageAudit_prepares settled written)
  apply Ensures.read_bind
  split
  · exact .pure path
  · exact anchored
  · exact .fail path
  · split_ifs
    · exact .pure path
    · exact anchored
    · exact .fail path

theorem compiled_distinct {deployment subgraph : Topology} {externals : Externals}
    {mimicFallbackDefault : MimicFallback} {keys : Keys} {result : CompileResult}
    (compiled : compileSubgraph externals mimicFallbackDefault keys deployment subgraph = .ok result) :
    (subgraph.nodes.map (·.id)).Nodup := by
  obtain ⟨nodes, allocations, run⟩ := compileAt_ok compiled
  have distinct := run.accepted.nodeIDs_nodup
  unfold Topology.withDefaults at distinct
  split at distinct <;> exact distinct

theorem stageReady_prepares {full deployment subgraph : Topology} (settled : store.keystoneTransition = none)
    (allowed : ∀ result, compileSubgraph env.externals env.mimicFallbackDefault (env.keys subgraph) deployment subgraph =
      .ok result → design (some (persistAllocations full result.topology))) :
    Keeps store (stageReady crypto env config full deployment subgraph skipped)
      (Prepares crypto (deployRules crypto design) store) := by
  have begin : Prepares crypto (deployRules crypto design) store store := .refl
  apply Ensures.lift_bind (fun _ _ => begin)
  intro signer _
  apply Ensures.lift_bind (fun _ _ => begin)
  intro result compiled
  have distinct := compiled_distinct (mapError_eq_ok compiled)
  apply Ensures.read_bind
  apply Ensures.require_bind (fun _ => begin)
  intro _
  apply Ensures.lift_bind (fun _ _ => begin)
  intro skipEnabled _
  refine .bind ?_
  apply (storeAllocations_prepares begin (allowed result (mapError_eq_ok compiled))).weaken
  intro _ persisted persistedPath
  refine .bind ?_
  apply (enforceSigningAnchor_prepares settled persistedPath).weaken
  intro _ anchored anchoredPath
  apply Ensures.read_bind
  apply Ensures.lift_bind (fun _ _ => anchoredPath)
  intro nodes planned
  obtain ⟨fits, names⟩ := stageNodes_fit planned
  have still := anchoredPath.keystoneTransition.trans settled
  exact (publishStage_prepares still fits (names ▸ distinct)).mono (fun _ path => anchoredPath.trans path)
    fun _ _ path => anchoredPath.trans path

theorem stageEmpty_prepares (settled : store.keystoneTransition = none) :
    Keeps store (stageEmpty crypto skipped) (Prepares crypto (deployRules crypto design) store) := by
  refine .bind ?_
  apply (Ensures.mapFail replaceEmpty_prepares).weaken
  intro purged _ path
  refine .bind ?_
  apply (notePurged_prepares settled path).weaken
  intro _ _ noted
  refine .bind ?_
  apply (appendStageAudit_prepares settled noted).weaken
  exact fun _ _ reached => .pure reached

/-- Preparing writes after a reconciliation that left a store of `reached`. -/
def Prepared (crypto : Crypto) (reached : Store → Prop) (design : Option Topology → Prop) (after : Store) : Prop :=
  ∃ between, reached between ∧ Prepares crypto (deployRules crypto design) between after

theorem compileAndStage_prepares {reached : Store → Prop}
    (reconciled : Ensures store reconcilePendingKeystoneTransition reached fun _ => reached)
    (allowed : ∀ between stored deployment subgraph skipped result, reached between → between.topology = some stored →
      env.deployment (env.heal stored) (between.nodes.toList.map (·.2)) = .ok deployment →
      projectEnrolledSubgraph deployment (between.nodes.toList.map (·.2)) = .ok (subgraph, skipped) →
      compileSubgraph env.externals env.mimicFallbackDefault (env.keys subgraph) deployment subgraph = .ok result →
      design (some (persistAllocations (env.heal stored) result.topology))) :
    Keeps store (compileAndStage crypto env config) (Prepared crypto reached design) := by
  refine .bind ?_
  apply (Ensures.mapFail (reconciled.and reconcile_settles)).mono (fun after here => ⟨after, here.1, .refl⟩)
  rintro _ between ⟨here, settled⟩
  have begin : Prepared crypto reached design between := ⟨between, here, .refl⟩
  have onward {after : Store} (path : Prepares crypto (deployRules crypto design) between after) :
      Prepared crypto reached design after := ⟨between, here, path⟩
  apply Ensures.read_bind
  split
  · exact .pure begin
  · next stored held =>
    apply Ensures.lift_bind (fun _ _ => begin)
    intro deployment prepared
    apply Ensures.lift_bind (fun _ _ => begin)
    rintro ⟨subgraph, skipped⟩ projected
    simp only
    split
    · exact (stageEmpty_prepares settled).mono (fun _ => onward) fun _ _ => onward
    · have ready := allowed between stored deployment subgraph skipped
      refine (stageReady_prepares settled fun result => ?_).mono (fun _ => onward) fun _ _ => onward
      exact ready result here held (mapError_eq_ok prepared) (mapError_eq_ok projected)

end

end Yaog.Controller
