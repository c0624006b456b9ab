import Yaog.Controller.Recovery
import Yaog.Controller.StagingFrame

/-!
# The preview of a deployment

`DeployPreview` compiles a design and compares every bundle with the served one, as a stage does, and stages nothing.
-/

namespace Yaog.Controller

open Compiler Data Normalize Durable

structure NodeDeployChange where
  nodeID : String
  name : String
  changed : Bool

structure DeployPreviewResult where
  keystoneFullRestage : Bool := false
  nodes : List NodeDeployChange := []
  skippedUnenrolled : List String := []
  telemetryPolicyOmittedNodeIDs : List String := []

def changedIDs (nodes : List NodeDeployChange) : List String := (nodes.filter (·.changed)).map (·.nodeID)

section

variable (crypto : Crypto) (env : StageEnv)

def previewNode (store : Store) (result : CompileResult) (skipEnabled : Bool) (node : Node) :
    Except DeployError NodeDeployChange :=
  match env.bundleFiles result node.id with
  | .error detail => .error (.exporting node.id detail)
  | .ok files =>
    let same := files["checksums.sha256"]?.any fun checks =>
      servedBundleDigest crypto store node.id = some (crypto.bundleSHA256 checks)
    .ok { nodeID := node.id, name := node.name, changed := !(skipEnabled && same) }

def previewNodes (store : Store) (result : CompileResult) (skipEnabled : Bool) :
    List Node → Except DeployError (List NodeDeployChange)
  | [] => .ok []
  | node :: rest => do
      let change ← previewNode crypto env store result skipEnabled node
      let others ← previewNodes store result skipEnabled rest
      .ok (change :: others)

def previewReady (deployment subgraph : Topology) (skipped omitted : List String) :
    Durable Store DeployError DeployPreviewResult := do
  let _ ← lift (env.signer.mapError .signer)
  let result ← lift ((compileSubgraph env.externals env.mimicFallbackDefault (env.keys subgraph) deployment
    subgraph).mapError .compile)
  -- `GetKeystoneCredential` reconciles before it reads
  mapFail .keystone reconcilePendingKeystoneTransition
  let store ← read
  require (store.operatorCred.isSome ∨ carriesTelemetryPolicy result = false) .probesRequireKeystone
  let skipEnabled ← lift (stageSkipEnabled crypto store)
  let nodes ← lift (previewNodes crypto env store result skipEnabled subgraph.nodes)
  pure
    { keystoneFullRestage := !skipEnabled, nodes, skippedUnenrolled := skipped
      telemetryPolicyOmittedNodeIDs := omitted }

/-- `DeployPreview`. -/
def deployPreview (capabilities : String → Option (List String)) (mode : PolicyDeployMode) (topo : Topology) :
    Durable Store DeployError DeployPreviewResult := do
  let store ← read
  let registry := store.nodes.toList.map (·.2)
  let (copy, omitted) ← lift ((prepareTelemetryPolicyDeployment env.externals capabilities mode topo registry).mapError
    fun reason => .deployment (reason.message env.externals.quote))
  let (subgraph, skipped) ← lift ((projectEnrolledSubgraph (healed copy) registry).mapError .manualNode)
  if subgraph.nodes = [] then
    pure { skippedUnenrolled := skipped, telemetryPolicyOmittedNodeIDs := omitted }
  else previewReady crypto env (healed copy) subgraph skipped omitted

end

def Store.deployed (store : Store) : Store :=
  { store with audit := ∅, keystoneTransition := none, topology := none, signingAnchor := none }

section

variable {crypto : Crypto} {env : StageEnv} {store : Store} {result : CompileResult} {skipEnabled : Bool}
  {config : StageConfig}

theorem stageSkipEnabled_deployed : stageSkipEnabled crypto store.deployed = stageSkipEnabled crypto store := rfl

theorem stageNode_deployed (node : Node) :
    stageNode crypto env config store.deployed result skipEnabled node =
      stageNode crypto env config store result skipEnabled node := rfl

theorem stageNodes_deployed (nodes : List Node) :
    stageNodes crypto env config store.deployed result skipEnabled nodes =
      stageNodes crypto env config store result skipEnabled nodes := by
  induction nodes with
  | nil => rfl
  | cons node rest ih => rw [stageNodes, stageNodes, ih, stageNode_deployed]

theorem previewNodes_congr {env' : StageEnv} {store' : Store}
    (same : ∀ node, previewNode crypto env' store' result skipEnabled node =
      previewNode crypto env store result skipEnabled node) (nodes : List Node) :
    previewNodes crypto env' store' result skipEnabled nodes =
      previewNodes crypto env store result skipEnabled nodes := by
  induction nodes with
  | nil => rfl
  | cons node rest ih => rw [previewNodes, previewNodes, ih, same]

theorem previewNodes_deployed (nodes : List Node) :
    previewNodes crypto env store.deployed result skipEnabled nodes =
      previewNodes crypto env store result skipEnabled nodes := by
  apply previewNodes_congr
  exact fun _ => rfl

theorem previewNodes_deploying {capabilities : String → Option (List String)} {mode : PolicyDeployMode}
    (nodes : List Node) :
    previewNodes crypto (env.deploying capabilities mode) store result skipEnabled nodes =
      previewNodes crypto env store result skipEnabled nodes := by
  apply previewNodes_congr
  exact fun _ => rfl

variable (digests : ∀ text, crypto.bundleSHA256 text ≠ "")

include digests

theorem previewNode_of_stageNode {node : Node} {staged : StagedNode}
    (planned : stageNode crypto env {} store result skipEnabled node = .ok staged) :
    ∃ change, previewNode crypto env store result skipEnabled node = .ok change ∧ change.nodeID = node.id ∧
      change.changed = staged.bundle.isSome ∧ ∀ bundle, staged.bundle = some bundle → bundle.nodeID = node.id := by
  unfold stageNode at planned
  unfold previewNode
  cases exported : env.bundleFiles result node.id with
  | error detail =>
    rw [exported] at planned
    cases planned
  | ok files =>
    simp only [exported] at planned ⊢
    refine ⟨_, rfl, rfl, ?_⟩
    have decided : (skipEnabled && !StageConfig.forced {} node.id &&
        ((files["checksums.sha256"]?.map crypto.bundleSHA256).getD "" ≠ "") &&
        servedBundleDigest crypto store node.id =
          some ((files["checksums.sha256"]?.map crypto.bundleSHA256).getD "")) =
        (skipEnabled && files["checksums.sha256"]?.any fun checks =>
          servedBundleDigest crypto store node.id = some (crypto.bundleSHA256 checks)) := by
      cases files["checksums.sha256"]? with
      | none => simp
      | some checks => simp [digests checks, StageConfig.forced]
    split at planned
    · cases planned
    · split at planned
      · next same =>
        cases planned
        rw [← decided, same]
        exact ⟨rfl, fun _ taken => by cases taken⟩
      · next differs =>
        cases planned
        rw [← decided, Bool.eq_false_iff.mpr differs]
        exact ⟨rfl, fun bundle taken => Option.some.inj taken ▸ rfl⟩

theorem previewNodes_of_stageNodes {nodes : List Node} {staged : List StagedNode}
    (planned : stageNodes crypto env {} store result skipEnabled nodes = .ok staged) :
    ∃ changes, previewNodes crypto env store result skipEnabled nodes = .ok changes ∧
      changedIDs changes = (stagedBundles staged).map (·.nodeID) := by
  induction nodes generalizing staged with
  | nil =>
    cases planned
    exact ⟨[], rfl, rfl⟩
  | cons node rest ih =>
    obtain ⟨head, first, planned⟩ := bind_ok planned
    obtain ⟨tail, others, planned⟩ := bind_ok planned
    cases planned
    obtain ⟨change, previewed, isNode, taken, named⟩ := previewNode_of_stageNode digests first
    obtain ⟨changes, later, same⟩ := ih others
    refine ⟨change :: changes, ?_, ?_⟩
    · rw [previewNodes, previewed, later]
      rfl
    · rw [changedIDs] at same ⊢
      cases bundle : head.bundle with
      | none =>
        simp [stagedBundles, taken, bundle, same]
      | some kept =>
        simp [stagedBundles, taken, bundle, same, isNode, named kept bundle]

end

section

variable (crypto : Crypto) (env : StageEnv) (capabilities : String → Option (List String)) (mode : PolicyDeployMode)
  (store : Store) (topo : Topology)

/-- A deployment of a design from a store comes to a list of changed nodes. -/
inductive Foreseen : List String → Prop
  | empty {copy subgraph : Topology} {omitted skipped : List String}
      (prepared : prepareTelemetryPolicyDeployment env.externals capabilities mode topo (store.nodes.toList.map (·.2)) =
        .ok (copy, omitted))
      (projected : projectEnrolledSubgraph (healed copy) (store.nodes.toList.map (·.2)) = .ok (subgraph, skipped))
      (unready : subgraph.nodes = []) : Foreseen []
  | ready {copy subgraph : Topology} {omitted skipped : List String} {signer : Option String} {result : CompileResult}
      {skipEnabled : Bool} {changes : List NodeDeployChange}
      (prepared : prepareTelemetryPolicyDeployment env.externals capabilities mode topo (store.nodes.toList.map (·.2)) =
        .ok (copy, omitted))
      (projected : projectEnrolledSubgraph (healed copy) (store.nodes.toList.map (·.2)) = .ok (subgraph, skipped))
      (isReady : subgraph.nodes ≠ []) (signed : env.signer = .ok signer)
      (compiled : compileSubgraph env.externals env.mimicFallbackDefault (env.keys subgraph) (healed copy) subgraph =
        .ok result)
      (gated : store.operatorCred.isSome ∨ carriesTelemetryPolicy result = false)
      (decided : stageSkipEnabled crypto store = .ok skipEnabled)
      (exported : previewNodes crypto env store result skipEnabled subgraph.nodes = .ok changes) :
      Foreseen (changedIDs changes)

end

section

variable {crypto : Crypto} {env : StageEnv} {capabilities : String → Option (List String)} {mode : PolicyDeployMode}
  {store : Store} {topo : Topology} {skipped : List String}

theorem Foreseen.unique {first second : List String} (one : Foreseen crypto env capabilities mode store topo first)
    (other : Foreseen crypto env capabilities mode store topo second) : first = second := by
  have pairs {α β ε : Type} {result : Except ε (α × β)} {a a' : α} {b b' : β} (is : result = .ok (a, b))
      (again : result = .ok (a', b')) : a = a' ∧ b = b' := Prod.mk.inj (Except.ok.inj (is.symm.trans again))
  cases one with
  | empty prepared projected unready =>
    cases other with
    | empty => rfl
    | ready prepared' projected' isReady =>
      obtain ⟨rfl, rfl⟩ := pairs prepared prepared'
      obtain ⟨rfl, rfl⟩ := pairs projected projected'
      exact absurd unready isReady
  | ready prepared projected isReady signed compiled gated decided exported =>
    cases other with
    | empty prepared' projected' unready =>
      obtain ⟨rfl, rfl⟩ := pairs prepared prepared'
      obtain ⟨rfl, rfl⟩ := pairs projected projected'
      exact absurd unready isReady
    | ready prepared' projected' _ _ compiled' _ decided' exported' =>
      obtain ⟨rfl, rfl⟩ := pairs prepared prepared'
      obtain ⟨rfl, rfl⟩ := pairs projected projected'
      obtain rfl := Except.ok.inj (compiled.symm.trans compiled')
      obtain rfl := Except.ok.inj (decided.symm.trans decided')
      rw [Except.ok.inj (exported.symm.trans exported')]

theorem operatorCred_of_deployed {first second : Store} (same : first.deployed = second.deployed) :
    first.operatorCred = second.operatorCred := by
  have cred := congrArg Store.operatorCred same
  exact cred

theorem nodes_of_deployed {first second : Store} (same : first.deployed = second.deployed) :
    first.nodes = second.nodes := by
  have nodes := congrArg Store.nodes same
  exact nodes

theorem Reconciled.sameDeployed {after : Store} (reconciled : Reconciled store after) :
    after.deployed = store.deployed := by
  obtain ⟨pending, audit, rfl⟩ := reconciled
  rfl

theorem deployPreview_foreseen :
    Ensures store (deployPreview crypto env capabilities mode topo) (fun _ => True)
      fun preview _ => Foreseen crypto env capabilities mode store topo (changedIDs preview.nodes) := by
  apply Ensures.read_bind
  apply Ensures.lift_bind (fun _ _ => trivial)
  rintro ⟨copy, omitted⟩ prepared
  apply Ensures.lift_bind (fun _ _ => trivial)
  rintro ⟨subgraph, skipped⟩ projected
  simp only
  split
  · next unready => exact .pure (.empty (mapError_eq_ok prepared) (mapError_eq_ok projected) unready)
  · next isReady =>
    apply Ensures.lift_bind (fun _ _ => trivial)
    intro signer signed
    apply Ensures.lift_bind (fun _ _ => trivial)
    intro result compiled
    refine .bind ?_
    apply (Ensures.mapFail reconcile_frames).mono (fun _ _ => trivial)
    intro _ after reconciled
    have same := reconciled.sameDeployed
    apply Ensures.read_bind
    apply Ensures.require_bind (fun _ => trivial)
    intro gated
    apply Ensures.lift_bind (fun _ _ => trivial)
    intro skipEnabled decided
    apply Ensures.lift_bind (fun _ _ => trivial)
    intro changes exported
    rw [← stageSkipEnabled_deployed, same, stageSkipEnabled_deployed] at decided
    rw [← previewNodes_deployed, same, previewNodes_deployed] at exported
    rw [operatorCred_of_deployed same] at gated
    exact .pure (.ready (mapError_eq_ok prepared) (mapError_eq_ok projected) isReady (mapError_eq_ok signed)
      (mapError_eq_ok compiled) gated decided exported)

theorem publishStage_staged {tenant : String} {nodes : List StagedNode} :
    Ensures store (publishStage crypto tenant store skipped nodes) (fun _ => True)
      fun result _ => result.staged = (stagedBundles nodes).map (·.nodeID) := by
  unfold publishStage
  split
  · next empty =>
    refine .trivial_bind fun _ _ => ?_
    refine .trivial_bind fun _ _ => ?_
    exact .pure (by rw [empty, List.map_nil])
  · refine .trivial_bind fun _ _ => ?_
    refine .trivial_bind fun _ _ => ?_
    exact .pure rfl

theorem storeAllocations_deployed {full compiled : Topology} :
    Ensures store (storeAllocations full compiled) (fun _ => True) fun _ after => after.deployed = store.deployed := by
  apply Ensures.read_bind
  simp only
  split
  · exact .pure rfl
  · exact .write trivial trivial rfl

theorem enforceSigningAnchor_deployed {signer : Option String} {rotate : Bool} :
    Ensures store (enforceSigningAnchor signer rotate) (fun _ => True) fun _ after => after.deployed = store.deployed := by
  have anchored (key action : String) : Ensures store (do
      write (fun store => { store with signingAnchor := some key }) (DeployError.store .storage)
      appendStageAudit action "") (fun _ => True) fun _ after => after.deployed = store.deployed := by
    refine .bind ?_
    exact .write trivial trivial (.tryWrite trivial rfl rfl)
  apply Ensures.read_bind
  split
  · exact .pure rfl
  · exact anchored _ _
  · exact .fail trivial
  · split_ifs
    · exact .pure rfl
    · exact anchored _ _
    · exact .fail trivial

theorem stageReady_foreseen {start : Store} {full copy subgraph : Topology} {omitted : List String}
    (digests : ∀ text, crypto.bundleSHA256 text ≠ "") (reached : store.deployed = start.deployed)
    (prepared : prepareTelemetryPolicyDeployment env.externals capabilities mode topo (start.nodes.toList.map (·.2)) =
      .ok (copy, omitted))
    (projected : projectEnrolledSubgraph (healed copy) (start.nodes.toList.map (·.2)) = .ok (subgraph, skipped))
    (isReady : subgraph.nodes ≠ []) :
    Ensures store (stageReady crypto (env.deploying capabilities mode) {} full (healed copy) subgraph skipped)
      (fun _ => True) fun result _ => Foreseen crypto env capabilities mode start topo result.staged := by
  apply Ensures.lift_bind (fun _ _ => trivial)
  intro signer signed
  apply Ensures.lift_bind (fun _ _ => trivial)
  intro compile compiled
  apply Ensures.read_bind
  apply Ensures.require_bind (fun _ => trivial)
  intro gated
  apply Ensures.lift_bind (fun _ _ => trivial)
  intro skipEnabled decided
  refine .bind ?_
  apply storeAllocations_deployed.weaken
  intro _ persisted persists
  refine .bind ?_
  apply enforceSigningAnchor_deployed.weaken
  intro _ anchored anchors
  apply Ensures.read_bind
  apply Ensures.lift_bind (fun _ _ => trivial)
  intro nodes planned
  apply publishStage_staged.mono (fun _ _ => trivial)
  intro result _ staged
  have same : anchored.deployed = start.deployed := anchors.trans (persists.trans reached)
  rw [← stageNodes_deployed, same, stageNodes_deployed] at planned
  rw [← stageSkipEnabled_deployed, reached, stageSkipEnabled_deployed] at decided
  rw [operatorCred_of_deployed reached] at gated
  obtain ⟨changes, exported, names⟩ := previewNodes_of_stageNodes digests planned
  rw [previewNodes_deploying] at exported
  rw [staged, ← names]
  exact .ready prepared projected isReady (mapError_eq_ok signed) (mapError_eq_ok compiled) gated decided exported

theorem compileAndStage_foreseen {stored : Topology} (digests : ∀ text, crypto.bundleSHA256 text ≠ "")
    (held : store.topology = some stored) :
    Ensures store (compileAndStage crypto (env.deploying capabilities mode) {}) (fun _ => True)
      fun result _ => Foreseen crypto env capabilities mode store stored result.staged := by
  refine .bind ?_
  apply (Ensures.mapFail reconcile_frames).mono (fun _ _ => trivial)
  intro _ between reconciled
  have same := reconciled.sameDeployed
  have here : between.topology = some stored := by
    obtain ⟨pending, audit, rfl⟩ := reconciled
    exact held
  apply Ensures.read_bind
  simp only [here, nodes_of_deployed same]
  apply Ensures.lift_bind (fun _ _ => trivial)
  intro deployment good
  obtain ⟨omitted, good⟩ := deploying_eq_ok (mapError_eq_ok good)
  -- the stage heals first: its copy is the healed copy of the preview
  obtain ⟨⟨copy, omitted⟩, prepared, isCopy⟩ := map_eq_ok ((prepare_healed stored).symm.trans good)
  obtain ⟨rfl, rfl⟩ := Prod.mk.inj isCopy
  apply Ensures.lift_bind (fun _ _ => trivial)
  rintro ⟨subgraph, skipped⟩ projected
  split
  · next unready =>
    refine .trivial_bind fun _ _ => ?_
    refine .trivial_bind fun _ _ => ?_
    refine .trivial_bind fun _ _ => ?_
    exact .pure (.empty prepared (mapError_eq_ok projected) unready)
  · next isReady => exact stageReady_foreseen digests same prepared (mapError_eq_ok projected) isReady

end

section

variable {store : Store}

theorem entries_of_findAudit {want : AuditEntry} {audit : List AuditEntry} {seen found : Bool}
    (searched : findAudit want seen audit = .ok found) :
    audit.filter (fun entry => entry.eventID = want.eventID) = [] ∨
      seen = false ∧ audit.filter (fun entry => entry.eventID = want.eventID) = [want] := by
  induction audit generalizing seen with
  | nil => exact .inl rfl
  | cons entry rest ih =>
    rw [findAudit] at searched
    split at searched
    · next other =>
      rw [List.filter_cons_of_neg (by simpa using other)]
      exact ih searched
    · next same =>
      split at searched
      · cases searched
      · next unseen =>
        split at searched
        · cases searched
        · next whole =>
          rcases ih searched with none | ⟨impossible, -⟩
          · refine .inr ⟨Bool.eq_false_iff.mpr unseen, ?_⟩
            rw [List.filter_cons_of_pos (by simpa using same), none, not_not.mp whole]
          · cases impossible

theorem ensureAudit_repeats {entry : AuditEntry} :
    Ensures store (ensureAudit entry) (fun _ => True) fun _ _ => Completes store (ensureAudit entry)
      fun _ after => after.keystoneTransition = store.keystoneTransition := by
  apply Ensures.read_bind
  apply Ensures.lift_bind (fun _ _ => trivial)
  intro found searched
  apply Ensures.trivial.mono (fun _ _ => trivial)
  intro _ _ _
  apply ensureAudit_completes
  exact (entries_of_findAudit searched).imp_right And.right

theorem reconcile_repeats :
    Ensures store reconcilePendingKeystoneTransition (fun _ => True) fun _ _ =>
      Completes store reconcilePendingKeystoneTransition fun _ _ => True := by
  apply Ensures.read_bind
  cases held : store.keystoneTransition with
  | none =>
    apply Ensures.pure
    apply Completes.read_bind
    rw [held]
    exact .pure trivial
  | some pending =>
    apply Ensures.lift_bind (fun _ _ => trivial)
    intro _ valid
    have named : pending.audit.eventID ≠ "" := by
      intro blank
      simp [validatePendingKeystoneTransition, blank, isEventID] at valid
    have resumed (rest : Completes store (if store.operatorCred = some pending.next then
          ensurePendingKeystoneAudit pending
        else if store.operatorCred = pending.expected then deletePendingKeystoneTransition pending.audit.eventID
        else fail (.pendingConflict "current credential matches neither expected nor next")) fun _ _ => True) :
        Completes store reconcilePendingKeystoneTransition fun _ _ => True := by
      apply Completes.read_bind
      rw [held]
      apply Completes.bind
      exact .lift valid rest
    split
    · next pinned =>
      refine .bind ?_
      apply ensureAudit_repeats.mono (fun _ _ => trivial)
      intro _ _ repeats
      apply Ensures.trivial.mono (fun _ _ => trivial)
      intro _ _ _
      apply resumed
      rw [if_pos pinned]
      apply Completes.bind
      exact repeats.mono fun _ _ same => deletePending_completes (same.trans held) named
    · next unpinned =>
      split
      · next expected =>
        apply Ensures.trivial.mono (fun _ _ => trivial)
        intro _ _ _
        apply resumed
        rw [if_neg unpinned, if_pos expected]
        exact deletePending_completes held named
      · exact .fail trivial

variable {crypto : Crypto} {env : StageEnv} {capabilities : String → Option (List String)} {mode : PolicyDeployMode}
  {topo : Topology} {changed : List String}

theorem Foreseen.completes (foreseen : Foreseen crypto env capabilities mode store topo changed)
    (reconciles : Completes store reconcilePendingKeystoneTransition fun _ _ => True) :
    Completes store (deployPreview crypto env capabilities mode topo) fun _ _ => True := by
  cases foreseen with
  | empty prepared projected unready =>
    apply Completes.read_bind
    apply Completes.lift_bind (congrArg (Except.mapError _) prepared)
    apply Completes.lift_bind (congrArg (Except.mapError _) projected)
    simp only [unready, if_true]
    exact .pure trivial
  | ready prepared projected isReady signed compiled gated decided exported =>
    apply Completes.read_bind
    apply Completes.lift_bind (congrArg (Except.mapError _) prepared)
    apply Completes.lift_bind (congrArg (Except.mapError _) projected)
    simp only [isReady, if_false]
    apply Completes.lift_bind (congrArg (Except.mapError _) signed)
    apply Completes.lift_bind (congrArg (Except.mapError _) compiled)
    apply Completes.bind
    apply (Completes.mapFail (reconciles.ensured reconcile_frames)).mono
    intro _ after reconciled
    have same := reconciled.sameDeployed
    rw [← operatorCred_of_deployed same] at gated
    rw [← stageSkipEnabled_deployed, ← same, stageSkipEnabled_deployed] at decided
    rw [← previewNodes_deployed, ← same, previewNodes_deployed] at exported
    apply Completes.read_bind
    apply Completes.require_bind gated
    apply Completes.lift_bind decided
    apply Completes.lift_bind exported
    exact .pure trivial

theorem compileAndStage_reconciles {config : StageConfig} :
    Ensures store (compileAndStage crypto env config) (fun _ => True) fun _ _ =>
      Completes store reconcilePendingKeystoneTransition fun _ _ => True := by
  refine .bind ?_
  apply (Ensures.mapFail reconcile_repeats).mono (fun _ _ => trivial)
  intro _ _ repeats
  exact Ensures.trivial.mono (fun _ _ => trivial) fun _ _ _ => repeats

end

/-- If an unforced stage of the stored design returns, a preview of that design from the same store returns
unless a write fails, and whenever it returns it reports as changed the nodes that the stage staged. -/
theorem preview_predicts_stage (crypto : Crypto) (env : StageEnv) (capabilities : String → Option (List String))
    (mode : PolicyDeployMode) (store : Store) (stored : Topology) (plan : List Fault) (result : StageResult)
    (digests : ∀ text, crypto.bundleSHA256 text ≠ "") (held : store.topology = some stored)
    (staged : (compileAndStage crypto (env.deploying capabilities mode) {} store plan).outcome = .done result) :
    (∃ preview, (deployPreview crypto env capabilities mode stored store []).outcome = .done preview) ∧
      ∀ faults preview, (deployPreview crypto env capabilities mode stored store faults).outcome = .done preview →
        changedIDs preview.nodes = result.staged := by
  have foreseen := (compileAndStage_foreseen digests held).outcome_done staged
  have reconciles := compileAndStage_reconciles.outcome_done staged
  constructor
  · obtain ⟨preview, after, ended, -⟩ := foreseen.completes reconciles
    exact ⟨preview, by rw [ended]⟩
  · intro faults preview returned
    exact (deployPreview_foreseen.outcome_done returned).unique foreseen

/-- The node `a` is served what a stage would export for it now, and `b` has enrolled since. -/
def sampleServed : Store :=
  { sampleFleet with
    generation := 1
    current := (∅ : Records SignedBundle).insert "a"
      { nodeID := "a", generation := 1, files := (∅ : Records String).insert "checksums.sha256" "one", isCurrent := true } }

theorem sampleServed_previewed : ∃ preview,
    (deployPreview sampleCrypto (sampleStaging "one") (fun _ => none) .upgradeAgentsFirst samplePinnedTwice sampleServed
      []).outcome = .done preview ∧ changedIDs preview.nodes = ["b"] := by
  have evaluated : (sampleFleetStage sampleServed []).outcome.value?.map (·.staged) = some ["b"] := by decide +kernel
  obtain ⟨result, returned, names⟩ := Option.map_eq_some_iff.mp evaluated
  obtain ⟨⟨preview, ended⟩, same⟩ := preview_predicts_stage sampleCrypto (sampleStaging "one") (fun _ => none)
    .upgradeAgentsFirst sampleServed samplePinnedTwice [] result (fun text => by simp [sampleCrypto]) rfl
    (Outcome.eq_done returned)
  exact ⟨preview, ended, (same [] preview ended).trans names⟩

end Yaog.Controller
