import Yaog.Naming

/-!
# Validation findings

A finding names the field it is about, its code and the parameters of its message; the English
message is a function of the code and the parameters and is left out.
-/

namespace Yaog.Validator

open List

inductive Code where
  | projectIDRequired | projectNameRequired
  | domainNoneDefined | domainIDRequired | domainNameRequired
  | domainCIDREmpty | domainCIDRInvalid | domainCIDRNotIPv4 | domainCIDRTooLarge
  | domainTransitCIDRInvalid | domainTransitCIDRNotIPv4 | domainTransitCIDRTooLarge
  | domainTransitCIDRTooSmall
  | domainAllocationModeInvalid | domainRoutingModeUnimplemented | domainRoutingModeInvalid
  | domainReservedRangeNotIPv4 | domainReservedRangeInvalid | domainReservedAddressNotIPv4
  | nodeIDRequired | nodeIDIllegalChars | nodeIDNotPortable
  | nodeNameRequired | nodeNameIllegalChars | nodeDomainIDRequired | nodeRoleEmpty | nodeRoleInvalid
  | nodeDeploymentModeInvalid | nodeTelemetryProbesInvalid | nodeTelemetryDevicesInvalid
  | nodePlatformUnsupported | nodeXDPModeInvalid | nodeMimicEgressInterfaceInvalid
  | nodeOverlayIPInvalid | nodeWGPublicKeyInvalid | nodeMTUOutOfRange | nodeSSHPortOutOfRange
  | nodeRouterIDInvalid | nodeExtraPrefixInvalid | nodeExtraPrefixNotIPv4
  | nodeSSHHostIllegalChars | nodeSSHAliasIllegalChars | nodeSSHUserIllegalChars
  | nodeSSHKeyPathIllegalChars | nodePublicEndpointHostIllegalChars
  | edgeIDRequired | edgeFromNodeIDRequired | edgeToNodeIDRequired | edgeTypeEmpty | edgeTypeInvalid
  | edgeTransportInvalid | edgeMimicFallbackInvalid | edgeMimicRelayPath
  | edgeEndpointHostIllegalChars | edgeEndpointPortInvalid | edgeEndpointPortWithoutHost
  | edgeRoleInvalid | edgeLinkDirectionInvalid | edgeSelfLoop
  | routePolicyReserved
  | topologyTooManyNodes | topologyTooManyEdges | topologyTooManyDomains
  | topologyTooManyReservedRanges | topologySchemaVersionUnsupported
  | nodeDomainRefMissing | edgeNodeRefMissing | nodeOverlayIPOutOfCIDR | nodeOverlayIPConflict
  | domainIDDuplicate | nodeIDDuplicate | nodeIDPortableCollision | edgeIDDuplicate
  | nodeNameDuplicate | nodeNameInterfaceCollision | nodeEffectivePortRangeOverflow | nodeIsolated
  | clientInboundRejected | clientTargetPeer | clientTargetClient | clientEndpointHostRequired
  | clientNoOutboundEdge | clientMultipleOutboundEdges | clientRouterIDMeaningless
  | clientExtraPrefixesMeaningless | edgeMimicPlatformUnsupported
  | pinClientPortPin | pinPortIncomplete | pinTransitIPIncomplete | pinLinkLocalIncomplete
  | pinPortOutOfRange | pinTransitIPInvalid | pinTransitIPOutOfCIDR | pinPortDuplicateCrossLink
  | pinTransitIPDuplicateCrossLink | pinLinkLocalDuplicateCrossLink
  | edgeEndpointNoMatch | edgeDuplicateEnabledSameDirection | nodeInterfaceNameCollision
  | edgeMultipleExplicitPrimary | edgeBackupTouchesClient | linkNoPrimary | linkEqualCost
  | natTargetUnreachable | natDeadLink | natDoubleNATNoEndpoint | natNoOutboundToPublic
  | edgeLinkDirectionConflict | edgeLinkDirectionForwardNoEndpoint | edgeLinkDirectionClientEdge
  deriving DecidableEq, Repr

inductive Level where
  | error | warning
  deriving DecidableEq, Repr

structure Finding where
  field : String
  code : Code
  params : List (String × String)
  level : Level

def error (field : String) (code : Code) (params : List (String × String) := []) : Finding :=
  { field, code, params, level := .error }

def warning (field : String) (code : Code) (params : List (String × String) := []) : Finding :=
  { field, code, params, level := .warning }

/-- `ValidationResult.Errors`. -/
def errors (findings : List Finding) : List Finding := findings.filter (·.level = .error)

/-- `ValidationResult.IsValid`. -/
def isValid (findings : List Finding) : Bool := (errors findings).isEmpty

def report (condition : Bool) (finding : Finding) : List Finding := if condition then [finding] else []

def eachIndexed {α : Type} (items : List α) (check : Nat → α → List Finding) : List Finding :=
  (items.mapIdx check).flatten

@[simp] theorem isValid_nil : isValid [] = true := rfl

@[simp] theorem isValid_append (first second : List Finding) :
    isValid (first ++ second) = true ↔ isValid first = true ∧ isValid second = true := by
  simp [isValid, errors, filter_append]

theorem isValid_iff {findings : List Finding} :
    isValid findings = true ↔ ∀ finding ∈ findings, finding.level = .warning := by
  simp only [isValid, errors, List.isEmpty_iff, List.filter_eq_nil_iff, decide_eq_true_eq]
  constructor
  · intro clean finding member
    cases level : finding.level with
    | error => exact absurd level (clean finding member)
    | warning => rfl
  · intro warnings finding member
    simp [warnings finding member]

@[simp] theorem isValid_report_error (condition : Bool) (field : String) (code : Code)
    (params : List (String × String)) :
    isValid (report condition (error field code params)) = true ↔ condition = false := by
  cases condition <;> simp [report, isValid, errors, error]

@[simp] theorem isValid_report_warning (condition : Bool) (field : String) (code : Code)
    (params : List (String × String)) :
    isValid (report condition (warning field code params)) = true := by
  cases condition <;> rfl

theorem isValid_flatten {groups : List (List Finding)} :
    isValid groups.flatten = true ↔ ∀ findings ∈ groups, isValid findings = true := by
  simp only [isValid_iff, mem_flatten]
  exact ⟨fun clean findings member finding inside => clean finding ⟨findings, member, inside⟩,
    fun clean finding ⟨findings, member, inside⟩ => clean findings member finding inside⟩

theorem isValid_eachIndexed {α : Type} {items : List α} {check : Nat → α → List Finding} :
    isValid (eachIndexed items check) = true ↔
      ∀ i item, items[i]? = some item → isValid (check i item) = true := by
  simp only [eachIndexed, isValid_flatten, mem_mapIdx]
  constructor
  · intro clean i item found
    obtain ⟨bound, equal⟩ := List.getElem?_eq_some_iff.mp found
    exact clean _ ⟨i, bound, by rw [equal]⟩
  · rintro clean _ ⟨i, bound, rfl⟩
    exact clean i _ (getElem?_eq_getElem bound)

theorem eachIndexed_map {α β : Type} {items : List α} {change : α → β} {check : Nat → β → List Finding} :
    eachIndexed (items.map change) check = eachIndexed items fun i item => check i (change item) := by
  have same : (items.map change).mapIdx check = items.mapIdx fun i item => check i (change item) := by
    apply ext_getElem?
    intro i
    simp [getElem?_mapIdx, getElem?_map, Option.map_map, Function.comp_def]
  rw [eachIndexed, same, eachIndexed]

end Yaog.Validator
