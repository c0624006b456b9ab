import Yaog.Controller.Revocation
import Yaog.Data.ReverseIndex

/-!
# The index of API tokens

A node's record carries the hash of its API token, and a second collection finds the node of a hash.
-/

namespace Yaog.Controller

open Data Validator Ceremony Option
open Session (Leaves)

variable {node : RegistryNode} {tokenHash nodeID context action hash : String} {request : Request}
  {ends : Except EnrollError Unit → Registry → Prop} {now : Nat} {req : EnrollRequest}

/-- The calls that change tokens, and the enrollment tokens and designs that `Enroll` reads. -/
inductive TokenCall where
  | enroll (req : EnrollRequest) (now : Nat) (hash : String)
  | issueNodeAPIToken (nodeID tokenHash : String)
  | revokeNodeAPIToken (nodeID : String)
  | handleRevoke (nodeID actor : String) (now : Nat)
  | mint (tokenHash : String) (token : EnrollmentToken)
  | design (topology : Option Topology)

def Registry.complete (registry : Registry) (session : Ceremony Unit) : Registry :=
  (Session.alone (Registry.serve false) registry session).1

def Registry.call (registry : Registry) : TokenCall → Registry
  | .enroll req now hash => registry.complete (Controller.enroll req now hash)
  | .issueNodeAPIToken nodeID tokenHash => (registry.issueToken nodeID tokenHash).1
  | .revokeNodeAPIToken nodeID => (registry.revokeToken nodeID).1
  | .handleRevoke nodeID actor now => registry.complete (Controller.handleRevoke nodeID actor now)
  | .mint tokenHash token => { registry with tokens := registry.tokens.insert tokenHash token }
  | .design topology => { registry with topology }

def Registry.calls (registry : Registry) (calls : List TokenCall) : Registry := calls.foldl Registry.call registry

/-- `LookupNodeByAPIToken`. -/
def Registry.lookupNodeByAPIToken (registry : Registry) (tokenHash : String) : Except EnrollError RegistryNode :=
  match registry.apiTokens[tokenHash]? with
  | none => .error .tokenInvalid
  | some nodeID =>
    match registry.nodes[nodeID]? with
    | none => .error .tokenInvalid
    | some node =>
      if node.apiTokenHash ≠ tokenHash ∨ node.status ≠ .approved then .error .tokenInvalid else .ok node

def Registry.Carries (registry : Registry) (nodeID tokenHash : String) : Prop :=
  tokenHash ≠ "" ∧ ∃ node, registry.nodes[nodeID]? = some node ∧ node.apiTokenHash = tokenHash

def Registry.IndexExact (registry : Registry) : Prop :=
  ∀ tokenHash nodeID, registry.apiTokens[tokenHash]? = some nodeID ↔ registry.Carries nodeID tokenHash

def Registry.Resolves (registry : Registry) : Prop :=
  ∀ tokenHash, (∃ node, registry.lookupNodeByAPIToken tokenHash = .ok node) ↔ ∃ nodeID, registry.Carries nodeID tokenHash

def RegistryNode.token (node : RegistryNode) : Option String :=
  if node.apiTokenHash = "" then none else some node.apiTokenHash

def Registry.token (registry : Registry) (nodeID : String) : Option String :=
  registry.nodes[nodeID]?.bind RegistryNode.token

section

variable {registry after : Registry}

theorem RegistryNode.token_eq_some :
    node.token = some tokenHash ↔ tokenHash ≠ "" ∧ node.apiTokenHash = tokenHash := by
  unfold RegistryNode.token
  split
  · next blank =>
    constructor
    · intro impossible
      cases impossible
    · exact fun ⟨visible, same⟩ => absurd (same.symm.trans blank) visible
  · next visible =>
    rw [some.injEq]
    exact ⟨fun same => ⟨same ▸ visible, same⟩, And.right⟩

theorem Registry.token_eq_some :
    registry.token nodeID = some tokenHash ↔ registry.Carries nodeID tokenHash := by
  rw [Registry.token, bind_eq_some_iff]
  constructor
  · intro ⟨node, held, carried⟩
    obtain ⟨visible, same⟩ := RegistryNode.token_eq_some.mp carried
    exact ⟨visible, node, held, same⟩
  · intro ⟨visible, node, held, same⟩
    exact ⟨node, held, RegistryNode.token_eq_some.mpr ⟨visible, same⟩⟩

theorem indexExact_iff : registry.IndexExact ↔ Indexes registry.token fun tokenHash => registry.apiTokens[tokenHash]? := by
  constructor
  · intro exact nodeID tokenHash
    rw [Registry.token_eq_some]
    exact exact tokenHash nodeID
  · intro indexes tokenHash nodeID
    rw [← Registry.token_eq_some]
    exact indexes nodeID tokenHash

def Registry.TokensApproved (registry : Registry) : Prop :=
  ∀ (nodeID : String) (node : RegistryNode), registry.nodes[nodeID]? = some node → node.apiTokenHash ≠ "" →
    node.status = .approved

theorem Registry.IndexExact.resolves (exact : registry.IndexExact) (approved : registry.TokensApproved) :
    registry.Resolves := by
  intro tokenHash
  constructor
  · intro ⟨node, found⟩
    unfold Registry.lookupNodeByAPIToken at found
    split at found
    · cases found
    · next nodeID listed => exact ⟨nodeID, (exact tokenHash nodeID).mp listed⟩
  · intro ⟨nodeID, carries⟩
    have listed := (exact tokenHash nodeID).mpr carries
    obtain ⟨visible, node, held, same⟩ := carries
    have status := approved nodeID node held (same ▸ visible)
    refine ⟨node, ?_⟩
    simp [Registry.lookupNodeByAPIToken, listed, held, same, status]

def SameTokens (before after : Registry) : Prop := after.nodes = before.nodes ∧ after.apiTokens = before.apiTokens

def Replaces (before after : Registry) (nodeID : String) (node : RegistryNode) : Prop :=
  ∀ other : String, after.nodes[other]? = if nodeID = other then some node else before.nodes[other]?

theorem Replaces.token (replaces : Replaces registry after nodeID node)
    (other : String) : after.token other = if nodeID = other then node.token else registry.token other := by
  unfold Registry.token
  rw [replaces other]
  split <;> rfl

theorem replaces_insert {tokens : Records EnrollmentToken}
    {apiTokens : Records String} {topology : Option Topology} {audit : List AuditEntry} :
    Replaces registry ⟨registry.nodes.insert nodeID node, tokens, apiTokens, topology, audit⟩ nodeID node :=
  fun _ => Records.getElem?_insert

theorem Replaces.trans {middle : Registry} {first second : RegistryNode}
    (one : Replaces registry middle nodeID first) (two : Replaces middle after nodeID second) :
    Replaces registry after nodeID second := by
  intro other
  rw [two other, one other]
  split <;> rfl

theorem Replaces.same {last : Registry}
    (replaces : Replaces registry after nodeID node) (same : SameTokens after last) :
    Replaces registry last nodeID node := by
  intro other
  rw [same.1]
  exact replaces other

/-- All that the calls keep. -/
structure Registry.TokensSound (registry : Registry) : Prop where
  keyed : registry.Keyed
  exact : registry.IndexExact
  approved : registry.TokensApproved

theorem Registry.TokensSound.same (sound : registry.TokensSound) (same : SameTokens registry after) :
    after.TokensSound := by
  obtain ⟨keyed, exact, approved⟩ := sound
  refine ⟨?_, ?_, ?_⟩
  · unfold Registry.Keyed
    rw [same.1]
    exact keyed
  · unfold Registry.IndexExact Registry.Carries
    rw [same.1, same.2]
    exact exact
  · unfold Registry.TokensApproved
    rw [same.1]
    exact approved

theorem Replaces.keyed (replaces : Replaces registry after nodeID node)
    (keyed : registry.Keyed) (named : node.nodeID = nodeID) : after.Keyed := by
  intro other found held
  rw [replaces other] at held
  split at held
  · next same =>
    cases held
    exact named.trans same
  · exact keyed other found held

theorem Replaces.approved (replaces : Replaces registry after nodeID node)
    (approved : registry.TokensApproved) (own : node.apiTokenHash ≠ "" → node.status = .approved) :
    after.TokensApproved := by
  intro other found held
  rw [replaces other] at held
  split at held
  · cases held
    exact own
  · exact approved other found held

def Registry.unheld (registry : Registry) (nodeID tokenHash : String) : Bool :=
  registry.nodes.toList.all fun entry => entry.1 = nodeID || entry.2.apiTokenHash ≠ tokenHash

theorem Registry.unheld_token (unheld : registry.unheld nodeID tokenHash = true)
    {other : String} (held : registry.token other = some tokenHash) : other = nodeID := by
  obtain ⟨-, node, stored, same⟩ := Registry.token_eq_some.mp held
  have checked := List.all_eq_true.mp unheld (other, node) (Records.mem_toList.mpr stored)
  simpa [same] using checked

theorem Registry.TokensSound.assign (sound : registry.TokensSound) (nodeID : String) (node : RegistryNode)
    (visible : node.apiTokenHash ≠ "") (named : node.nodeID = nodeID) (status : node.status = .approved)
    (unheld : registry.unheld nodeID node.apiTokenHash = true) (replaces : Replaces registry after nodeID node)
    (entered : ∀ other : String, after.apiTokens[other]? =
      if node.apiTokenHash = other then some nodeID
      else if registry.token nodeID = some other then none else registry.apiTokens[other]?) :
    after.TokensSound := by
  refine ⟨replaces.keyed sound.keyed named, ?_, replaces.approved sound.approved fun _ => status⟩
  have own : node.token = some node.apiTokenHash := if_neg visible
  rw [indexExact_iff]
  refine (indexExact_iff.mp sound.exact).assign (fun _ => Registry.unheld_token unheld) (fun other => ?_) entered
  rw [replaces.token other, own]

theorem Registry.TokensSound.release (sound : registry.TokensSound) (nodeID : String) (node : RegistryNode)
    (blank : node.apiTokenHash = "") (named : node.nodeID = nodeID) (replaces : Replaces registry after nodeID node)
    (left : ∀ other : String, after.apiTokens[other]? =
      if registry.token nodeID = some other then none else registry.apiTokens[other]?) :
    after.TokensSound := by
  refine ⟨replaces.keyed sound.keyed named, ?_, replaces.approved sound.approved fun visible => absurd blank visible⟩
  have none' : node.token = none := if_pos blank
  rw [indexExact_iff]
  refine (indexExact_iff.mp sound.exact).release (fun other => ?_) left
  rw [replaces.token other, none']

theorem Registry.token_of_held (held : registry.nodes[nodeID]? = some node) :
    registry.token nodeID = node.token := by
  rw [Registry.token, held]
  rfl

theorem erase_token (visible : node.apiTokenHash ≠ "") (other : String) :
    (registry.apiTokens.erase node.apiTokenHash)[other]? =
      if node.token = some other then none else registry.apiTokens[other]? := by
  rw [Records.getElem?_erase, RegistryNode.token, if_neg visible]
  simp only [some.injEq]

theorem issueToken_sound (sound : registry.TokensSound) (visible : tokenHash ≠ "")
    (unheld : registry.unheld nodeID tokenHash = true)
    (approved : ∀ node, registry.nodes[nodeID]? = some node → node.status = .approved) :
    (registry.issueToken nodeID tokenHash).1.TokensSound := by
  unfold Registry.issueToken
  split
  · exact sound
  · next node held =>
    refine sound.assign nodeID { node with apiTokenHash := tokenHash } visible
      (sound.keyed nodeID node held) (approved node held) unheld replaces_insert fun other => ?_
    rw [Records.getElem?_insert, Registry.token_of_held held]
    by_cases own : tokenHash = other
    · rw [if_pos own, if_pos own]
    rw [if_neg own, if_neg own]
    split
    · next rotates => exact erase_token rotates.1 other
    · next kept =>
      -- The entry that is kept is the node's own new one.
      have unmatched : node.token ≠ some other := by
        intro carried
        obtain ⟨seen, same⟩ := RegistryNode.token_eq_some.mp carried
        exact kept ⟨same ▸ seen, fun equal => own (equal.symm.trans same)⟩
      rw [if_neg unmatched]

def Releases (nodeID : String) (node : RegistryNode) (before after : Registry) : Prop :=
  Replaces before after nodeID { node with apiTokenHash := "" } ∧
    ∀ other : String, after.apiTokens[other]? = if node.token = some other then none else before.apiTokens[other]?

theorem revokeToken_releases (held : registry.nodes[nodeID]? = some node) :
    Releases nodeID node registry (registry.revokeToken nodeID).1 := by
  rw [Registry.revokeToken, held]
  by_cases blank : node.apiTokenHash = ""
  · have same : { node with apiTokenHash := "" } = node := by
      rw [← blank]
    simp only [if_pos blank]
    refine ⟨fun other => ?_, fun other => ?_⟩
    · split
      · next own => rw [same, ← own, held]
      · rfl
    · have tokenless : node.token = none := if_pos blank
      simp [tokenless]
  · simp only [if_neg blank]
    exact ⟨replaces_insert, erase_token blank⟩

theorem Releases.sound (releases : Releases nodeID node registry after)
    (held : registry.token nodeID = node.token) (named : node.nodeID = nodeID) (sound : registry.TokensSound) :
    after.TokensSound := by
  refine sound.release nodeID { node with apiTokenHash := "" } rfl named releases.1 fun other => ?_
  rw [held]
  exact releases.2 other

theorem revokeToken_sound (sound : registry.TokensSound) (nodeID : String) :
    (registry.revokeToken nodeID).1.TokensSound := by
  cases held : registry.nodes[nodeID]? with
  | none =>
    rw [Registry.revokeToken, held]
    exact sound
  | some node =>
    exact (revokeToken_releases held).sound (Registry.token_of_held held) (sound.keyed nodeID node held) sound

end

section

variable {registry : Registry}

theorem SameTokens.refl (registry : Registry) : SameTokens registry registry := ⟨rfl, rfl⟩

theorem consumeToken_same (tokenHash nodeID : String) (now : Nat) :
    SameTokens registry (registry.consumeToken tokenHash nodeID now).1 := by
  unfold Registry.consumeToken
  split
  · exact .refl registry
  · split_ifs <;> exact .refl registry

theorem perform_leaves (holds : ∀ result, ends result (registry.serve false request).1) :
    Leaves (Registry.serve false) registry (perform request context) ends := by
  refine Leaves.ask ?_
  generalize (registry.serve false request).2 = reply
  cases reply <;> exact holds _

theorem perform_granted
    (granted : (registry.serve false request).2 = .ok) (holds : ends (.ok ()) (registry.serve false request).1) :
    Leaves (Registry.serve false) registry (perform request context) ends := by
  refine Leaves.ask ?_
  rw [granted]
  exact holds

theorem appendAudit_leaves {actor : String} (holds : ∀ result last, SameTokens registry last → ends result last) :
    Leaves (Registry.serve false) registry (appendAudit actor action nodeID now context) ends :=
  perform_leaves fun result => holds result _ ⟨rfl, rfl⟩

theorem findNode_leaves (looks : request = .getNode nodeID ∨ request = .getNodeRecord nodeID)
    {ends : Except EnrollError (Option RegistryNode) → Registry → Prop}
    (found : ends (.ok registry.nodes[nodeID]?) registry) :
    Leaves (Registry.serve false) registry (findNode request context) ends := by
  have served : registry.serve false request =
      (registry, (registry.nodes[nodeID]?.map Reply.node).getD .notFound) := by
    rcases looks with rfl | rfl <;> rfl
  refine Leaves.ask ?_
  rw [served]
  cases stored : registry.nodes[nodeID]? with
  | none =>
    rw [stored] at found
    exact found
  | some node =>
    rw [stored] at found
    exact found

theorem getNodeRecord_leaves {ends : Except EnrollError RegistryNode → Registry → Prop}
    (missing : ends (.error .notFound) registry)
    (found : ∀ node, registry.nodes[nodeID]? = some node → ends (.ok node) registry) :
    Leaves (Registry.serve false) registry (getNodeRecord nodeID context) ends := by
  apply Leaves.andThen
  apply findNode_leaves (.inr rfl)
  cases held : registry.nodes[nodeID]? with
  | none => exact missing
  | some node => exact found node held

theorem getTopology_leaves {ends : Except EnrollError (Option Topology) → Registry → Prop}
    (holds : ∀ result, ends result registry) :
    Leaves (Registry.serve false) registry (getTopology context) ends := by
  refine Leaves.ask ?_
  have served : registry.serve false .getTopology = (registry, (registry.topology.map Reply.topology).getD .notFound) :=
    rfl
  rw [served]
  cases registry.topology <;> exact holds _

theorem listNodes_leaves {ends : Except EnrollError (List RegistryNode) → Registry → Prop}
    (listed : ends (.ok (registry.nodes.toList.map (·.2))) registry) :
    Leaves (Registry.serve false) registry (listNodes context) ends :=
  Leaves.ask listed

theorem checkWGKeyUnique_leaves {key self : String} {ends : Except EnrollError Unit → Registry → Prop}
    (holds : ∀ result, ends result registry) :
    Leaves (Registry.serve false) registry (checkWGKeyUnique key self) ends := by
  unfold checkWGKeyUnique
  simp only
  split
  · exact holds _
  · apply Leaves.andThen
    apply listNodes_leaves
    dsimp only
    split
    · exact holds _
    · apply Leaves.andThen
      apply getTopology_leaves
      intro result
      cases result with
      | error reason => exact holds _
      | ok topology =>
        cases topology with
        | none => exact holds _
        | some topology =>
          dsimp only
          split <;> exact holds _

def EnrollRequest.record (req : EnrollRequest) (hash : String) : RegistryNode :=
  { nodeID := req.nodeID, wgPublicKey := req.wgPublicKey, apiTokenHash := hash, status := .approved }

def Enrolls (req : EnrollRequest) (hash : String) (before after : Registry) : Prop :=
  Replaces before after req.nodeID (req.record hash) ∧
    ∀ other : String, after.apiTokens[other]? = if hash = other then some req.nodeID else before.apiTokens[other]?

theorem register_leaves :
    Leaves (Registry.serve false) registry (register req now hash action) fun _ after =>
      Enrolls req hash registry after := by
  let written : Registry := { registry with nodes := registry.nodes.insert req.nodeID (req.record hash) }
  have stored : written.nodes[req.nodeID]? = some (req.record hash) := by
    rw [Records.getElem?_insert, if_pos rfl]
  have issued : written.issueToken req.nodeID hash = ({ written with
          nodes := written.nodes.insert req.nodeID (req.record hash)
          apiTokens := written.apiTokens.insert hash req.nodeID }, .ok) := by
    rw [Registry.issueToken, stored]
    have unrotated : ¬((req.record hash).apiTokenHash ≠ "" ∧ (req.record hash).apiTokenHash ≠ hash) :=
      fun rotates => rotates.2 rfl
    simp only [if_neg unrotated]
    rfl
  apply Leaves.andThen
  apply perform_granted rfl
  apply Leaves.andThen
  have granted : (written.serve false (.issueNodeAPIToken req.nodeID hash)).2 = .ok := congrArg Prod.snd issued
  refine perform_granted granted ?_
  apply appendAudit_leaves
  intro result last same
  have kept : SameTokens (written.issueToken req.nodeID hash).1 last := same
  rw [issued] at kept
  refine ⟨(replaces_insert.trans replaces_insert).same kept, fun other => ?_⟩
  rw [kept.2]
  exact Records.getElem?_insert

theorem admitNode_leaves :
    Leaves (Registry.serve false) registry (admitNode req now hash action) fun _ after =>
      SameTokens registry after ∨ Enrolls req hash registry after := by
  apply Leaves.bind
  apply checkWGKeyUnique_leaves
  intro result
  cases result with
  | ok _ => exact register_leaves.mono fun _ _ enrolls => .inr enrolls
  | error reason =>
    apply Leaves.andThen
    apply appendAudit_leaves
    intro result last same
    cases result <;> exact .inl same

theorem guardLifecycle_leaves {existing : Option RegistryNode} :
    Leaves (Registry.serve false) registry (guardLifecycle req now hash existing) fun _ after =>
      SameTokens registry after ∨ Enrolls req hash registry after := by
  cases existing with
  | none => exact admitNode_leaves
  | some node =>
    simp only [guardLifecycle]
    split
    · apply Leaves.andThen
      apply appendAudit_leaves
      intro result last same
      cases result <;> exact .inl same
    · exact admitNode_leaves

theorem Enrolls.same {middle last : Registry} (same : SameTokens registry middle)
    (enrolls : Enrolls req hash middle last) : Enrolls req hash registry last := by
  unfold Enrolls Replaces at *
  rwa [← same.1, ← same.2]

theorem enroll_leaves (req : EnrollRequest) (now : Nat) (hash : String) :
    Leaves (Registry.serve false) registry (enroll req now hash) fun _ after =>
      SameTokens registry after ∨ Enrolls req hash registry after := by
  unfold enroll
  split
  · exact .inl (.refl registry)
  apply Leaves.andThen
  apply perform_leaves
  intro result
  have consumed : SameTokens registry (registry.serve false (.consumeEnrollmentToken req.tokenHash req.nodeID now)).1 :=
    consumeToken_same _ _ _
  cases result with
  | error reason => exact .inl consumed
  | ok _ =>
    apply Leaves.andThen
    apply findNode_leaves (.inl rfl)
    apply guardLifecycle_leaves.mono
    intro _ last left
    rcases left with same | enrolls
    · exact .inl ⟨same.1.trans consumed.1, same.2.trans consumed.2⟩
    · exact .inr (enrolls.same consumed)

theorem revokeToken_granted (nodeID : String) : (registry.revokeToken nodeID).2 = .ok := by
  unfold Registry.revokeToken
  split
  · rfl
  · split <;> rfl

theorem handleRevoke_leaves (keyed : registry.Keyed) (nodeID actor : String) (now : Nat) :
    Leaves (Registry.serve false) registry (handleRevoke nodeID actor now) fun _ after =>
      SameTokens registry after ∨ ∃ node, registry.nodes[nodeID]? = some node ∧
        Releases nodeID { node with status := .revoked, rekeyRequested := false } registry after := by
  unfold handleRevoke
  split
  · exact .inl (.refl registry)
  apply Leaves.andThen
  apply getNodeRecord_leaves
  · exact .inl (.refl registry)
  intro node held
  have named : node.nodeID = nodeID := keyed nodeID node held
  let marked : RegistryNode := { node with status := .revoked, rekeyRequested := false }
  let written : Registry := { registry with nodes := registry.nodes.insert node.nodeID marked }
  have writes : Replaces registry written nodeID marked := named ▸ replaces_insert
  have stored : written.nodes[nodeID]? = some marked := by
    rw [writes nodeID, if_pos rfl]
  obtain ⟨replaced, left⟩ := revokeToken_releases stored
  have granted : (written.serve false (.revokeNodeAPIToken nodeID)).2 = .ok := revokeToken_granted nodeID
  apply Leaves.andThen
  apply perform_granted rfl
  apply Leaves.andThen
  refine perform_granted granted ?_
  apply Leaves.andThen
  apply perform_granted rfl
  apply appendAudit_leaves
  intro result last same
  have kept : SameTokens (written.revokeToken nodeID).1 last := same
  refine .inr ⟨node, held, (writes.trans replaced).same kept, fun other => ?_⟩
  rw [kept.2]
  exact left other

end

def TokenCall.clean (registry : Registry) : TokenCall → Bool
  | .enroll req _ hash => hash ≠ "" && registry.unheld req.nodeID hash && (registry.token req.nodeID).isNone
  | .issueNodeAPIToken nodeID tokenHash => tokenHash ≠ "" && registry.unheld nodeID tokenHash
      && registry.nodes[nodeID]?.all (·.status = .approved)
  | _ => true

def cleanCalls : Registry → List TokenCall → Bool
  | _, [] => true
  | registry, call :: rest => call.clean registry && cleanCalls (registry.call call) rest

section

variable {registry : Registry}

section

variable (sound : registry.TokensSound)

include sound

theorem Registry.TokensSound.enroll (clean : (TokenCall.enroll req now hash).clean registry = true) :
    (registry.call (.enroll req now hash)).TokensSound := by
  simp only [TokenCall.clean, Bool.and_eq_true, decide_eq_true_eq, isNone_iff_eq_none] at clean
  obtain ⟨⟨visible, unheld⟩, tokenless⟩ := clean
  have left : SameTokens registry (registry.call (.enroll req now hash)) ∨
      Enrolls req hash registry (registry.call (.enroll req now hash)) := enroll_leaves req now hash
  rcases left with same | ⟨replaces, entered⟩
  · exact sound.same same
  · refine sound.assign req.nodeID (req.record hash) visible rfl rfl unheld replaces fun other => ?_
    rw [entered other, tokenless]
    simp [EnrollRequest.record]

theorem Registry.TokensSound.handleRevoke (nodeID actor : String) (now : Nat) :
    (registry.call (.handleRevoke nodeID actor now)).TokensSound := by
  rcases handleRevoke_leaves sound.keyed nodeID actor now with same | ⟨node, held, releases⟩
  · exact sound.same same
  · have token : registry.token nodeID = node.token := Registry.token_of_held held
    exact releases.sound token (sound.keyed nodeID node held) sound

theorem Registry.TokensSound.call {call : TokenCall}
    (clean : call.clean registry = true) : (registry.call call).TokensSound := by
  cases call with
  | enroll req now hash => exact sound.enroll clean
  | issueNodeAPIToken nodeID tokenHash =>
    simp only [TokenCall.clean, Bool.and_eq_true, decide_eq_true_eq] at clean
    obtain ⟨⟨visible, unheld⟩, status⟩ := clean
    refine issueToken_sound sound visible unheld fun node held => ?_
    simpa [held] using status
  | revokeNodeAPIToken nodeID => exact revokeToken_sound sound nodeID
  | handleRevoke nodeID actor now => exact sound.handleRevoke nodeID actor now
  | mint tokenHash token => exact sound.same ⟨rfl, rfl⟩
  | design topology => exact sound.same ⟨rfl, rfl⟩

theorem Registry.TokensSound.calls {calls : List TokenCall}
    (clean : cleanCalls registry calls = true) : (registry.calls calls).TokensSound := by
  induction calls generalizing registry with
  | nil => exact sound
  | cons call rest ih =>
    obtain ⟨first, later⟩ := Bool.and_eq_true_iff.mp clean
    exact ih (sound.call first) later

end

end

/-- After calls that are clean, the index is exact and a token resolves just if some node carries it. -/
theorem token_index_exact (calls : List TokenCall) (clean : cleanCalls {} calls = true) :
    (Registry.calls {} calls).IndexExact ∧ (Registry.calls {} calls).Resolves := by
  have start : Registry.TokensSound {} := by
    refine ⟨?_, ?_, ?_⟩
    · intro nodeID node held
      simp at held
    · intro tokenHash nodeID
      simp [Registry.Carries]
    · intro nodeID node held
      simp at held
  have sound := start.calls clean
  exact ⟨sound.exact, sound.exact.resolves sound.approved⟩

def sampleWGKey : String := "AAAAAAAAAAAAAAAAAAAAAAAAAAAAAAAAAAAAAAAAAAA="

/-- A node enrolls, gets a new token from the operator, and is revoked. -/
def sampleReissued : List TokenCall := [
  .mint "e1" { nodeID := "n", expiresAt := 9 },
  .enroll { nodeID := "n", wgPublicKey := sampleWGKey, tokenHash := "e1" } 1 "h1",
  .issueNodeAPIToken "n" "h2",
  .handleRevoke "n" "operator" 2]

theorem sampleReissued_exact :
    cleanCalls {} sampleReissued = true ∧
      (Registry.calls {} (sampleReissued.take 3)).lookupNodeByAPIToken "h2" ≠ .error .tokenInvalid ∧
      (Registry.calls {} sampleReissued).IndexExact ∧ (Registry.calls {} sampleReissued).Resolves :=
  ⟨by decide +kernel, by decide +kernel, token_index_exact sampleReissued (by decide +kernel)⟩

/-- A node enrolls again with a second enrollment token. -/
def sampleReenrolled : List TokenCall := [
  .mint "e1" { nodeID := "n", expiresAt := 9 },
  .enroll { nodeID := "n", wgPublicKey := sampleWGKey, tokenHash := "e1" } 1 "h1",
  .mint "e2" { nodeID := "n", expiresAt := 9 },
  .enroll { nodeID := "n", wgPublicKey := sampleWGKey, tokenHash := "e2" } 2 "h2"]

theorem sampleReenrolled_orphan :
    let after := Registry.calls {} sampleReenrolled
    after.apiTokens[("h1")]? = some "n" ∧ (after.nodes[("n")]?.map (·.apiTokenHash)) = some "h2" ∧
      ¬after.IndexExact := by
  intro after
  have stale : after.apiTokens[("h1")]? = some "n" := by decide +kernel
  have current : (after.nodes[("n")]?.map (·.apiTokenHash)) = some "h2" := by decide +kernel
  refine ⟨stale, current, fun exact => ?_⟩
  obtain ⟨-, node, held, carried⟩ := (exact "h1" "n").mp stale
  rw [held] at current
  have other : node.apiTokenHash = "h2" := some.inj current
  exact absurd (carried.symm.trans other) (by decide)

end Yaog.Controller
