import Mathlib.Data.List.TakeWhile
import Yaog.Controller.Enrollment
import Yaog.Controller.StoreFacts

/-!
# The calls under the operation lock

What a call may write into the registry, by what it has read.
-/

namespace Yaog.Controller

open Data Validator Ceremony List Option
open Session (Obeys)

variable {registry : Registry} {node : RegistryNode} {request : Request} {fault : Bool} {now : Nat}
  {context nodeID id key action : String}

inductive LockedCall where
  | enroll (req : EnrollRequest) (now : Nat) (hash : String)
  | rekey (nodeID newPubKey : String) (now : Nat)
  | flagFleetRekey
  | clearNodeRekey (nodeID : String)

def LockedCall.session : LockedCall → Ceremony Unit
  | .enroll req now hash => Controller.enroll req now hash
  | .rekey nodeID newPubKey now => Controller.rekey nodeID newPubKey now
  | .flagFleetRekey => Controller.flagFleetRekey.andThen fun _ => give ()
  | .clearNodeRekey nodeID => (Controller.clearNodeRekey nodeID).andThen fun _ => give ()

def Registry.Keyed (registry : Registry) : Prop :=
  ∀ (nodeID : String) (node : RegistryNode), registry.nodes[nodeID]? = some node → node.nodeID = nodeID

def Registry.Revoked (registry : Registry) (nodeID : String) : Prop :=
  registry.nodes[nodeID]?.map (·.status) = some .revoked

instance (registry : Registry) (nodeID : String) : Decidable (registry.Revoked nodeID) :=
  inferInstanceAs (Decidable (_ = _))

def Registry.KeyFree (registry : Registry) (nodeID key : String) : Prop :=
  ∀ (other : String) (node : RegistryNode), registry.nodes[other]? = some node → node.status = .approved →
    trimSpace node.wgPublicKey = key → other = nodeID

/-- What a request makes of the records of nodes. -/
inductive Rewrites (registry : Registry) (request : Request) : Records RegistryNode → Prop where
  | same : Rewrites registry request registry.nodes
  | upserted (node : RegistryNode) (asked : request = .upsertNode node) :
    Rewrites registry request (registry.nodes.insert node.nodeID node)
  | retokened (nodeID : String) (node : RegistryNode) (apiTokenHash : String)
    (held : registry.nodes[nodeID]? = some node) :
    Rewrites registry request (registry.nodes.insert nodeID { node with apiTokenHash })

theorem serve_rewrites (fault : Bool) (registry : Registry) (request : Request) :
    Rewrites registry request (registry.serve fault request).1.nodes := by
  unfold Registry.serve
  split
  · exact .same
  · cases request with
    | upsertNode node => exact .upserted node rfl
    | consumeEnrollmentToken tokenHash owner now =>
      simp only [Registry.consumeToken]
      split
      · exact .same
      · split_ifs <;> exact .same
    | issueNodeAPIToken owner tokenHash =>
      simp only [Registry.issueToken]
      split
      · exact .same
      · next node held => exact .retokened owner node tokenHash held
    | revokeNodeAPIToken owner =>
      simp only [Registry.revokeToken]
      split
      · exact .same
      · next node held =>
        split
        · exact .same
        · exact .retokened owner node "" held
    | _ => exact .same

/-- Where a record comes from. -/
theorem serve_found (held : (registry.serve fault request).1.nodes[nodeID]? = some node) :
    (request = .upsertNode node ∧ node.nodeID = nodeID) ∨
      ∃ old apiTokenHash, registry.nodes[nodeID]? = some old ∧ node = { old with apiTokenHash } := by
  have rewrites := serve_rewrites fault registry request
  generalize (registry.serve fault request).1.nodes = nodes at rewrites held
  cases rewrites with
  | same => exact .inr ⟨node, _, held, rfl⟩
  | upserted written asked =>
    rw [Records.getElem?_insert] at held
    split at held
    · next same =>
      cases held
      exact .inl ⟨asked, same⟩
    · exact .inr ⟨node, _, held, rfl⟩
  | retokened owner old apiTokenHash stored =>
    rw [Records.getElem?_insert] at held
    split at held
    · next same =>
      cases held
      exact .inr ⟨old, apiTokenHash, same ▸ stored, rfl⟩
    · exact .inr ⟨node, _, held, rfl⟩

theorem Registry.Keyed.serve (keyed : registry.Keyed) (request : Request) :
    (registry.serve fault request).1.Keyed := by
  intro other node held
  rcases serve_found held with ⟨-, named⟩ | ⟨old, _, stored, rfl⟩
  · exact named
  · exact keyed other old stored

theorem Registry.Revoked.status (revoked : registry.Revoked nodeID)
    (held : registry.nodes[nodeID]? = some node) : node.status = .revoked := by
  rw [Registry.Revoked, held] at revoked
  exact some.inj revoked

theorem Registry.Revoked.serve (revoked : registry.Revoked nodeID)
    (kept : ∀ node, request = .upsertNode node → node.nodeID = nodeID → node.status = .revoked) :
    (registry.serve fault request).1.Revoked nodeID := by
  have rewrites := serve_rewrites fault registry request
  unfold Registry.Revoked
  generalize (registry.serve fault request).1.nodes = nodes at rewrites
  cases rewrites with
  | same => exact revoked
  | upserted node asked =>
    rw [Records.getElem?_insert]
    split
    · next same => exact congrArg some (kept node asked same)
    · exact revoked
  | retokened owner node apiTokenHash held =>
    rw [Records.getElem?_insert]
    split
    · next same =>
      subst same
      exact congrArg some (revoked.status held :)
    · exact revoked

/-- What a call knows: whether it holds a copy of the watched node's record that was not revoked, and which keys it has
found free for a node, or held by it, since it last wrote. -/
structure Watch where
  held : Bool := false
  cleared : String → String → Prop := fun _ _ => False

def Request.writes : Request → Bool
  | .upsertNode _ => true
  | _ => false

def Request.reads (nodeID : String) : Request → Bool
  | .getNode id | .getNodeRecord id => id = nodeID
  | _ => false

def Watch.read (nodeID : String) (watch : Watch) (registry : Registry) (request : Request) : Watch where
  held := if request.reads nodeID then !decide (registry.Revoked nodeID) else watch.held
  cleared id key := watch.cleared id key ∨ registry.KeyFree id key ∨
    ∃ node, registry.nodes[id]? = some node ∧ node.status = .approved ∧ trimSpace node.wgPublicKey = key

def Watch.Permits (nodeID : String) (watch : Watch) (node : RegistryNode) : Prop :=
  (node.nodeID = nodeID → watch.held = true ∨ node.status = .revoked) ∧
    (node.status = .approved → watch.cleared node.nodeID (trimSpace node.wgPublicKey))

def lockedProtocol (nodeID : String) : Protocol Bool Registry Request Reply Watch where
  serve := Registry.serve
  keeps := Registry.Keyed
  allowed watch request := ∀ node, request = .upsertNode node → watch.Permits nodeID node
  track watch fault registry
    | .upsertNode node => { held := if node.nodeID = nodeID ∧ fault = false then false else watch.held }
    | request => watch.read nodeID registry request

abbrev Lawful {α : Type} (nodeID : String) (watch : Watch) (session : Ceremony α) : Prop :=
  Obeys (lockedProtocol nodeID) watch session fun _ _ => True

section

variable {α : Type} {watch : Watch} {next : Unit → Ceremony α} {changed : RegistryNode}

theorem read_obeys (reads : request.writes = false) {next : Reply → Ceremony α}
    {ends : Except EnrollError α → Watch → Prop}
    (onward : ∀ fault (registry : Registry), registry.Keyed → Obeys (lockedProtocol nodeID)
      (watch.read nodeID registry request) (next (registry.serve fault request).2) ends) :
    Obeys (lockedProtocol nodeID) watch (.ask request next) ends := by
  refine ⟨fun node asked => ?_, fun fault registry keyed => ?_⟩
  · subst asked
    cases reads
  · have tracked : (lockedProtocol nodeID).track watch fault registry request =
        watch.read nodeID registry request := by
      cases request <;> first | rfl | cases reads
    rw [tracked]
    exact onward fault registry keyed

theorem perform_lawful (reads : request.writes = false) : Lawful nodeID watch (perform request context) := by
  apply read_obeys reads
  intro fault registry _
  cases (registry.serve fault request).2 <;> trivial

theorem perform_then (reads : request.writes = false) (onward : ∀ last, Lawful nodeID last (next ())) :
    Lawful nodeID watch ((perform request context).andThen next) := by
  apply Obeys.andThen
  apply read_obeys reads
  intro fault registry _
  cases (registry.serve fault request).2 with
  | ok => exact onward _
  | _ => trivial

theorem auditRefusal_lawful {actor : String} {reason : EnrollError} :
    Lawful nodeID watch
      ((appendAudit actor action id now context).andThen fun _ => (refuse reason : Ceremony Unit)) :=
  perform_then rfl fun _ => trivial

theorem upsertNode_then (permitted : watch.Permits nodeID node) (onward : ∀ last, Lawful nodeID last (next ())) :
    Lawful nodeID watch ((upsertNode node context).andThen next) := by
  refine ⟨fun other same => ?_, fun fault registry _ => ?_⟩
  · obtain rfl := Request.upsertNode.inj same
    exact permitted
  · cases fault with
    | true => trivial
    | false => exact onward _

def Looked (nodeID id : String) (found : Option RegistryNode) (after : Watch) : Prop :=
  (∀ node, found = some node → node.nodeID = id ∧
      (node.status = .approved → after.cleared id (trimSpace node.wgPublicKey))) ∧
    (id = nodeID → after.held = true ∨ ∃ node, found = some node ∧ node.status = .revoked)

theorem findNode_obeys (looks : request = .getNode id ∨ request = .getNodeRecord id)
    {ends : Except EnrollError (Option RegistryNode) → Watch → Prop}
    (failed : ∀ last, ends (.error (.storage context)) last)
    (onward : ∀ found last, Looked nodeID id found last → ends (.ok found) last) :
    Obeys (lockedProtocol nodeID) watch (findNode request context) ends := by
  have reads : request.writes = false := by rcases looks with rfl | rfl <;> rfl
  have watched : request.reads nodeID = decide (id = nodeID) := by rcases looks with rfl | rfl <;> rfl
  apply read_obeys reads
  intro fault registry keyed
  cases fault with
  | true => exact failed _
  | false =>
    have replied : (registry.serve false request).2 = (registry.nodes[id]?.map Reply.node).getD .notFound := by
      rcases looks with rfl | rfl <;> rfl
    have looked : Looked nodeID id registry.nodes[id]? (watch.read nodeID registry request) := by
      refine ⟨fun node stored => ⟨keyed id node stored, fun approved => ?_⟩, fun same => ?_⟩
      · exact .inr (.inr ⟨node, stored, approved, rfl⟩)
      · subst same
        by_cases revoked : registry.Revoked id
        · exact .inr (map_eq_some_iff.mp revoked)
        · exact .inl (by simp [Watch.read, watched, revoked])
    rw [replied]
    cases stored : registry.nodes[id]? with
    | none => exact onward none _ (stored ▸ looked)
    | some node => exact onward (some node) _ (stored ▸ looked)

theorem getNodeRecord_then {next : RegistryNode → Ceremony α}
    (onward : ∀ node last, Looked nodeID id (some node) last → Lawful nodeID last (next node)) :
    Lawful nodeID watch ((getNodeRecord id context).andThen next) := by
  apply Obeys.andThen
  apply Obeys.andThen
  apply findNode_obeys (.inr rfl) (fun _ => trivial)
  intro found last looked
  cases found with
  | none => trivial
  | some node => exact onward node last looked

theorem Looked.held (looked : Looked nodeID id (some node) watch)
    (named : changed.nodeID = node.nodeID) (status : changed.status = node.status) (same : changed.nodeID = nodeID) :
    watch.held = true ∨ changed.status = .revoked := by
  rcases looked.2 ((looked.1 node rfl).1.symm.trans (named.symm.trans same)) with copied | ⟨other, found, revoked⟩
  · exact .inl copied
  · cases found
    exact .inr (status.trans revoked)

theorem Looked.permits (looked : Looked nodeID id (some node) watch)
    (named : changed.nodeID = node.nodeID) (status : changed.status = node.status)
    (keyed : changed.wgPublicKey = node.wgPublicKey) : watch.Permits nodeID changed := by
  refine ⟨looked.held named status, fun approved => ?_⟩
  obtain ⟨own, cleared⟩ := looked.1 node rfl
  rw [named, keyed, own]
  exact cleared (status.symm.trans approved)

theorem trimSpace_ne_empty {text : String} {char : Char} (member : char ∈ text.toList) (visible : isSpace char = false) :
    trimSpace text ≠ "" := by
  intro empty
  have stripped : ((text.toList.dropWhile isSpace).reverse.dropWhile isSpace).reverse = [] := by
    have listed := congrArg String.toList empty
    simpa [trimSpace] using listed
  have spaces : ∀ other ∈ text.toList.dropWhile isSpace, isSpace other = true := by
    have all := dropWhile_eq_nil_iff.mp (reverse_eq_nil_iff.mp stripped)
    exact fun other inside => all other (mem_reverse.mpr inside)
  have spaced : isSpace char = true := by
    rw [← takeWhile_append_dropWhile (p := isSpace) (l := text.toList)] at member
    rcases mem_append.mp member with front | rest
    · exact mem_takeWhile_imp front
    · exact spaces char rest
  exact Bool.false_ne_true (visible.symm.trans spaced)

theorem trimSpace_validWGPublicKey (valid : validWGPublicKey key = true) : trimSpace key ≠ "" := by
  have last : key.toList.drop 43 = ['='] := by
    simp only [validWGPublicKey, Bool.and_eq_true, decide_eq_true_eq] at valid
    exact valid.2
  have member : '=' ∈ key.toList := mem_of_mem_drop (by rw [last]; exact mem_singleton_self _)
  exact trimSpace_ne_empty member (by decide)

/-- The check passes only when the key was free. -/
theorem checkWGKeyUnique_then (valid : validWGPublicKey key = true) {next : Except EnrollError Unit → Ceremony α}
    (refused : ∀ reason last, Lawful nodeID last (next (.error reason)))
    (free : ∀ last, last.held = watch.held → last.cleared id (trimSpace key) → Lawful nodeID last (next (.ok ()))) :
    Lawful nodeID watch ((checkWGKeyUnique key id).bind next) := by
  unfold checkWGKeyUnique
  simp only [if_neg (trimSpace_validWGPublicKey valid)]
  apply Obeys.bind
  apply Obeys.andThen
  apply read_obeys rfl
  intro fault registry keyed
  cases fault with
  | true => exact refused _ _
  | false =>
    have reply : (registry.serve false .listNodes).2 = .nodes (registry.nodes.toList.map (·.2)) := rfl
    simp only [reply, give, Obeys]
    split
    · exact refused _ _
    · next absent =>
      have unheld : registry.KeyFree id (trimSpace key) := by
        intro other node held status same
        have listed : node ∈ registry.nodes.toList.map (·.2) :=
          mem_map.mpr ⟨(other, node), Records.mem_toList.mpr held, rfl⟩
        have refused := find?_eq_none.mp absent node listed
        by_contra apart
        have own := keyed other node held
        simp [status, same, own, apart] at refused
      apply Obeys.andThen
      apply read_obeys rfl
      intro fault later _
      have passed := free ((watch.read nodeID registry .listNodes).read nodeID later .getTopology) rfl
        (.inl (.inr (.inl unheld)))
      cases (later.serve fault .getTopology).2 with
      | topology topology =>
        simp only [give, Obeys]
        split
        · exact refused _ _
        · exact passed
      | notFound => exact passed
      | _ => exact refused _ _

section

-- unfolded, the statements below would run the calls they are about
attribute [local irreducible] Obeys

theorem admitNode_lawful {req : EnrollRequest} (valid : validWGPublicKey req.wgPublicKey = true) {hash : String}
    (copied : req.nodeID = nodeID → watch.held = true) : Lawful nodeID watch (admitNode req now hash action) := by
  apply checkWGKeyUnique_then valid
  · exact fun reason last => auditRefusal_lawful
  · intro last held free
    refine upsertNode_then ⟨fun same => .inl (held.trans (copied same)), fun _ => free⟩ fun last => ?_
    exact perform_then rfl fun last => perform_lawful rfl

theorem guardLifecycle_lawful {req : EnrollRequest} (valid : validWGPublicKey req.wgPublicKey = true) {hash : String}
    {existing : Option RegistryNode} (looked : Looked nodeID req.nodeID existing watch) :
    Lawful nodeID watch (guardLifecycle req now hash existing) := by
  cases existing with
  | none => exact admitNode_lawful valid fun same => (looked.2 same).resolve_right (by simp)
  | some node =>
    simp only [guardLifecycle]
    split
    · exact auditRefusal_lawful
    · next unrevoked =>
      refine admitNode_lawful valid fun same => (looked.2 same).resolve_right fun ⟨other, found, revoked⟩ => ?_
      cases found
      exact unrevoked revoked

theorem enroll_lawful (req : EnrollRequest) (now : Nat) (hash : String) : Lawful nodeID watch (enroll req now hash) := by
  unfold enroll
  split
  · exact .done trivial
  next invalid =>
  have valid : validWGPublicKey req.wgPublicKey = true := by simpa using invalid
  refine perform_then rfl fun last => ?_
  apply Obeys.andThen
  apply findNode_obeys (.inl rfl) (fun _ => trivial)
  exact fun existing last looked => guardLifecycle_lawful valid looked

theorem rekey_lawful (id newPubKey : String) (now : Nat) : Lawful nodeID watch (rekey id newPubKey now) := by
  unfold rekey
  split
  · exact .done trivial
  next invalid =>
  have valid : validWGPublicKey newPubKey = true := by simpa using invalid
  apply getNodeRecord_then
  intro record last looked
  apply checkWGKeyUnique_then valid
  · exact fun reason last => auditRefusal_lawful
  · intro final held free
    refine upsertNode_then ⟨?_, fun _ => (looked.1 record rfl).1.symm ▸ free⟩ fun last => perform_lawful rfl
    rw [held]
    exact looked.held rfl rfl

end

theorem flagNodes_lawful (requested : Nat) (nodes : List RegistryNode) :
    Lawful nodeID watch (flagNodes requested nodes) := by
  induction nodes generalizing requested watch with
  | nil => trivial
  | cons listed rest ih =>
    unfold flagNodes
    split
    · exact ih requested
    apply Obeys.andThen
    apply findNode_obeys (.inr rfl) (fun _ => trivial)
    intro found last looked
    cases found with
    | none => exact ih requested
    | some node => exact upsertNode_then (looked.permits rfl rfl rfl) fun last => ih (requested + 1)

theorem clearNodeRekey_lawful (id : String) : Lawful nodeID watch (clearNodeRekey id) := by
  apply getNodeRecord_then
  intro node last looked
  split
  · trivial
  · exact upsertNode_then (looked.permits rfl rfl rfl) fun last => trivial

theorem Lawful.andThen_give {session : Ceremony α} (lawful : Lawful nodeID watch session) :
    Lawful nodeID watch (session.andThen fun _ => give ()) := by
  apply Obeys.andThen
  apply lawful.mono
  intro result _ _
  cases result <;> trivial

theorem LockedCall.session_lawful (call : LockedCall) : Lawful nodeID watch call.session := by
  cases call with
  | enroll req now hash => exact enroll_lawful req now hash
  | rekey id newPubKey now => exact rekey_lawful id newPubKey now
  | flagFleetRekey =>
    apply Lawful.andThen_give
    apply Obeys.andThen
    apply read_obeys rfl
    intro fault registry _
    cases (registry.serve fault .listNodes).2 with
    | nodes nodes => exact flagNodes_lawful 0 nodes
    | _ => trivial
  | clearNodeRekey id => exact (clearNodeRekey_lawful id).andThen_give

end

end Yaog.Controller
