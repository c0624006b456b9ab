import Yaog.Controller.LockedCalls
import Yaog.Controller.Subgraph

/-!
# Revocation under interleaving

One call at a time runs under the operation lock, and any number of revocations run beside it.
-/

namespace Yaog.Controller

open Data Ceremony List Option
open Session (Obeys)

variable {node : RegistryNode} {key id context action nodeID : String} {request : Request}
  {ends : Except EnrollError Unit → Bool → Prop} {now : Nat} {fault : Bool} {registry : Registry}

/-- The call that holds the lock, and the nodes whose record it has read and not written back. -/
structure Running where
  session : Ceremony Unit
  copies : List String := []

def copiesAfter (copies : List String) (fault : Bool) : Request → List String
  | .getNode nodeID | .getNodeRecord nodeID => nodeID :: copies
  | .upsertNode node => if fault then copies else copies.filter (· ≠ node.nodeID)
  | _ => copies

structure System where
  registry : Registry
  running : Option Running := none
  /-- Revocations under way or ended, with their nodes. -/
  revoking : List (String × Ceremony Unit) := []
  /-- The nodes whose revocation has returned success. -/
  revoked : List String := []

inductive Event where
  | start (call : LockedCall)
  | proceed (fault : Bool)
  | revoke (nodeID actor : String) (now : Nat)
  | advance (index : Nat) (fault : Bool)

namespace System

def proceed (system : System) (fault : Bool) : System :=
  match system.running with
  | none => system
  | some ⟨.done _, _⟩ => { system with running := none }
  | some ⟨.ask request next, copies⟩ =>
    let (registry, reply) := system.registry.serve fault request
    { system with registry, running := some ⟨next reply, copiesAfter copies fault request⟩ }

def advance (system : System) (index : Nat) (fault : Bool) : System :=
  match system.revoking[index]? with
  | none => system
  | some (nodeID, .done (.ok _)) => { system with revoked := nodeID :: system.revoked }
  | some (_, .done (.error _)) => system
  | some (nodeID, .ask request next) =>
    let (registry, reply) := system.registry.serve fault request
    { system with registry, revoking := system.revoking.set index (nodeID, next reply) }

def step (system : System) : Event → System
  | .start call => if system.running.isNone then { system with running := some { session := call.session } } else system
  | .proceed fault => system.proceed fault
  | .revoke nodeID actor now =>
    { system with revoking := system.revoking ++ [(nodeID, handleRevoke nodeID actor now)] }
  | .advance index fault => system.advance index fault

def run (system : System) (events : List Event) : System := events.foldl step system

end System

/-- A revocation writes its own node only, and as revoked; `true` once it has. -/
def revokeProtocol (nodeID : String) : Protocol Bool Registry Request Reply Bool where
  serve := Registry.serve
  keeps := Registry.Keyed
  allowed _ request := ∀ node, request = .upsertNode node → node.nodeID = nodeID ∧ node.status = .revoked
  track wrote fault _
    | .upsertNode _ => wrote || !fault
    | _ => wrote

def wroteIfOk (result : Except EnrollError Unit) (wrote : Bool) : Prop := ∀ value, result = .ok value → wrote = true

section

variable {nodeID : String}

theorem wroteIfOk_error {reason : EnrollError} {wrote : Bool} : wroteIfOk (.error reason) wrote :=
  nofun

theorem performLater_obeys (reads : request.writes = false) (holds : ∀ result, ends result true) :
    Obeys (revokeProtocol nodeID) true (perform request "") ends := by
  refine ⟨fun node asked => ?_, fun fault registry _ => ?_⟩
  · subst asked
    cases reads
  · have unchanged : (revokeProtocol nodeID).track true fault registry request = true := by
      cases request <;> rfl
    rw [unchanged]
    cases ((revokeProtocol nodeID).serve fault registry request).2 <;> exact holds _

theorem handleRevoke_obeys (actor : String) (now : Nat) :
    Obeys (revokeProtocol nodeID) false (handleRevoke nodeID actor now) wroteIfOk := by
  unfold handleRevoke
  split
  · exact wroteIfOk_error
  apply Obeys.andThen
  apply Obeys.andThen
  refine ⟨nofun, fun fault registry keyed => ?_⟩
  cases fault with
  | true => exact wroteIfOk_error
  | false =>
    have replied : ((revokeProtocol nodeID).serve false registry (.getNodeRecord nodeID)).2 =
        (registry.nodes[nodeID]?.map Reply.node).getD .notFound := rfl
    rw [replied]
    cases stored : registry.nodes[nodeID]? with
    | none => exact wroteIfOk_error
    | some node =>
      apply Obeys.andThen
      refine ⟨fun other same => ?_, fun fault registry _ => ?_⟩
      · obtain rfl := Request.upsertNode.inj same
        exact ⟨keyed nodeID node stored, rfl⟩
      · cases fault with
        | true => exact wroteIfOk_error
        | false =>
          apply Obeys.andThen
          apply performLater_obeys rfl
          intro result
          cases result with
          | error reason => exact wroteIfOk_error
          | ok _ =>
            apply Obeys.andThen
            apply performLater_obeys rfl
            intro result
            cases result with
            | error reason => exact wroteIfOk_error
            | ok _ => exact performLater_obeys rfl fun _ _ _ => rfl

end

def Event.fresh (system : System) : Event → Bool
  | .advance index _ =>
    match system.revoking[index]?, system.running with
    | some (_, .ask (.upsertNode node) _), some run => node.nodeID ∉ run.copies
    | _, _ => true
  | _ => true

def freshRun : System → List Event → Bool
  | _, [] => true
  | system, event :: rest => event.fresh system && freshRun (system.step event) rest

/-- `written` are the nodes that a revocation has written. -/
structure System.Sound (written : List String) (system : System) : Prop where
  keyed : system.registry.Keyed
  sticky : ∀ nodeID ∈ written, system.registry.Revoked nodeID
  locked : ∀ run, system.running = some run → ∀ nodeID, ∃ watch, Lawful nodeID watch run.session ∧
    (watch.held = true → nodeID ∈ run.copies) ∧ (nodeID ∈ written → watch.held = false)
  revoking : ∀ entry ∈ system.revoking, ∃ wrote,
    Obeys (revokeProtocol entry.1) wrote entry.2 wroteIfOk ∧ (wrote = true → entry.1 ∈ written)
  revoked : ∀ nodeID ∈ system.revoked, nodeID ∈ written

section

variable {written : List String} {system : System} {watch : Watch}

theorem copies_track {copies : List String} (copied : watch.held = true → nodeID ∈ copies)
    (tracked : ((lockedProtocol nodeID).track watch fault registry request).held = true) :
    nodeID ∈ copiesAfter copies fault request := by
  have looked {id : String} (tracked : (if decide (id = nodeID) then !decide (registry.Revoked nodeID)
      else watch.held) = true) : nodeID ∈ id :: copies := by
    split at tracked
    · next same => exact of_decide_eq_true same ▸ mem_cons_self ..
    · exact mem_cons_of_mem _ (copied tracked)
  cases request with
  | getNode id => exact looked tracked
  | getNodeRecord id => exact looked tracked
  | upsertNode node =>
    change (if node.nodeID = nodeID ∧ fault = false then false else watch.held) = true at tracked
    split at tracked
    · cases tracked
    · next kept =>
      cases fault with
      | true => exact copied tracked
      | false =>
        have other : nodeID ≠ node.nodeID := fun same => kept ⟨same.symm, rfl⟩
        exact mem_filter.mpr ⟨copied tracked, by simp [other]⟩
  | _ => exact copied tracked

theorem track_revoked (revoked : registry.Revoked nodeID) (fresh : watch.held = false) :
    ((lockedProtocol nodeID).track watch fault registry request).held = false := by
  cases request with
  | upsertNode node => simp [lockedProtocol, fresh]
  | _ => simp [lockedProtocol, Watch.read, revoked, fresh]

theorem System.Sound.proceed (sound : system.Sound written) (fault : Bool) :
    (system.proceed fault).Sound written := by
  unfold System.proceed
  split
  · exact sound
  · exact ⟨sound.keyed, sound.sticky, nofun, sound.revoking, sound.revoked⟩
  · next request next copies isRunning =>
    have obeys := sound.locked _ isRunning
    refine ⟨sound.keyed.serve request, fun nodeID listed => ?_, fun run running nodeID => ?_, sound.revoking,
      sound.revoked⟩
    · obtain ⟨watch, ⟨allowed, -⟩, -, fresh⟩ := obeys nodeID
      refine (sound.sticky nodeID listed).serve fun node asked same => ?_
      exact ((allowed node asked).1 same).resolve_left (by simp [fresh listed])
    · cases running
      obtain ⟨watch, ⟨-, onward⟩, copied, fresh⟩ := obeys nodeID
      refine ⟨_, onward fault system.registry sound.keyed, copies_track copied, fun listed => ?_⟩
      exact track_revoked (sound.sticky nodeID listed) (fresh listed)

theorem wrote_track {wrote : Bool} (tracked : (revokeProtocol nodeID).track wrote fault registry request = true) :
    wrote = true ∨ fault = false ∧ ∃ node, request = .upsertNode node := by
  cases request with
  | upsertNode node =>
    refine (Bool.or_eq_true_iff.mp tracked).imp_right fun succeeded => ⟨?_, node, rfl⟩
    simpa using succeeded
  | _ => exact .inl tracked

theorem System.Sound.advance (sound : system.Sound written) {index : Nat}
    (fresh : (Event.advance index fault).fresh system = true) :
    ∃ written, (system.advance index fault).Sound written := by
  unfold System.advance
  split
  · exact ⟨written, sound⟩
  · next nodeID value found =>
    obtain ⟨wrote, ended, listed⟩ := sound.revoking _ (mem_of_getElem? found)
    refine ⟨written, sound.keyed, sound.sticky, sound.locked, sound.revoking, ?_⟩
    intro other member
    rcases mem_cons.mp member with rfl | old
    · exact listed (ended value rfl)
    · exact sound.revoked other old
  · exact ⟨written, sound⟩
  · next nodeID request next found =>
    obtain ⟨wrote, ⟨allowed, onward⟩, listed⟩ := sound.revoking _ (mem_of_getElem? found)
    let now := (revokeProtocol nodeID).track wrote fault system.registry request
    -- a node is written by this very request, or was before
    have cases {other : String} (member : other ∈ if now then nodeID :: written else written) :
        other ∈ written ∨ other = nodeID ∧ fault = false ∧ ∃ node, request = .upsertNode node := by
      split at member
      · next tracked =>
        rcases mem_cons.mp member with rfl | old
        · exact (wrote_track tracked).imp listed fun wrote => ⟨rfl, wrote⟩
        · exact .inl old
      · exact .inl member
    have old {other : String} (member : other ∈ written) : other ∈ if now then nodeID :: written else written := by
      split
      · exact mem_cons_of_mem _ member
      · exact member
    refine ⟨if now then nodeID :: written else written, sound.keyed.serve request, ?_, ?_, ?_,
      fun other member => old (sound.revoked other member)⟩
    · intro other member
      rcases cases member with old | ⟨rfl, rfl, node, rfl⟩
      · exact (sound.sticky other old).serve fun node asked _ => (allowed node asked).2
      · obtain ⟨named, revoked⟩ := allowed node rfl
        change (system.registry.nodes.insert node.nodeID node)[other]?.map (·.status) = some .revoked
        rw [Records.getElem?_insert, if_pos named]
        exact congrArg some revoked
    · intro run running other
      obtain ⟨watch, lawful, copied, free⟩ := sound.locked run running other
      refine ⟨watch, lawful, copied, fun member => ?_⟩
      rcases cases member with old | ⟨rfl, -, node, rfl⟩
      · exact free old
      · have holder : system.running = some run := running
        have absent : node.nodeID ∉ run.copies := by simpa [Event.fresh, found, holder] using fresh
        rw [(allowed node rfl).1] at absent
        exact Bool.eq_false_iff.mpr fun held => absent (copied held)
    · intro entry member
      rcases mem_or_eq_of_mem_set member with before | rfl
      · obtain ⟨wrote', obeys, known⟩ := sound.revoking entry before
        exact ⟨wrote', obeys, fun wrote => old (known wrote)⟩
      · refine ⟨now, onward fault system.registry sound.keyed, fun wrote => ?_⟩
        rw [if_pos wrote]
        exact mem_cons_self ..

theorem System.Sound.step (sound : system.Sound written) {event : Event} (fresh : event.fresh system = true) :
    ∃ written, (system.step event).Sound written := by
  cases event with
  | start call =>
    refine ⟨written, ?_⟩
    change (if system.running.isNone then _ else system).Sound written
    split
    · refine ⟨sound.keyed, sound.sticky, fun run running nodeID => ?_, sound.revoking, sound.revoked⟩
      cases running
      exact ⟨{}, call.session_lawful, nofun, fun _ => rfl⟩
    · exact sound
  | proceed fault => exact ⟨written, sound.proceed fault⟩
  | revoke nodeID actor now =>
    refine ⟨written, sound.keyed, sound.sticky, sound.locked, fun entry member => ?_, sound.revoked⟩
    rcases mem_append.mp member with old | new
    · exact sound.revoking entry old
    · obtain rfl := mem_singleton.mp new
      exact ⟨false, handleRevoke_obeys actor now, nofun⟩
  | advance index fault => exact sound.advance fresh

theorem System.Sound.run {events : List Event} (sound : system.Sound written) (fresh : freshRun system events = true) :
    ∃ written, (system.run events).Sound written := by
  induction events generalizing system written with
  | nil => exact ⟨written, sound⟩
  | cons event rest ih =>
    obtain ⟨now, later⟩ := Bool.and_eq_true_iff.mp fresh
    obtain ⟨onward, kept⟩ := sound.step now
    exact ih kept later

def Registry.list (registry : Registry) : List RegistryNode := registry.nodes.toList.map (·.2)

theorem enrolledKey_revoked (keyed : registry.Keyed)
    (revoked : registry.Revoked nodeID) : enrolledKey registry.list nodeID = "" := by
  have absent : registry.list.reverse.find? (fun node =>
      node.status = .approved && node.wgPublicKey ≠ "" && node.nodeID = nodeID) = none := by
    apply find?_eq_none.mpr
    intro node member matched
    obtain ⟨entry, found, rfl⟩ := mem_map.mp (mem_reverse.mp member)
    have held := Records.mem_toList.mp found
    simp only [Bool.and_eq_true, decide_eq_true_eq] at matched
    have own : entry.1 = nodeID := (keyed entry.1 entry.2 held).symm.trans matched.2
    have status := revoked.status (own ▸ held)
    exact absurd (status.symm.trans matched.1.1) (by simp)
  rw [enrolledKey, absent]
  rfl

theorem enrolledSubgraph_revoked (keyed : registry.Keyed) (revoked : registry.Revoked nodeID) {topo : Topology}
    {node : Node} (member : node ∈ (enrolledSubgraph topo registry.list).1.nodes) (named : node.id = nodeID) :
    ∃ manual ∈ topo.nodes, manual.id = nodeID ∧ manual.isManual = true := by
  obtain ⟨original, kept, rfl⟩ := mem_map.mp member
  have ready : nodeID ∈ readyIDs topo registry.list := by
    have isReady := (mem_filter.mp kept).2
    rw [show original.id = nodeID from named] at isReady
    exact of_decide_eq_true isReady
  obtain ⟨other, found, same⟩ := mem_map.mp (dropIdleClients_subset ready)
  obtain ⟨designed, known⟩ := mem_filter.mp found
  refine ⟨other, designed, same, ?_⟩
  by_contra managed
  have empty : readyKey registry.list other = "" := by
    rw [readyKey, if_neg managed, same]
    exact enrolledKey_revoked keyed revoked
  exact of_decide_eq_true known empty

/-- In every run in which no revocation writes over a copy held under the lock: a node whose revocation
has returned success is revoked, and no design makes a managed node of it again. -/
theorem revocation_sticky (registry : Registry) (keyed : registry.Keyed) (events : List Event)
    (fresh : freshRun { registry } events = true) :
    let system := System.run { registry } events
    ∀ nodeID ∈ system.revoked, system.registry.Revoked nodeID ∧
      ∀ topo subgraph skipped, projectEnrolledSubgraph topo system.registry.list = .ok (subgraph, skipped) →
        ∀ node ∈ subgraph.nodes, node.id = nodeID →
          ∃ manual ∈ topo.nodes, manual.id = nodeID ∧ manual.isManual = true := by
  intro system nodeID listed
  have start : System.Sound [] { registry } :=
    ⟨keyed, forall_mem_nil _, nofun, forall_mem_nil _, forall_mem_nil _⟩
  obtain ⟨written, sound⟩ := start.run fresh
  have revoked := sound.sticky nodeID (sound.revoked nodeID listed)
  refine ⟨revoked, fun topo subgraph skipped projected node member named => ?_⟩
  unfold projectEnrolledSubgraph at projected
  split at projected
  · cases projected
  · have same := congrArg Prod.fst (Except.ok.inj projected)
    exact enrolledSubgraph_revoked sound.keyed revoked (same.symm ▸ member) named

end

def sampleApproved : Registry where
  nodes := (∅ : Records RegistryNode).insert "n" { nodeID := "n", status := .approved }

theorem sampleApproved_keyed : sampleApproved.Keyed := by
  intro nodeID node held
  change ((∅ : Records RegistryNode).insert "n" _)[nodeID]? = some node at held
  rw [Records.getElem?_insert] at held
  split at held
  · next same =>
    cases held
    exact same
  · simp at held

def sampleRevocation : List Event :=
  [.revoke "n" "o" 1, .advance 0 false, .advance 0 false, .advance 0 false, .advance 0 false, .advance 0 false,
    .advance 0 false]

/-- A revocation beside a fleet rekey that has only listed the nodes. -/
def sampleFresh : List Event :=
  [.start .flagFleetRekey, .proceed false] ++ sampleRevocation ++ [.proceed false, .proceed false]

theorem sampleFresh_sticky : "n" ∈ (System.run { registry := sampleApproved } sampleFresh).revoked ∧
    (System.run { registry := sampleApproved } sampleFresh).registry.Revoked "n" := by
  have listed : "n" ∈ (System.run { registry := sampleApproved } sampleFresh).revoked := by decide +kernel
  exact ⟨listed,
    (revocation_sticky sampleApproved sampleApproved_keyed sampleFresh (by decide +kernel) "n" listed).1⟩

/-- The fleet rekey has read the node before its revocation and writes it back afterwards. -/
def sampleStale : List Event :=
  [.start .flagFleetRekey, .proceed false, .proceed false] ++ sampleRevocation ++ [.proceed false]

theorem sampleStale_resurrects : sampleApproved.Keyed ∧
    "n" ∈ (System.run { registry := sampleApproved } sampleStale).revoked ∧
    (System.run { registry := sampleApproved } sampleStale).registry.nodes["n"]?.map (·.status) =
      some .approved :=
  ⟨sampleApproved_keyed, by decide +kernel, by decide +kernel⟩

end Yaog.Controller
