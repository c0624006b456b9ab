import Yaog.Controller.Revocation

/-!
# One WireGuard key, one node

A key is checked against a listing, and the record that holds it is written whole by a later request.
-/

namespace Yaog.Controller

open Data List Option

variable {node : RegistryNode} {request : Request}

/-- What happens to a registry: the calls, and the operator's enrollment tokens and designs they read. -/
inductive FleetEvent where
  | call (event : Event)
  | mint (tokenHash : String) (token : EnrollmentToken)
  | design (topology : Option Topology)

def System.fleetStep (system : System) : FleetEvent → System
  | .call event => system.step event
  | .mint tokenHash token =>
    { system with registry := { system.registry with tokens := system.registry.tokens.insert tokenHash token } }
  | .design topology => { system with registry := { system.registry with topology } }

def System.fleetRun (system : System) (events : List FleetEvent) : System := events.foldl System.fleetStep system

def Registry.KeysDistinct (registry : Registry) : Prop :=
  ∀ (left right : String) (one two : RegistryNode),
    registry.nodes[left]? = some one → registry.nodes[right]? = some two →
    one.status = .approved → two.status = .approved →
    trimSpace one.wgPublicKey = trimSpace two.wgPublicKey → left = right

section

variable {registry : Registry} {nodeID key : String} {fault : Bool}

theorem Registry.KeysDistinct.free (distinct : registry.KeysDistinct)
    (held : registry.nodes[nodeID]? = some node) (approved : node.status = .approved) :
    registry.KeyFree nodeID (trimSpace node.wgPublicKey) :=
  fun other found stored status same => distinct other nodeID found node stored held status approved same

theorem Registry.KeyFree.serve (free : registry.KeyFree nodeID key)
    (unapproved : ∀ node, request = .upsertNode node → node.status ≠ .approved) :
    (registry.serve fault request).1.KeyFree nodeID key := by
  intro other found held status same
  rcases serve_found held with ⟨asked, -⟩ | ⟨old, _, stored, rfl⟩
  · exact absurd status (unapproved found asked)
  · exact free other old stored status same

theorem Registry.KeysDistinct.serve (distinct : registry.KeysDistinct)
    (free : ∀ node, request = .upsertNode node → node.status = .approved →
      registry.KeyFree node.nodeID (trimSpace node.wgPublicKey)) :
    (registry.serve fault request).1.KeysDistinct := by
  intro left right one two heldLeft heldRight statusLeft statusRight same
  rcases serve_found heldLeft with ⟨asked, rfl⟩ | ⟨old, _, stored, rfl⟩ <;>
    rcases serve_found heldRight with ⟨asked', rfl⟩ | ⟨old', _, stored', rfl⟩
  · cases asked.symm.trans asked'
    rfl
  · exact (free one asked statusLeft right old' stored' statusRight same.symm).symm
  · exact free two asked' statusRight left old stored statusLeft same
  · exact distinct left right old old' stored stored' statusLeft statusRight same

end

/-- What the call under the lock has cleared is still free, and revocations go on as they began. -/
structure System.KeysSound (system : System) : Prop where
  keyed : system.registry.Keyed
  distinct : system.registry.KeysDistinct
  locked : ∀ run, system.running = some run → ∃ watch, Lawful "" watch run.session ∧
    ∀ nodeID key, watch.cleared nodeID key → system.registry.KeyFree nodeID key
  revoking : ∀ entry ∈ system.revoking, ∃ wrote, Session.Obeys (revokeProtocol entry.1) wrote entry.2 wroteIfOk

section

variable {system : System}

theorem serve_cleared {registry : Registry} {watch : Watch} {nodeID key : String} {fault : Bool}
    (distinct : registry.KeysDistinct) (free : ∀ nodeID key, watch.cleared nodeID key → registry.KeyFree nodeID key)
    (cleared : ((lockedProtocol "").track watch fault registry request).cleared nodeID key) :
    (registry.serve fault request).1.KeyFree nodeID key := by
  have read (reads : request.writes = false) (cleared : (watch.read "" registry request).cleared nodeID key) :
      (registry.serve fault request).1.KeyFree nodeID key := by
    refine Registry.KeyFree.serve ?_ ?_
    · rcases cleared with before | now | ⟨node, held, approved, rfl⟩
      · exact free nodeID key before
      · exact now
      · exact distinct.free held approved
    · rintro node rfl
      cases reads
  cases request with
  | upsertNode node => exact cleared.elim
  | _ => exact read rfl cleared

theorem System.KeysSound.proceed (sound : system.KeysSound) (fault : Bool) : (system.proceed fault).KeysSound := by
  unfold System.proceed
  split
  · exact sound
  · exact ⟨sound.keyed, sound.distinct, nofun, sound.revoking⟩
  · next request next copies isRunning =>
    obtain ⟨watch, ⟨allowed, onward⟩, free⟩ := sound.locked _ isRunning
    refine ⟨sound.keyed.serve request, sound.distinct.serve ?_, fun run running => ?_, sound.revoking⟩
    · exact fun node asked approved => free _ _ ((allowed node asked).2 approved)
    · cases running
      exact ⟨_, onward fault system.registry sound.keyed, fun _ _ cleared => serve_cleared sound.distinct free cleared⟩

theorem System.KeysSound.advance (sound : system.KeysSound) (index : Nat) (fault : Bool) :
    (system.advance index fault).KeysSound := by
  unfold System.advance
  split
  · exact sound
  · exact ⟨sound.keyed, sound.distinct, sound.locked, sound.revoking⟩
  · exact sound
  · next nodeID request next found =>
    obtain ⟨wrote, allowed, onward⟩ := sound.revoking _ (mem_of_getElem? found)
    have unapproved (node : RegistryNode) (asked : request = .upsertNode node) : node.status ≠ .approved := by
      rw [(allowed node asked).2]
      decide
    refine ⟨sound.keyed.serve request, sound.distinct.serve ?_, fun run running => ?_, fun entry member => ?_⟩
    · exact fun node asked approved => absurd approved (unapproved node asked)
    · obtain ⟨watch, lawful, free⟩ := sound.locked run running
      exact ⟨watch, lawful, fun nodeID key known => (free nodeID key known).serve unapproved⟩
    · rcases mem_or_eq_of_mem_set member with old | rfl
      · exact sound.revoking entry old
      · exact ⟨_, onward fault system.registry sound.keyed⟩

theorem System.KeysSound.step (sound : system.KeysSound) (event : Event) : (system.step event).KeysSound := by
  cases event with
  | start call =>
    change (if system.running.isNone then _ else system).KeysSound
    split
    · refine ⟨sound.keyed, sound.distinct, fun run running => ?_, sound.revoking⟩
      cases running
      exact ⟨{}, call.session_lawful, fun _ _ impossible => impossible.elim⟩
    · exact sound
  | proceed fault => exact sound.proceed fault
  | revoke nodeID actor now =>
    refine ⟨sound.keyed, sound.distinct, sound.locked, fun entry member => ?_⟩
    rcases mem_append.mp member with old | new
    · exact sound.revoking entry old
    · obtain rfl := mem_singleton.mp new
      exact ⟨false, handleRevoke_obeys actor now⟩
  | advance index fault => exact sound.advance index fault

theorem System.KeysSound.fleetRun (sound : system.KeysSound) (events : List FleetEvent) :
    (system.fleetRun events).KeysSound := by
  induction events generalizing system with
  | nil => exact sound
  | cons event rest ih =>
    apply ih
    cases event with
    | call event => exact sound.step event
    | mint tokenHash token => exact ⟨sound.keyed, sound.distinct, sound.locked, sound.revoking⟩
    | design topology => exact ⟨sound.keyed, sound.distinct, sound.locked, sound.revoking⟩

end

/-- A fleet that starts empty never has two approved nodes with one key. -/
theorem approved_keys_distinct (events : List FleetEvent) :
    (System.fleetRun { registry := {} } events).registry.KeysDistinct := by
  have start : System.KeysSound { registry := {} } := by
    refine ⟨?_, ?_, nofun, forall_mem_nil _⟩
    · intro nodeID node held
      simp at held
    · intro left right one two held
      simp at held
  exact (start.fleetRun events).distinct

end Yaog.Controller
