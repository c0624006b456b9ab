import Yaog.Controller.Calls
import Yaog.Controller.CrashAtomicity
import Yaog.Controller.Incremental

/-!
# What is visible and what is served

Over every run of the controller: the visible manifests never go back, and a promotion under a pinned
credential serves a verified manifest together with the bundles it names.
-/

namespace Yaog.Controller

open Compiler Data Durable Option

section

variable {crypto : Crypto} {entropy : Entropy} {store after : Store} {list : StoredTrustList}

theorem Store.Lineage.visible (lineage : store.Lineage) (visible : store.getCurrentSignedTrustList crypto = .ok list) :
    ∃ history, store.stagedTLHist = some history ∧ history.Same list := by
  obtain ⟨mark, held, -, listed, staged, -⟩ := Store.getCurrentSignedTrustList_eq_ok.mp visible
  exact lineage.sealed mark list held listed staged

/-- Of two manifests visible in a run, the later one has no lower epoch, and the same membership if it
has the same epoch. -/
theorem visible_epochs_never_roll_back (crypto : Crypto) (entropy : Entropy)
    (operatorCred : Option OperatorCredential) (earlier later : List (Call × List Fault))
    (first second : StoredTrustList)
    (before : (Store.runCalls crypto entropy { operatorCred } earlier).getCurrentSignedTrustList crypto = .ok first)
    (afterwards : (Store.runCalls crypto entropy { operatorCred } (earlier ++ later)).getCurrentSignedTrustList
      crypto = .ok second) :
    first.epoch ≤ second.epoch ∧ (first.epoch = second.epoch →
      membership first.trustList.members = membership second.trustList.members) := by
  have deployed : (Store.runCalls crypto entropy { operatorCred } earlier).Deployed crypto :=
    (Store.runCalls_onward earlier (.start operatorCred)).1
  rw [Store.runCalls_append] at afterwards
  obtain ⟨last, forward⟩ := @Store.runCalls_onward crypto entropy _ later deployed
  obtain ⟨old, recorded, sameOld⟩ := deployed.lineage.visible before
  obtain ⟨new, kept, sameNew⟩ := last.lineage.visible afterwards
  obtain ⟨other, found, continues⟩ := forward old recorded
  obtain rfl := mem_unique kept found
  exact sameNew.symm.continues.trans (continues.trans sameOld.continues)

theorem Store.Binds.committed {list : Option StoredTrustList} {member : Member}
    (binds : store.Binds crypto member) (committed : Committed store list after) :
    ∃ bundle, after.current[member.nodeID]? = some bundle ∧ bundle.generation ≤ after.generation ∧
      bundle.digest crypto = some member.bundleSHA256 := by
  obtain ⟨generation, -, ⟨written, untouched⟩, -⟩ := committed
  rcases binds with ⟨bundle, staged, next, digest⟩ | ⟨apart, bundle, current, old, digest⟩
  · have installed := written (member.nodeID, bundle) (Store.mem_stagedAt.mpr ⟨staged, next⟩)
    exact ⟨asCurrent bundle, installed, le_of_eq (next.trans generation.symm), digest⟩
  · refine ⟨bundle, ?_, old.trans (generation ▸ Nat.le_succ _), digest⟩
    rw [untouched]
    · exact current
    · intro listed
      obtain ⟨entry, found, same⟩ := List.mem_map.mp listed
      obtain ⟨staged, next⟩ := Store.mem_stagedAt.mp found
      exact apart entry.2 (same ▸ staged) next

theorem Store.getServedConfig_of_current {nodeID : String} {bundle : SignedBundle}
    (current : store.current[nodeID]? = some bundle) (committed : bundle.generation ≤ store.generation)
    (pinned : store.operatorCred.isSome = true) (served : store.servedTL = some list)
    (promoted : list.promotedGeneration ≤ store.generation) (signed : list.signature.isSome = true) :
    store.getServedConfig nodeID = .ok { bundle, keystoneOn := true, trustList := some list } := by
  simp [Store.getServedConfig, current, served, signed, Nat.not_lt.mpr committed, Nat.not_lt.mpr promoted,
    isSome_iff_ne_none.mp pinned]

theorem verifiesAgainst_signed {cred : OperatorCredential}
    (verifies : verifiesAgainst crypto list cred = true) : list.signature.isSome = true := by
  cases signature : list.signature with
  | none => simp [verifiesAgainst, signature] at verifies
  | some signed => rfl

/-- When a promotion of a run returns and a credential is pinned, the served manifest verifies under
it, and every member of it is served the bundle whose digest the manifest records. -/
theorem promotion_serves_bound_bundles (crypto : Crypto) (entropy : Entropy)
    (operatorCred : Option OperatorCredential) (calls : List (Call × List Fault)) (plan rest : List Fault)
    (generation : Nat) (after : Store) (cred : OperatorCredential)
    (promoted : promoteStaged crypto (Store.runCalls crypto entropy { operatorCred } calls) plan =
      ⟨.done generation, after, rest⟩)
    (pinned : after.operatorCred = some cred) :
    ∃ list, after.getServedTrustList = .ok list ∧ verifiesAgainst crypto list cred = true ∧
      ∀ member ∈ list.trustList.members, ∃ config, after.getServedConfig member.nodeID = .ok config ∧
        config.bundle.digest crypto = some member.bundleSHA256 := by
  have deployed : (Store.runCalls crypto entropy { operatorCred } calls).Deployed crypto :=
    (Store.runCalls_onward calls (.start operatorCred)).1
  have reconciled := reconcile_frames.mono (fun _ reached => reached.deployed deployed)
    fun _ _ reached => reached.deployed deployed
  obtain ⟨between, kept, -, mark, sealed, ready, gated, committed⟩ :=
    (promoteStaged_promotes reconciled).done promoted
  obtain ⟨list, visible, verifies⟩ := gated cred (committed.2.1.symm.trans pinned)
  obtain ⟨other, held, -, listed, staged, named⟩ := Store.getCurrentSignedTrustList_eq_ok.mp visible
  obtain rfl := mem_unique ready.held held
  -- The manifest of the candidate is the one the gate has verified.
  have same : sealed = some list :=
    Except.ok.inj (ready.manifest.symm.trans (Store.loadSealedTrustList_eq_some.mpr ⟨listed, staged, named⟩))
  subst same
  have signed := verifiesAgainst_signed verifies
  have tagged : list.tagged (between.generation + 1) = { list with promotedGeneration := between.generation + 1 } :=
    if_pos signed
  have served : after.servedTL = some { list with promotedGeneration := between.generation + 1 } := by
    rw [committed.2.2.2, ← tagged]
    exact if_pos signed
  have current : between.generation + 1 ≤ after.generation := le_of_eq committed.1.symm
  refine ⟨{ list with promotedGeneration := between.generation + 1 }, ?_, verifies, fun member found => ?_⟩
  · simp [Store.getServedTrustList, served, committed.1]
  · have binds := kept.bound mark held ready.active ready.next ready.nonempty list staged member found
    obtain ⟨bundle, live, old, digest⟩ := binds.committed committed
    exact ⟨_, Store.getServedConfig_of_current live old (by simp [pinned]) served current signed, digest⟩

/-- The counter, and the generation of each node's current bundle, 0 before the first. -/
def Store.height (store : Store) : Nat × (String → Nat) :=
  (store.generation, fun nodeID => store.current[nodeID]?.elim 0 (·.generation))

theorem Move.rises (move : Move crypto (deployRules crypto) store after) (sound : store.Sound crypto) :
    store.height ≤ after.height := by
  cases move with
  | prepare move =>
    obtain ⟨current, -, -, counter, -⟩ := Prepares.live (.single move)
    simpa [Store.height, current] using counter
  | promote move =>
    cases move with
    | install entry ready allowed staged =>
      refine ⟨le_refl _, fun nodeID => ?_⟩
      -- what is installed has the next generation, and nothing current is above it
      have next := (Store.mem_stagedAt.mp staged).2
      simp only [Store.height, Store.putCurrent, Records.getElem?_insert]
      split
      · cases held : store.current[nodeID]? with
        | none => exact Nat.zero_le _
        | some bundle => exact (sound.current nodeID bundle held).trans (le_of_eq next.symm)
      · exact le_refl _
    | commit => exact ⟨Nat.le_succ _, le_refl _⟩
    | _ => exact le_refl _

theorem Moves.rises (path : Moves crypto (deployRules crypto) store after) (deployed : store.Deployed crypto) :
    store.height ≤ after.height := by
  induction path with
  | refl => exact le_refl _
  | tail path move ih => exact ih.trans (move.rises (Moves.deployed path deployed).1.sound)

theorem Call.left_rises (call : Call) (plan : List Fault) (deployed : store.Deployed crypto) :
    store.height ≤ (call.left crypto entropy store plan).height := by
  rcases call.left_cases entropy plan reconcile_frames (.refl store) (fun _ here => here.deployed deployed) with
    ⟨between, here, path⟩ | ⟨_, _, _, rfl, _, _, _, _, same, -⟩ | ⟨between, here, path, -⟩ | ⟨nodes, topology, same⟩
  · have kept := here.deployed deployed
    obtain ⟨_, _, rfl⟩ := here
    exact path.moves.rises kept
  · exact same ▸ le_refl store.height
  · have kept := here.deployed deployed
    obtain ⟨_, _, rfl⟩ := here
    exact path.moves.rises kept
  · exact same ▸ le_refl store.height

/-- In every run, whatever its faults, neither the counter nor a node's generation falls. -/
theorem generations_never_fall (crypto : Crypto) (entropy : Entropy) (operatorCred : Option OperatorCredential)
    (earlier later : List (Call × List Fault)) :
    (Store.runCalls crypto entropy { operatorCred } earlier).height ≤
      (Store.runCalls crypto entropy { operatorCred } (earlier ++ later)).height := by
  have deployed := (@Store.runCalls_onward crypto entropy _ earlier (.start operatorCred)).1
  rw [Store.runCalls_append]
  generalize Store.runCalls crypto entropy { operatorCred } earlier = store at deployed
  induction later generalizing store with
  | nil => exact le_refl _
  | cons called rest ih =>
    exact (called.1.left_rises called.2 deployed).trans (ih _ (called.1.left_onward called.2 deployed).1)

end

/-- The number of a draw in `width` digits. -/
def sampleDigits : Nat → Nat → List Char
  | 0, _ => []
  | width + 1, draw => Nat.digitChar (draw % 10) :: sampleDigits width (draw / 10)

theorem sampleDigits_hex (width draw : Nat) :
    (sampleDigits width draw).length = width ∧ (sampleDigits width draw).all isHexDigit = true := by
  induction width generalizing draw with
  | zero => exact ⟨rfl, rfl⟩
  | succ width ih =>
    have digit : ∀ value < 10, isHexDigit (Nat.digitChar value) = true := by decide
    obtain ⟨length, digits⟩ := ih (draw / 10)
    exact ⟨by simp [sampleDigits, length],
      by simp only [sampleDigits, List.all_cons, digit _ (Nat.mod_lt _ (by decide)), digits, Bool.and_self]⟩

def sampleEntropy : Entropy where
  eventID draw := String.ofList (sampleDigits 32 draw)
  eventID_hex draw := by
    obtain ⟨length, digits⟩ := sampleDigits_hex 32 draw
    simp only [isEventID, String.toList_ofList, length, digits, decide_true, Bool.and_self]
  now draw := draw + 1
  now_pos _ := Nat.succ_pos _

def sampleCredential (key : String) : OperatorCredential := { alg := "ed25519", publicKeyPEM := key }

def sampleKey (letter : String) : String := letter ++ "AAAAAAAAAAAAAAAAAAAAAAAAAAAAAAAAAAAAAAAAAA="

/-- A design of approved nodes, each with the letter of its key. -/
def sampleDesign (nodes : List (String × String)) : Call :=
  .edit (nodes.foldl (fun known (nodeID, letter) =>
      known.insert nodeID { nodeID, wgPublicKey := sampleKey letter, status := .approved }) ∅)
    (some
      { project := { id := "p", name := "p" }, domains := [{ id := "d1", name := "d1", cidr := "10.11.0.0/24" }]
        nodes := nodes.map fun (nodeID, _) => sampleRouter nodeID "d1", edges := [] })

def sampleSolo : Call := sampleDesign [("new", "B")]

/-- A stage whose rendered files have the given checksums. -/
def sampleStageOf (checksums : String → String) : Call :=
  .stage
    { externals := sampleEnv, keys := fun _ _ => none, heal := id, deployment := fun topology _ => .ok topology
      signer := .ok none, probes := fun _ => false
      bundleFiles := fun _ nodeID => .ok ((∅ : Records String).insert "checksums.sha256" (checksums nodeID)) } {}

def sampleStage (checksums : String) : Call := sampleStageOf fun _ => checksums

/-- A signature by `key` over the manifest of a sample design. -/
def sampleSignOf (members : List Member) (key : String) (epoch : Nat) : Call :=
  .sign { tenant := "", epoch, members }
    { alg := "ed25519", credentialID := "", publicKey := key, signature := toString epoch }

def sampleSign (checksums key : String) (epoch : Nat) : Call :=
  sampleSignOf [⟨"new", sampleKey "B", "sha256-" ++ checksums⟩] key epoch

/-- Calls on a store with a pinned credential. -/
abbrev sampleRun (calls : List (Call × List Fault)) : Store :=
  Store.runCalls sampleCrypto sampleEntropy { operatorCred := some (sampleCredential "k") } calls

def sampleEpochs : List (Call × List Fault) := [(sampleSolo, []), (sampleStage "one", [])]

/-- A second stage of other files is cut after its bundles and its manifest, and made again. -/
def sampleRestaged : List (Call × List Fault) :=
  [(sampleStage "two", [.applied, .applied, .applied, .halted]), (sampleStage "two", [])]

theorem sampleRestaged_advances : ∃ first second,
    (sampleRun sampleEpochs).getCurrentSignedTrustList sampleCrypto = .ok first ∧
    (sampleRun (sampleEpochs ++ sampleRestaged)).getCurrentSignedTrustList sampleCrypto = .ok second ∧
    first.epoch < second.epoch ∧ first.epoch ≤ second.epoch := by
  obtain ⟨first, before, evaluated⟩ : ∃ first, (sampleRun sampleEpochs).getCurrentSignedTrustList sampleCrypto =
      .ok first ∧ ((sampleRun (sampleEpochs ++ sampleRestaged)).getCurrentSignedTrustList sampleCrypto).toOption.any
        (fun second => decide (first.epoch < second.epoch)) = true := Allocator.exists_ok_and (by decide +kernel)
  obtain ⟨second, afterwards, advanced⟩ := Allocator.exists_ok_and evaluated
  exact ⟨first, second, before, afterwards, advanced, (visible_epochs_never_roll_back sampleCrypto sampleEntropy _
    sampleEpochs sampleRestaged first second before afterwards).1⟩

/-- The stage is signed, and a first promotion is cut after the bundle. -/
def sampleSigned : List (Call × List Fault) :=
  sampleEpochs ++ [(sampleSign "one" "k" 0, []), (.promote, [.applied, .halted])]

/-- Two nodes are deployed. A second stage changes one of them, and its promotion is cut after the bundle. -/
def sampleDelta : List (Call × List Fault) :=
  [(sampleDesign [("new", "B"), ("old", "C")], []), (sampleStage "one", []),
    (sampleSignOf [⟨"new", sampleKey "B", "sha256-one"⟩, ⟨"old", sampleKey "C", "sha256-one"⟩] "k" 0, []), (.promote, []),
    (sampleStageOf fun nodeID => if nodeID = "new" then "two" else "one", []),
    (sampleSignOf [⟨"new", sampleKey "B", "sha256-two"⟩, ⟨"old", sampleKey "C", "sha256-one"⟩] "k" 1, []),
    (.promote, [.applied, .halted])]

/-- The unchanged node keeps the bundle of the first generation, and the manifest of the second binds it. -/
theorem sampleSigned_promotes : ∃ after rest,
    promoteStaged sampleCrypto (sampleRun sampleDelta) [] = ⟨.done 2, after, rest⟩ ∧
    ["new", "old"].map (fun nodeID => after.current[nodeID]?.map (·.generation)) = [some 2, some 1] ∧
    ∃ list, after.getServedTrustList = .ok list ∧ list.trustList.members.map (·.nodeID) = ["new", "old"] ∧
      verifiesAgainst sampleCrypto list (sampleCredential "k") = true ∧
      ∀ member ∈ list.trustList.members, ∃ config, after.getServedConfig member.nodeID = .ok config ∧
        config.bundle.digest sampleCrypto = some member.bundleSHA256 := by
  generalize ended : promoteStaged sampleCrypto (sampleRun sampleDelta) [] = final
  have evaluated : final.outcome.value? = some 2 ∧ final.state.operatorCred = some (sampleCredential "k") ∧
      ["new", "old"].map (fun nodeID => final.state.current[nodeID]?.map (·.generation)) = [some 2, some 1] ∧
      final.state.getServedTrustList.toOption.map (·.trustList.members.map (·.nodeID)) = some ["new", "old"] := by
    rw [← ended]
    decide +kernel
  obtain ⟨outcome, after, rest⟩ := final
  obtain ⟨returned, pinned, generations, members⟩ := evaluated
  obtain rfl := Outcome.eq_done returned
  obtain ⟨list, served, bound⟩ := promotion_serves_bound_bundles sampleCrypto sampleEntropy _ sampleDelta
    [] rest 2 after (sampleCredential "k") ended pinned
  dsimp only at members
  rw [served] at members
  exact ⟨after, rest, rfl, generations, list, served, some.inj members, bound⟩

end Yaog.Controller
