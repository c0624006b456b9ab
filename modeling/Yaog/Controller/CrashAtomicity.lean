import Yaog.Controller.PromoteSpec

/-!
# Promotion is crash-atomic

A run calls the store's operations one after another, each under its own plan of faults.
-/

namespace Yaog.Controller

open Data Durable

instance (store : Store) : Decidable store.Ahead :=
  decidable_of_iff
    ((∃ entry ∈ store.current.toList, store.generation < entry.2.generation) ∨
      ∃ list ∈ store.servedTL, store.generation < list.promotedGeneration) (by
    apply or_congr
    · constructor
      · rintro ⟨entry, member, above⟩
        exact ⟨entry.1, entry.2, Records.mem_toList.mp member, above⟩
      · rintro ⟨nodeID, bundle, held, above⟩
        exact ⟨(nodeID, bundle), Records.mem_toList.mpr held, above⟩
    · simp only [Option.mem_def])

inductive StoreCall where
  | replace (set : StagedSet)
  | sign (list : StoredTrustList)
  | wake
  | promote

section

variable (crypto : Crypto)

def StoreCall.left (call : StoreCall) (store : Store) (plan : List Fault) : Store :=
  match call with
  | .replace set => (replaceStagedSet crypto set).left store plan
  | .sign list => (putSignedTrustList crypto list).left store plan
  | .wake => (bumpGeneration crypto).left store plan
  | .promote => (promoteSealed crypto).left store plan

structure Traced where
  store : Store
  base : Records SignedBundle

def Traced.step (traced : Traced) (called : StoreCall × List Fault) : Traced :=
  let after := called.1.left crypto traced.store called.2
  ⟨after, if after.Ahead then traced.base else after.current⟩

def Traced.run (operatorCred : Option OperatorCredential) (nodes : Records RegistryNode)
    (calls : List (StoreCall × List Fault)) : Traced :=
  calls.foldl (Traced.step crypto) ⟨{ operatorCred, nodes }, ∅⟩

end

def Store.sealedBundles (store : Store) (mark : StagedSetSeal) : List (String × SignedBundle) :=
  mark.nodeIDs.filterMap fun nodeID => store.staged[nodeID]?.map fun bundle => (nodeID, bundle)

section

variable {crypto : Crypto} {store after : Store} {list : Option StoredTrustList} {traced : Traced}

theorem Store.Candidate.sealedBundles {mark : StagedSetSeal} (ready : store.Candidate crypto mark list) :
    store.sealedBundles mark = store.stagedAt (store.generation + 1) := by
  rw [Store.sealedBundles, ← ready.listing, List.filterMap_map]
  have each : ∀ entry ∈ store.stagedAt (store.generation + 1),
      ((fun nodeID => store.staged[nodeID]?.map fun bundle => (nodeID, bundle)) ∘ Prod.fst) entry = some entry := by
    intro entry member
    simp [(Store.mem_stagedAt.mp member).1]
  rw [List.filterMap_congr each, List.filterMap_some]

theorem StoreCall.prepares (call : StoreCall) (other : call ≠ .promote) (plan : List Fault) :
    Prepares crypto .any store (call.left crypto store plan) := by
  cases call with
  | replace set => exact (replaceStagedSet_prepares (fun _ _ _ _ => trivial) (fun _ _ _ _ _ => trivial)).left plan
  | sign list =>
    exact (putSignedTrustList_prepares (fun _ _ _ _ => ⟨trivial, trivial⟩) trivial fun _ _ => trivial).left plan
  | wake => exact bumpGeneration_prepares.left plan
  | promote => exact absurd rfl other

theorem promoted_cases (crypto : Crypto) (store : Store) (plan : List Fault) :
    Promotes crypto .any store ((StoreCall.promote).left crypto store plan) ∧
      ((StoreCall.promote).left crypto store plan = store ∨
        ∃ mark list, store.Candidate crypto mark list ∧
          (Attempted store ((StoreCall.promote).left crypto store plan) ∨
            Committed store list ((StoreCall.promote).left crypto store plan))) := by
  have spec := @promoteSealed_promotes crypto .any store fun _ _ _ _ => trivial
  refine (spec.weaken ?_).left plan
  rintro _ state ⟨path, mark, list, ready, committed⟩
  exact ⟨path, .inr ⟨mark, list, ready, .inr committed⟩⟩

theorem Committed.settled (committed : Committed store list after) (sound : store.Sound crypto) : ¬after.Ahead := by
  obtain ⟨generation, -, full, served⟩ := committed
  rintro (⟨nodeID, bundle, held, above⟩ | ⟨kept, held, above⟩)
  · rw [generation] at above
    by_cases listed : nodeID ∈ (store.stagedAt (store.generation + 1)).map (·.1)
    · obtain ⟨entry, member, rfl⟩ := List.mem_map.mp listed
      obtain rfl := Option.some.inj ((full.1 entry member).symm.trans held)
      exact absurd (Store.mem_stagedAt.mp member).2 (Nat.ne_of_gt above)
    · rw [full.2 nodeID listed] at held
      exact absurd (sound.current nodeID bundle held) (Nat.not_le_of_lt above)
  · rw [generation] at above
    rw [served] at held
    have old : store.servedTL = some kept → kept.promotedGeneration ≤ store.generation + 1 := sound.served kept
    cases list with
    | none => exact absurd (old held) (Nat.not_le_of_lt above)
    | some fresh =>
      simp only [Store.servedAfter] at held
      split at held
      · next signed =>
        cases held
        simp [StoredTrustList.tagged, signed] at above
      · exact absurd (old held) (Nat.not_le_of_lt above)

/-- What is current is some of the candidate over the base, and the base itself when nothing is ahead. -/
structure Traced.Sound (crypto : Crypto) (traced : Traced) : Prop where
  store : traced.store.Sound crypto
  attempted : Partly traced.base (traced.store.stagedAt (traced.store.generation + 1)) traced.store.current
  settled : ¬traced.store.Ahead → traced.base = traced.store.current

theorem Traced.Sound.of_store (sound : traced.store.Sound crypto)
    (attempted : traced.store.Ahead →
      Partly traced.base (traced.store.stagedAt (traced.store.generation + 1)) traced.store.current)
    (settled : ¬traced.store.Ahead → traced.base = traced.store.current) : traced.Sound crypto := by
  refine ⟨sound, ?_, settled⟩
  by_cases ahead : traced.store.Ahead
  · exact attempted ahead
  · intro nodeID
    rw [settled ahead]
    exact .inl rfl

theorem Traced.Sound.step (sound : traced.Sound crypto) (call : StoreCall)
    (plan : List Fault) : (traced.step crypto (call, plan)).Sound crypto := by
  let left := call.left crypto traced.store plan
  have rebased : ¬left.Ahead → (traced.step crypto (call, plan)).base = left.current := fun settled => if_neg settled
  have kept : left.Ahead → (traced.step crypto (call, plan)).base = traced.base := fun ahead => if_pos ahead
  by_cases promotes : call = .promote
  · subst promotes
    obtain ⟨path, outcome⟩ := promoted_cases crypto traced.store plan
    refine .of_store (path.moves.sound sound.store) (fun ahead => ?_) rebased
    rw [kept ahead]
    rcases outcome with same | ⟨mark, list, ready, ⟨attempted, current, nodes, servedTL, same⟩ | committed⟩
    · change Partly traced.base (left.stagedAt (left.generation + 1)) left.current
      rw [show left = traced.store from same]
      exact sound.attempted
    · have whole := sound.attempted.trans attempted
      change Partly traced.base (left.stagedAt (left.generation + 1)) left.current
      have staged : left.stagedAt (left.generation + 1) = traced.store.stagedAt (traced.store.generation + 1) := by
        rw [show left = _ from same]
        rfl
      rw [staged]
      exact whole
    · exact absurd ahead (committed.settled sound.store)
  · have path : Prepares crypto .any traced.store left := call.prepares promotes plan
    refine .of_store (path.moves.sound sound.store) (fun ahead => ?_) rebased
    rw [kept ahead]
    have was : traced.store.Ahead := by
      by_contra settled
      exact path.not_ahead settled ahead
    obtain ⟨current, -, -, -, generation⟩ := path.live
    have staged := (path.frozen sound.store was).1
    change Partly traced.base (left.stagedAt (left.generation + 1)) left.current
    rw [show left.current = _ from current, show left.generation = _ from generation was, Store.stagedAt,
      show left.staged = _ from staged]
    exact sound.attempted

theorem Traced.run_sound (crypto : Crypto) (operatorCred : Option OperatorCredential)
    (nodes : Records RegistryNode) (calls : List (StoreCall × List Fault)) :
    (Traced.run crypto operatorCred nodes calls).Sound crypto := by
  have start : (⟨{ operatorCred, nodes }, ∅⟩ : Traced).Sound crypto :=
    .of_store (.fresh rfl rfl rfl rfl) (fun ahead => absurd ahead (by simp [Store.Ahead])) fun _ => rfl
  unfold Traced.run
  generalize (⟨{ operatorCred, nodes }, ∅⟩ : Traced) = traced at start
  induction calls generalizing traced with
  | nil => exact start
  | cons called rest ih => exact ih _ (start.step called.1 called.2)

theorem Store.getServedConfig_committed {nodeID : String} {config : ServedConfig}
    (served : store.getServedConfig nodeID = .ok config) :
    config.bundle.generation ≤ store.generation ∧
      ∀ list, config.trustList = some list → list.promotedGeneration ≤ store.generation := by
  unfold Store.getServedConfig at served
  cases held : store.current[nodeID]? with
  | none => simp [held] at served
  | some bundle =>
    simp only [held] at served
    split_ifs at served with above off
    · cases served
      exact ⟨Nat.le_of_not_lt above, nofun⟩
    · split at served
      · cases served
        exact ⟨Nat.le_of_not_lt above, nofun⟩
      · next kept _ =>
        split_ifs at served with ahead signed
        · cases served
          refine ⟨Nat.le_of_not_lt above, fun list present => ?_⟩
          cases present
          exact Nat.le_of_not_lt ahead
        · cases served
          exact ⟨Nat.le_of_not_lt above, nofun⟩

/-- In every run: no record ahead of the counter is served; a promotion that commits leaves exactly the
sealed bundles over what was current before the first attempt at them; and while a promotion is
interrupted no other operation moves the counter. -/
theorem promotion_crash_atomic (crypto : Crypto) (operatorCred : Option OperatorCredential)
    (nodes : Records RegistryNode) (calls : List (StoreCall × List Fault)) :
    let traced := Traced.run crypto operatorCred nodes calls
    (∀ nodeID config, traced.store.getServedConfig nodeID = .ok config →
      config.bundle.generation ≤ traced.store.generation ∧
        ∀ list, config.trustList = some list → list.promotedGeneration ≤ traced.store.generation) ∧
    (∀ plan, let after := (StoreCall.promote).left crypto traced.store plan
      after.generation ≠ traced.store.generation →
        after.generation = traced.store.generation + 1 ∧
          ∃ mark, traced.store.stagedSeal = some mark ∧
            (∀ nodeID ∈ mark.nodeIDs, (traced.store.staged[nodeID]?).isSome) ∧
            after.current = overwrite traced.base (traced.store.sealedBundles mark)) ∧
    ∀ call plan, call ≠ StoreCall.promote → traced.store.Ahead →
      (call.left crypto traced.store plan).generation = traced.store.generation := by
  have sound := Traced.run_sound crypto operatorCred nodes calls
  refine ⟨fun nodeID config served => Store.getServedConfig_committed served, ?_, ?_⟩
  · intro plan after moved
    obtain ⟨-, outcome⟩ := promoted_cases crypto (Traced.run crypto operatorCred nodes calls).store plan
    rcases outcome with same | ⟨mark, list, ready, ⟨-, current, live, servedTL, same⟩ | committed⟩
    · exact absurd (congrArg Store.generation same) moved
    · exact absurd (congrArg Store.generation same) moved
    · refine ⟨committed.1, mark, ready.held, ?_, ?_⟩
      · intro nodeID named
        rw [← ready.listing] at named
        obtain ⟨entry, member, rfl⟩ := List.mem_map.mp named
        simp [(Store.mem_stagedAt.mp member).1]
      · rw [ready.sealedBundles]
        exact committed.2.2.1.eq_overwrite stagedAt_distinct sound.attempted
  · intro call plan other ahead
    have path : Prepares crypto .any (Traced.run crypto operatorCred nodes calls).store _ :=
      call.prepares other plan
    exact path.live.2.2.2.2 ahead

end

/-- A digest and a signature scheme for examples: a signature names the epoch and the key. -/
def sampleCrypto : Crypto where
  trustListSHA256 list := "sha256-" ++ toString list.epoch
  trustListSHA256_ne _ := by simp [String.append_eq_empty_iff]
  bundleSHA256 checksums := "sha256-" ++ checksums
  pinParses _ := true
  verify list signed cred := signed.signature = toString list.epoch && signed.publicKey = cred.publicKeyPEM

/-- Two bundles are staged; their promotion dies after the first of them. -/
def sampleInterrupted : List (StoreCall × List Fault) :=
  [(.replace { generation := 1, bundles := [⟨"b", 1, ∅, false, false⟩, ⟨"a", 1, ∅, false, false⟩] }, []),
    (.promote, [.applied, .halted])]

theorem sampleInterrupted_retried :
    let traced := Traced.run sampleCrypto none ∅ sampleInterrupted
    let after := (StoreCall.promote).left sampleCrypto traced.store []
    traced.store.Ahead ∧ after.generation ≠ traced.store.generation ∧
      ∃ mark, traced.store.stagedSeal = some mark ∧
        after.current = overwrite traced.base (traced.store.sealedBundles mark) := by
  intro traced after
  have moved : after.generation ≠ traced.store.generation := by decide +kernel
  obtain ⟨-, mark, held, -, written⟩ :=
    (promotion_crash_atomic sampleCrypto none ∅ sampleInterrupted).2.1 [] moved
  exact ⟨by decide +kernel, moved, mark, held, written⟩

end Yaog.Controller
