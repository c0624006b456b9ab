import Yaog.Controller.Moves

/-!
# What holds between any two writes

The invariant of the staging records. Its heart is the last field: a record ahead of the counter comes
with the sealed candidate that wrote it, so the promotion can be retried.
-/

namespace Yaog.Controller

open Data Option

section

variable {crypto : Crypto}

structure Store.Sound (crypto : Crypto) (store : Store) : Prop where
  staged : ∀ (nodeID : String) (bundle : SignedBundle), store.staged[nodeID]? = some bundle →
    bundle.nodeID = nodeID ∧ nodeID ≠ "" ∧ bundle.generation ≤ store.generation + 1
  current : ∀ (nodeID : String) (bundle : SignedBundle), store.current[nodeID]? = some bundle →
    bundle.generation ≤ store.generation + 1
  served : ∀ list, store.servedTL = some list → list.promotedGeneration ≤ store.generation + 1
  marked : ∀ mark, store.stagedSeal = some mark →
    mark.check = .ok () ∧ mark.generation ≤ store.generation + 1
  listed : ∀ mark, store.stagedSeal = some mark → mark.hasTrustList = true →
    ∃ list, store.stagedTL = some list ∧ mark.Names crypto list
  upcoming : ∀ mark, store.stagedSeal = some mark → mark.historical = false →
    mark.generation = store.generation + 1 →
    (store.stagedAt (store.generation + 1)).map (·.1) = mark.nodeIDs
  passed : ∀ mark, store.stagedSeal = some mark → mark.historical = false →
    mark.generation ≠ store.generation + 1 →
    ∀ (nodeID : String) (bundle : SignedBundle), store.staged[nodeID]? = some bundle →
      bundle.generation ≤ store.generation
  ahead : store.Ahead → ∃ mark list, store.Candidate crypto mark list

theorem Store.Sound.fresh {store : Store} (staged : store.staged = ∅) (current : store.current = ∅)
    (served : store.servedTL = none) (unsealed : store.stagedSeal = none) : store.Sound crypto where
  staged := by simp [staged]
  current := by simp [current]
  served := by simp [served]
  marked := by simp [unsealed]
  listed := by simp [unsealed]
  upcoming := by simp [unsealed]
  passed := by simp [unsealed]
  ahead := by simp [Store.Ahead, current, served]

variable {rules : Rules} {store after : Store} {mark : StagedSetSeal} {generation : Nat} {list : Option StoredTrustList}

theorem Store.Sound.not_ahead (sound : store.Sound crypto) (unsealed : store.stagedSeal = none) :
    ¬store.Ahead := by
  intro ahead
  obtain ⟨mark, list, ready⟩ := sound.ahead ahead
  exact absurd (ready.held.symm.trans unsealed) (by simp)

theorem StagedSetSeal.check_eq_ok (positive : mark.generation ≠ 0)
    (sorted : mark.nodeIDs.Pairwise fun first second => (compare first second).isLE)
    (archived : mark.historical = true → mark.nodeIDs = [] ∧ mark.hasTrustList = true)
    (named : "" ∉ mark.nodeIDs) (distinct : mark.nodeIDs.Nodup)
    (listed : mark.hasTrustList = !decide (mark.trustListSHA256 = "")) : mark.check = .ok () := by
  have consistent : ¬mark.hasTrustList = decide (mark.trustListSHA256 = "") := by
    rw [listed]
    cases decide (mark.trustListSHA256 = "") <;> simp
  have closed : ¬(mark.historical = true ∧ (mark.nodeIDs ≠ [] ∨ mark.hasTrustList = false)) := by
    rintro ⟨isHistory, wrong⟩
    obtain ⟨empty, present⟩ := archived isHistory
    simp [empty, present] at wrong
  rw [StagedSetSeal.check, if_neg positive, if_neg (not_not.mpr sorted), if_neg closed,
    if_neg (by simp [named, distinct]), if_neg consistent]

theorem historicalSeal_check {list : StoredTrustList} (positive : 0 < generation) :
    (historicalSeal crypto generation list).check = .ok () := by
  apply StagedSetSeal.check_eq_ok
  · exact Nat.ne_of_gt positive
  · exact List.Pairwise.nil
  · exact fun _ => ⟨rfl, rfl⟩
  · exact List.not_mem_nil
  · exact List.nodup_nil
  · simp [historicalSeal, crypto.trustListSHA256_ne]

theorem stagedAt_sorted :
    ((store.stagedAt generation).map (·.1)).Pairwise fun first second => compare first second = .lt := by
  rw [List.pairwise_map]
  exact Std.ExtTreeMap.ordered_keys_toList.filter _

theorem stagedAt_distinct : ((store.stagedAt generation).map (·.1)).Nodup := by
  refine stagedAt_sorted.imp ?_
  rintro first _ less rfl
  rw [Std.compare_self] at less
  cases less

section

variable (sound : store.Sound crypto)

include sound

theorem candidateSeal_check (positive : 0 < generation) (list : Option StoredTrustList) :
    (candidateSeal crypto generation ((store.stagedAt generation).map (·.1)) list).check = .ok () := by
  have named : "" ∉ (store.stagedAt generation).map (·.1) := by
    intro listed
    obtain ⟨entry, member, empty⟩ := List.mem_map.mp listed
    exact (sound.staged entry.1 entry.2 (Store.mem_stagedAt.mp member).1).2.1 empty
  have sorted : ((store.stagedAt generation).map (·.1)).Pairwise fun first second => (compare first second).isLE :=
    stagedAt_sorted.imp fun less => by simp [less]
  cases list with
  | none =>
    exact StagedSetSeal.check_eq_ok (Nat.ne_of_gt positive) sorted nofun named stagedAt_distinct rfl
  | some kept =>
    refine StagedSetSeal.check_eq_ok (Nat.ne_of_gt positive) sorted nofun named stagedAt_distinct ?_
    simp [candidateSeal, crypto.trustListSHA256_ne]

theorem Store.Sound.reseal
    (settled : ¬store.Ahead) (checked : mark.check = .ok ()) (bound : mark.generation ≤ store.generation + 1)
    (listed : mark.hasTrustList = true → ∃ list, store.stagedTL = some list ∧ mark.Names crypto list)
    (fresh : mark.historical = false → mark.generation = store.generation + 1 ∧
      (store.stagedAt (store.generation + 1)).map (·.1) = mark.nodeIDs) :
    (store.putSeal (some mark)).Sound crypto where
  staged := sound.staged
  current := sound.current
  served := sound.served
  marked := by
    intro other held
    cases held
    exact ⟨checked, bound⟩
  listed := by
    intro other held
    cases held
    exact listed
  upcoming := by
    intro other held active _
    cases held
    exact (fresh active).2
  passed := by
    intro other held active elsewhere
    cases held
    exact absurd (fresh active).1 elsewhere
  ahead := fun ahead => absurd ahead settled

theorem Store.Sound.unsealed (settled : ¬store.Ahead) :
    (store.putSeal none).Sound crypto where
  staged := sound.staged
  current := sound.current
  served := sound.served
  marked := nofun
  listed := nofun
  upcoming := nofun
  passed := nofun
  ahead := fun ahead => absurd ahead settled

theorem Store.Sound.scribble (unsealed : store.stagedSeal = none)
    (same : after.current = store.current ∧ after.servedTL = store.servedTL ∧
      after.generation = store.generation ∧ after.stagedSeal = store.stagedSeal)
    (staged : ∀ (nodeID : String) (bundle : SignedBundle), after.staged[nodeID]? = some bundle →
      bundle.nodeID = nodeID ∧ nodeID ≠ "" ∧ bundle.generation ≤ store.generation + 1) :
    after.Sound crypto := by
  obtain ⟨current, served, generation, sealed⟩ := same
  have free : after.stagedSeal = none := sealed.trans unsealed
  constructor
  · rw [generation]
    exact staged
  · rw [generation, current]
    exact sound.current
  · rw [generation, served]
    exact sound.served
  · simp [free]
  · simp [free]
  · simp [free]
  · simp [free]
  · intro ahead
    rw [Store.Ahead, current, served, generation] at ahead
    exact absurd ahead (sound.not_ahead unsealed)

theorem Store.Sound.aside
    (same : after = { store with
      stagedTLHist := after.stagedTLHist, operatorCred := after.operatorCred
      keystoneTransition := after.keystoneTransition, audit := after.audit, nodes := after.nodes
      topology := after.topology, signingAnchor := after.signingAnchor, draws := after.draws }) :
    after.Sound crypto := by
  rw [same]
  refine ⟨sound.staged, sound.current, sound.served, sound.marked, sound.listed, sound.upcoming,
    sound.passed, fun ahead => ?_⟩
  obtain ⟨mark, list, ready⟩ := sound.ahead ahead
  exact ⟨mark, list, ready.held, ready.checked, ready.next, ready.active, ready.nonempty, ready.keyed,
    ready.listing, ready.manifest⟩

theorem Store.Sound.relist (settled : ¬store.Ahead)
    (named : ∀ mark, store.stagedSeal = some mark → mark.hasTrustList = true →
      ∃ kept, list = some kept ∧ mark.Names crypto kept) :
    (store.putStagedTL list).Sound crypto :=
  ⟨sound.staged, sound.current, sound.served, sound.marked, named, sound.upcoming, sound.passed,
    fun ahead => absurd ahead settled⟩

end

theorem Store.Sound.count (sound : store.Sound crypto)
    (upcoming : ∀ mark, store.stagedSeal = some mark → mark.historical = false →
      mark.generation = store.generation + 1 + 1 →
        (store.stagedAt (store.generation + 1 + 1)).map (·.1) = mark.nodeIDs)
    (ahead : (store.setGeneration (store.generation + 1)).Ahead →
      ∃ mark list, (store.setGeneration (store.generation + 1)).Candidate crypto mark list) :
    (store.setGeneration (store.generation + 1)).Sound crypto where
  staged := by
    intro nodeID bundle held
    obtain ⟨same, named, bound⟩ := sound.staged nodeID bundle held
    exact ⟨same, named, Nat.le_succ_of_le bound⟩
  current := fun nodeID bundle held => Nat.le_succ_of_le (sound.current nodeID bundle held)
  served := fun list held => Nat.le_succ_of_le (sound.served list held)
  marked := fun mark held => ⟨(sound.marked mark held).1, Nat.le_succ_of_le (sound.marked mark held).2⟩
  listed := sound.listed
  upcoming := upcoming
  passed := fun _ _ _ _ nodeID bundle held => (sound.staged nodeID bundle held).2.2
  ahead := ahead

theorem Prepare.sound (move : Prepare crypto rules store after) (sound : store.Sound crypto) :
    after.Sound crypto := by
  cases move with
  | note => exact sound.aside rfl
  | record => exact sound.aside rfl
  | invalidate settled => exact sound.unsealed settled
  | stage bundle unsealed named next =>
    refine sound.scribble unsealed ⟨rfl, rfl, rfl, rfl⟩ ?_
    intro nodeID kept held
    change (store.staged.insert bundle.nodeID bundle)[nodeID]? = some kept at held
    rw [Records.getElem?_insert] at held
    split at held
    · next same =>
      cases held
      exact ⟨same, same ▸ named, le_of_eq next⟩
    · exact sound.staged nodeID kept held
  | prune pruned unsealed =>
    refine sound.scribble unsealed ⟨rfl, rfl, rfl, rfl⟩ ?_
    intro nodeID kept held
    change (store.staged.erase pruned)[nodeID]? = some kept at held
    rw [Records.getElem?_erase] at held
    split at held
    · cases held
    · exact sound.staged nodeID kept held
  | drop unsealed => exact sound.scribble unsealed ⟨rfl, rfl, rfl, rfl⟩ sound.staged
  | manifest _ unsealed => exact sound.scribble unsealed ⟨rfl, rfl, rfl, rfl⟩ sound.staged
  | history => exact sound.aside rfl
  | restore _ unsealed => exact sound.scribble unsealed ⟨rfl, rfl, rfl, rfl⟩ sound.staged
  | resignHistory => exact sound.aside rfl
  | resign mark list settled held named =>
    apply sound.relist settled
    intro other again _
    obtain rfl := mem_unique held again
    exact ⟨list, rfl, named⟩
  | sealHistory generation list unsealed positive bound staged =>
    exact sound.reseal (sound.not_ahead unsealed) (historicalSeal_check positive) bound
      (fun _ => ⟨list, staged.1, rfl, rfl⟩) nofun
  | sealCandidate list unsealed keyed staged =>
    apply sound.reseal (sound.not_ahead unsealed) (candidateSeal_check sound (Nat.succ_pos _) list)
    · cases list <;> exact le_refl _
    · cases list with
      | none => exact nofun
      | some kept => exact fun _ => ⟨kept, staged.1, rfl, rfl⟩
    · cases list <;> exact fun _ => ⟨rfl, rfl⟩
  | wake settled closed =>
    apply sound.count
    · exact fun mark held active => absurd ((closed mark held).symm.trans active) (by simp)
    · rintro (⟨nodeID, bundle, held, above⟩ | ⟨list, held, above⟩)
      · exact absurd (.inl ⟨nodeID, bundle, held, Nat.lt_of_succ_lt above⟩) settled
      · exact absurd (.inr ⟨list, held, Nat.lt_of_succ_lt above⟩) settled

theorem Store.Sound.not_ahead_of_retired (sound : store.Sound crypto)
    (retired : store.Retired mark) : ¬store.Ahead := by
  intro ahead
  obtain ⟨other, list, ready⟩ := sound.ahead ahead
  obtain rfl := some.inj (retired.1.symm.trans ready.held)
  have next := ready.next
  rw [retired.2.1] at next
  omega

theorem Store.Sound.live (sound : store.Sound crypto)
    (ready : store.Candidate crypto mark list) {current : Records SignedBundle}
    {servedTL : Option StoredTrustList}
    (bound : ∀ (nodeID : String) (bundle : SignedBundle), current[nodeID]? = some bundle →
      bundle.generation ≤ store.generation + 1)
    (tagged : ∀ kept, servedTL = some kept → kept.promotedGeneration ≤ store.generation + 1) :
    ({ store with current, servedTL } : Store).Sound crypto :=
  ⟨sound.staged, bound, tagged, sound.marked, sound.listed, sound.upcoming, sound.passed,
    fun _ => ⟨mark, list, ready.held, ready.checked, ready.next, ready.active, ready.nonempty,
      ready.keyed, ready.listing, ready.manifest⟩⟩

theorem Promote.sound (move : Promote crypto rules store after) (sound : store.Sound crypto) :
    after.Sound crypto := by
  cases move with
  | install entry ready _ staged =>
    refine sound.live ready ?_ sound.served
    intro nodeID bundle held
    change (store.current.insert entry.2.nodeID (asCurrent entry.2))[nodeID]? = some bundle at held
    rw [Records.getElem?_insert] at held
    split at held
    · cases held
      exact le_of_eq (Store.mem_stagedAt.mp staged).2
    · exact sound.current nodeID bundle held
  | desire => exact sound.aside rfl
  | serve list ready _ signed =>
    refine sound.live ready sound.current ?_
    intro kept held
    cases held
    simp [StoredTrustList.tagged, signed]
  | commit ready =>
    apply sound.count
    · intro mark held _ later
      exact absurd (sound.marked mark held).2 (by omega)
    · rintro (⟨nodeID, bundle, held, above⟩ | ⟨list, held, above⟩)
      · exact absurd (sound.current nodeID bundle held) (Nat.not_le_of_lt above)
      · exact absurd (sound.served list held) (Nat.not_le_of_lt above)
  | sweep swept retired =>
    have fewer : ∀ (nodeID : String) (bundle : SignedBundle),
        (store.staged.erase swept)[nodeID]? = some bundle → store.staged[nodeID]? = some bundle := by
      intro nodeID bundle held
      rw [Records.getElem?_erase] at held
      split at held
      · cases held
      · exact held
    refine ⟨fun nodeID bundle held => sound.staged nodeID bundle (fewer nodeID bundle held), sound.current,
      sound.served, sound.marked, sound.listed, ?_,
      fun mark held active elsewhere nodeID bundle kept =>
        sound.passed mark held active elsewhere nodeID bundle (fewer nodeID bundle kept),
      fun ahead => absurd ahead (sound.not_ahead_of_retired retired)⟩
    intro mark held _ next
    obtain rfl := some.inj (retired.1.symm.trans held)
    rw [retired.2.1] at next
    exact absurd next (Nat.ne_of_lt (Nat.lt_succ_self _))
  | retire retired => exact sound.unsealed (sound.not_ahead_of_retired retired)
  | forget unlisted =>
    apply sound.relist
    · cases held : store.stagedSeal with
      | none => exact sound.not_ahead held
      | some mark => exact sound.not_ahead_of_retired (unlisted mark held).1
    · intro mark held listed
      exact absurd (listed.symm.trans (unlisted mark held).2) (by simp)
  | remember => exact sound.aside rfl
  | archive list retired listed staged =>
    have positive : 0 < store.generation := by
      have checked := (sound.marked _ retired.1).1
      rw [StagedSetSeal.check] at checked
      split at checked
      · cases checked
      · next nonzero =>
        rw [retired.2.1] at nonzero
        exact Nat.pos_of_ne_zero nonzero
    exact sound.reseal (sound.not_ahead_of_retired retired) (historicalSeal_check positive)
      (Nat.le_succ _) (fun _ => ⟨list, staged, rfl, rfl⟩) nofun

theorem Moves.sound (path : Moves crypto rules store after) (sound : store.Sound crypto) :
    after.Sound crypto := by
  induction path with
  | refl => exact sound
  | tail _ move ih =>
    cases move with
    | prepare move => exact move.sound ih
    | promote move => exact move.sound ih

theorem Prepares.frozen (path : Prepares crypto rules store after) (sound : store.Sound crypto)
    (ahead : store.Ahead) : after.staged = store.staged ∧ after.stagedSeal = store.stagedSeal ∧
      after.stagedTL = store.stagedTL ∧ after.Ahead := by
  induction path with
  | refl => exact ⟨rfl, rfl, rfl, ahead⟩
  | tail before move ih =>
    obtain ⟨staged, mark, list, stillAhead⟩ := ih
    have sealed := fun unsealed => ((Prepares.moves before).sound sound).not_ahead unsealed stillAhead
    cases move with
    | note => exact ⟨staged, mark, list, stillAhead⟩
    | record => exact ⟨staged, mark, list, stillAhead⟩
    | invalidate settled => exact absurd stillAhead settled
    | resignHistory _ _ settled => exact absurd stillAhead settled
    | resign _ _ settled => exact absurd stillAhead settled
    | wake settled => exact absurd stillAhead settled
    | stage _ unsealed => exact absurd unsealed sealed
    | prune _ unsealed => exact absurd unsealed sealed
    | drop unsealed => exact absurd unsealed sealed
    | manifest _ unsealed => exact absurd unsealed sealed
    | history _ unsealed => exact absurd unsealed sealed
    | restore _ unsealed => exact absurd unsealed sealed
    | sealHistory _ _ unsealed => exact absurd unsealed sealed
    | sealCandidate _ unsealed => exact absurd unsealed sealed

end

end Yaog.Controller
