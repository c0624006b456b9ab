import Yaog.Controller.Moves

/-!
# The store's operations as moves

Whatever the plan of faults, an operation of the store ends after a sequence of moves.
-/

namespace Yaog.Controller

open Data Durable List

variable {bundles : List SignedBundle} {purged nodeIDs : List String} {set : StagedSet}

theorem checkBundles_ok {generation : Nat} {seen : List String}
    (checked : checkBundles generation seen bundles = .ok ()) :
    (∀ bundle ∈ bundles, bundle.nodeID ≠ "" ∧ bundle.generation = generation ∧ bundle.nodeID ∉ seen) ∧
      (bundles.map (·.nodeID)).Nodup := by
  induction bundles generalizing seen with
  | nil => exact ⟨nofun, nodup_nil⟩
  | cons bundle rest ih =>
    rw [checkBundles] at checked
    split at checked
    · cases checked
    split at checked
    · cases checked
    · next good new =>
      obtain ⟨each, distinct⟩ := ih checked
      simp only [not_or, not_not] at good
      refine ⟨?_, ?_⟩
      · intro member inList
        rcases mem_cons.mp inList with rfl | later
        · exact ⟨good.1, good.2, new⟩
        · obtain ⟨named, same, fresh⟩ := each member later
          exact ⟨named, same, fun old => fresh (mem_cons_of_mem _ old)⟩
      · rw [map_cons, nodup_cons]
        refine ⟨?_, distinct⟩
        intro repeated
        obtain ⟨member, inRest, same⟩ := mem_map.mp repeated
        exact (each member inRest).2.2 (same ▸ mem_cons_self)

def StagedAs (staged : Records SignedBundle) (bundles : List SignedBundle) : Prop :=
  ∀ (nodeID : String) (bundle : SignedBundle), staged[nodeID]? = some bundle ↔
    ∃ source ∈ bundles, source.nodeID = nodeID ∧ bundle = asStaged source

section

variable {crypto : Crypto} {rules : Rules} {start store : Store}

section

variable (path : Prepares crypto rules start store) {list : Option StoredTrustList} {empty : Bool}

include path

theorem putStaged_loop (unsealed : store.stagedSeal = none)
    (each : ∀ bundle ∈ bundles, bundle.nodeID ≠ "" ∧ bundle.generation = store.generation + 1)
    (distinct : (bundles.map (·.nodeID)).Nodup) :
    Ensures store
      (bundles.forM fun bundle => write (Store.putStaged (asStaged bundle)) (⟨.storage, []⟩ : ReplaceError))
      (Prepares crypto rules start) fun _ after =>
        Prepares crypto rules start after ∧
          ∃ staged, after = { store with staged } ∧
            ∀ bundle ∈ bundles, staged[bundle.nodeID]? = some (asStaged bundle) := by
  apply Ensures.forM (fun served after =>
    Prepares crypto rules start after ∧ ∃ staged, after = { store with staged } ∧
      ∀ bundle ∈ served, staged[bundle.nodeID]? = some (asStaged bundle))
  · exact ⟨path, store.staged, rfl, nofun⟩
  · rintro served bundle rest after split ⟨pathAfter, staged, rfl, stored⟩
    have member : bundle ∈ bundles := by simp [split]
    have extended := pathAfter.tail (Prepare.stage (asStaged bundle) unsealed (each bundle member).1
      (each bundle member).2)
    refine .write pathAfter extended ⟨extended, staged.insert bundle.nodeID (asStaged bundle), rfl, ?_⟩
    intro other inServed
    rw [Records.getElem?_insert]
    rcases mem_append.mp inServed with old | new
    · have apart : bundle.nodeID ≠ other.nodeID := by
        intro same
        rw [split, map_append, map_cons, nodup_append] at distinct
        exact distinct.2.2 other.nodeID (mem_map_of_mem old) bundle.nodeID mem_cons_self same.symm
      rw [if_neg apart]
      exact stored other old
    · obtain rfl := mem_singleton.mp new
      rw [if_pos rfl]

omit path in
theorem pruneStaged_loop {staged : Records SignedBundle}
    (unsealed : store.stagedSeal = none) (path : Prepares crypto rules start { store with staged }) :
    Ensures { store with staged } (pruneStaged purged nodeIDs) (Prepares crypto rules start) fun _ after =>
      Prepares crypto rules start after ∧
        ∃ kept : Records SignedBundle, after = { store with staged := kept } ∧
          ∀ nodeID : String, kept[nodeID]? = if nodeID ∈ nodeIDs then none else staged[nodeID]? := by
  induction nodeIDs generalizing purged staged with
  | nil => exact .pure ⟨path, staged, rfl, fun nodeID => by simp⟩
  | cons nodeID rest ih =>
    have extended := path.tail (Prepare.prune nodeID unsealed)
    refine .bind ?_
    apply Ensures.write path extended
    apply (@ih (purged ++ [nodeID]) (staged.erase nodeID) extended).weaken
    rintro _ after ⟨pathAfter, kept, rfl, removed⟩
    refine ⟨pathAfter, kept, rfl, fun other => ?_⟩
    rw [removed, Records.getElem?_erase]
    by_cases same : nodeID = other <;> by_cases later : other ∈ rest <;>
      simp [same, later, eq_comm]

theorem saveSeal_prepares {ε : Type} {wrap : StoreError → ε} {allowEmpty : Bool} (unsealed : store.stagedSeal = none)
    (staged : store.Manifest list) (allowed : store.stagedAt (store.generation + 1) ≠ [] → rules.candidate store) :
    Keeps store (saveSealForGeneration crypto wrap (store.generation + 1) list allowEmpty)
      (Prepares crypto rules start) := by
  apply Ensures.read_bind
  apply Ensures.lift_bind
  · exact fun _ _ => path
  · intro entries listed
    obtain ⟨keyed, rfl⟩ := Store.stagedBundles_eq_ok.mp (mapError_eq_ok listed)
    simp only
    split
    · exact .pure path
    · have extended := path.tail (Prepare.sealCandidate list unsealed keyed staged allowed)
      exact .write path extended extended

omit path in
theorem stagedAs_of_loops {staged kept : Records SignedBundle}
    (stored : ∀ bundle ∈ bundles, staged[bundle.nodeID]? = some (asStaged bundle))
    (removed : ∀ nodeID : String, kept[nodeID]? =
      if nodeID ∈ staged.keys.filter (· ∉ bundles.map (·.nodeID)) then none else staged[nodeID]?) :
    StagedAs kept bundles := by
  intro nodeID bundle
  constructor
  · intro held
    rw [removed] at held
    split at held
    · cases held
    · next absent =>
      have listed : nodeID ∈ staged.keys := Records.mem_keys.mpr (by simp [held])
      have member : nodeID ∈ bundles.map (·.nodeID) := by
        by_contra missing
        exact absent (mem_filter.mpr ⟨listed, by simpa using missing⟩)
      obtain ⟨source, inBundles, rfl⟩ := mem_map.mp member
      rw [stored source inBundles] at held
      exact ⟨source, inBundles, rfl, (Option.some.inj held).symm⟩
  · rintro ⟨source, inBundles, rfl, rfl⟩
    have kept_ : source.nodeID ∉ staged.keys.filter (· ∉ bundles.map (·.nodeID)) := by
      intro dropped
      have outside := (mem_filter.mp dropped).2
      simp only [decide_not, Bool.not_eq_eq_eq_not, Bool.not_true, decide_eq_false_iff_not] at outside
      exact outside (mem_map_of_mem inBundles)
    rw [removed, if_neg kept_]
    exact stored source inBundles

theorem keepHistory_prepares (unsealed : store.stagedSeal = none) :
    Ensures store (keepHistory purged empty) (Prepares crypto rules start) fun _ after =>
      Prepares crypto rules start after ∧ ∃ history, after = { store with stagedTLHist := history } := by
  apply Ensures.read_bind
  split
  · next _ _ list prior =>
    have extended := path.tail (Prepare.history list unsealed (.inl prior))
    exact .write path extended ⟨extended, some list, rfl⟩
  · exact .pure ⟨path, store.stagedTLHist, rfl⟩

theorem replaceManifest_prepares (unsealed : store.stagedSeal = none)
    (allowed : ∀ kept, list = some kept → rules.manifest store kept) :
    Ensures store (replaceManifest purged empty list) (Prepares crypto rules start) fun _ after =>
      Prepares crypto rules start after ∧ after.Manifest list ∧
        ∃ history, after = { store with stagedTL := list, stagedTLHist := history } := by
  cases list with
  | none =>
    refine .bind ?_
    apply (keepHistory_prepares path unsealed).weaken
    rintro _ after ⟨pathAfter, history, rfl⟩
    have extended := pathAfter.tail (Prepare.drop unsealed)
    exact .write pathAfter extended ⟨extended, rfl, history, rfl⟩
  | some kept =>
    have written := path.tail (Prepare.manifest kept unsealed (allowed kept rfl))
    have recorded := written.tail (Prepare.history kept unsealed (.inl rfl))
    refine .bind ?_
    apply Ensures.write path written
    exact .write written recorded ⟨recorded, ⟨rfl, rfl⟩, some kept, rfl⟩

theorem sealHistory_prepares (unsealed : store.stagedSeal = none) :
    Keeps store (sealHistory crypto purged) (Prepares crypto rules start) := by
  apply Ensures.read_bind
  cases kept : store.stagedTLHist with
  | none => exact .pure path
  | some history =>
    have restored := path.tail (Prepare.restore history unsealed kept)
    have positive : 0 < max store.generation 1 := by omega
    have bound : max store.generation 1 ≤ store.generation + 1 := by omega
    have marked := restored.tail (Prepare.sealHistory (max store.generation 1) history unsealed positive
      bound ⟨rfl, kept⟩)
    refine .bind ?_
    apply Ensures.write path restored
    exact .write restored marked marked

end

theorem sealCandidate_prepares (settled : ¬start.Ahead)
    (path : Prepares crypto rules start store) (unsealed : store.stagedSeal = none)
    (staged : store.Manifest set.trustList) (next : set.generation = store.generation + 1)
    (allowed : store.stagedAt (store.generation + 1) ≠ [] → rules.candidate store) :
    Keeps store (sealCandidate crypto purged set nodeIDs) (Prepares crypto rules start) := by
  refine .bind ?_
  rw [next]
  apply (saveSeal_prepares path unsealed staged allowed).weaken
  intro _ after pathAfter
  apply Ensures.read_bind
  apply Ensures.lift_bind (fun _ _ => pathAfter)
  intro mark _
  split
  · exact .pure pathAfter
  · have reverted := pathAfter.tail (Prepare.invalidate (pathAfter.not_ahead settled))
    refine .bind ?_
    exact .tryWrite pathAfter (.fail pathAfter) (.fail reverted)

theorem sealReplacement_prepares (settled : ¬start.Ahead) (path : Prepares crypto rules start store)
    (unsealed : store.stagedSeal = none) (staged : store.Manifest set.trustList)
    (allowed : nodeIDs ≠ [] → set.generation = store.generation + 1 ∧ rules.candidate store) :
    Keeps store (sealReplacement crypto purged set nodeIDs) (Prepares crypto rules start) := by
  unfold sealReplacement
  split
  · exact sealHistory_prepares path unsealed
  · next nonempty =>
    obtain ⟨next, held⟩ := allowed nonempty
    exact sealCandidate_prepares settled path unsealed staged next fun _ => held

theorem mem_sortBundles {bundle : SignedBundle} : bundle ∈ sortBundles bundles ↔ bundle ∈ bundles :=
  (perm_insertionSort _ _).mem_iff

/-- A replacement only prepares, provided that its caller respects the rules with the manifest it
hands over and with what is staged when the seal is written. -/
theorem replaceStagedSet_prepares
    (manifest : ∀ list staged, set.trustList = some list → ¬store.Ahead →
      rules.manifest { store with stagedSeal := none, staged } list)
    (candidate : ∀ staged history, ¬store.Ahead → StagedAs staged set.bundles →
      (∀ bundle ∈ set.bundles, bundle.generation = store.generation + 1) →
      rules.candidate
        { store with stagedSeal := none, staged, stagedTL := set.trustList, stagedTLHist := history }) :
    Keeps store (replaceStagedSet crypto set) (Prepares crypto rules store) := by
  have begin : Prepares crypto rules store store := .refl
  apply Ensures.require_bind (fun _ => begin)
  intro _
  apply Ensures.require_bind (fun _ => begin)
  intro _
  apply Ensures.lift_bind (fun _ _ => begin)
  intro _ checked
  obtain ⟨each, distinct⟩ := checkBundles_ok (mapError_eq_ok checked)
  apply Ensures.read_bind
  apply Ensures.lift_bind (fun _ _ => begin)
  intro _ required
  have settled := Store.not_ahead_of_required (mapError_eq_ok required)
  apply Ensures.require_bind (fun _ => begin)
  intro upcoming
  have unsealed : Prepares crypto rules store (store.putSeal none) := begin.tail (Prepare.invalidate settled)
  have nexts : ∀ bundle ∈ sortBundles set.bundles, bundle.generation = store.generation + 1 := by
    intro bundle member
    rcases upcoming with empty | next
    · exact absurd (empty ▸ member) not_mem_nil
    · exact (each bundle member).2.1.trans next
  refine .bind ?_
  apply Ensures.write begin unsealed
  refine .bind ?_
  apply (putStaged_loop unsealed rfl (fun bundle member => ⟨(each bundle member).1, nexts bundle member⟩)
    distinct).weaken
  rintro _ after ⟨stagedPath, staged, rfl, stored⟩
  apply Ensures.read_bind
  refine .bind ?_
  apply (pruneStaged_loop (show (store.putSeal none).stagedSeal = none from rfl) stagedPath).mono
    (fun _ stopped => stopped)
  rintro purged after ⟨prunedPath, kept, rfl, removed⟩
  have exactly : StagedAs kept set.bundles := by
    intro nodeID bundle
    simpa only [mem_sortBundles] using stagedAs_of_loops stored removed nodeID bundle
  refine .bind ?_
  apply (replaceManifest_prepares prunedPath rfl fun list present => manifest list kept present settled).weaken
  rintro _ after ⟨manifestPath, sealed, history, rfl⟩
  refine .bind ?_
  have allowed : sortBundles set.bundles ≠ [] → set.generation = store.generation + 1 ∧ _ := fun nonempty =>
    ⟨upcoming.resolve_left nonempty, candidate kept history settled exactly
      fun bundle member => nexts bundle (mem_sortBundles.mpr member)⟩
  apply (sealReplacement_prepares settled manifestPath rfl sealed fun nonempty =>
    allowed (by simpa using nonempty)).weaken
  intro _ after path
  exact .pure path

theorem putSignedTrustList_prepares {list : StoredTrustList}
    (resign : ∀ mark, store.stagedSeal = some mark → mark.hasTrustList = true → mark.Names crypto list →
      rules.resign store list ∧ rules.resign (store.putHistory list) list)
    (manifest : rules.manifest (store.putSeal none) list)
    (candidate : (∀ mark, store.loadSeal = .ok mark → mark.hasTrustList = true → mark.Names crypto list →
        mark.historical = false ∧ mark.generation ≠ store.generation + 1) →
      store.stagedAt (store.generation + 1) ≠ [] →
      rules.candidate (((store.putSeal none).putStagedTL (some list)).putHistory list)) :
    Keeps store (putSignedTrustList crypto list) (Prepares crypto rules store) := by
  have begin : Prepares crypto rules store store := .refl
  apply Ensures.read_bind
  apply Ensures.lift_bind (fun _ _ => begin)
  intro _ required
  have settled := Store.not_ahead_of_required required
  have replaced (elsewhere : ∀ mark, store.loadSeal = .ok mark → mark.hasTrustList = true →
      mark.Names crypto list → mark.historical = false ∧ mark.generation ≠ store.generation + 1) :
      Keeps store (putSignedTrustList.replace crypto list store) (Prepares crypto rules store) := by
    have unsealed := begin.tail (Prepare.invalidate settled)
    have written := unsealed.tail (Prepare.manifest list rfl manifest)
    have recorded := written.tail (Prepare.history list rfl (.inl rfl))
    refine .bind ?_
    apply Ensures.write begin unsealed
    refine .bind ?_
    apply Ensures.write unsealed written
    refine .bind ?_
    apply Ensures.write written recorded
    exact saveSeal_prepares recorded rfl ⟨rfl, rfl⟩ (candidate elsewhere)
  cases loaded : store.loadSeal with
  | error reason =>
    apply replaced
    intro mark impossible
    rw [loaded] at impossible
    cases impossible
  | ok mark =>
    simp only
    split
    · next same =>
      obtain ⟨-, listed, named⟩ := same
      have held := (Store.loadSeal_eq_ok.mp loaded).1
      obtain ⟨first, second⟩ := resign mark held listed named
      have recorded := begin.tail (Prepare.resignHistory mark list settled held named first)
      have written := recorded.tail (Prepare.resign mark list settled held named second rfl)
      refine .bind ?_
      apply Ensures.write begin recorded
      exact .write recorded written written
    · next differs =>
      apply replaced
      intro other again listed named
      obtain rfl := Except.ok.inj (loaded.symm.trans again)
      constructor
      · by_contra archived
        exact differs ⟨.inl (by simpa using archived), listed, named⟩
      · exact fun upcoming => differs ⟨.inr upcoming, listed, named⟩

theorem bumpGeneration_prepares :
    Keeps store (bumpGeneration crypto) (Prepares crypto rules store) := by
  have begin : Prepares crypto rules store store := .refl
  apply Ensures.read_bind
  apply Ensures.lift_bind (fun _ _ => begin)
  intro _ required
  have settled := Store.not_ahead_of_required required
  have unsealed := begin.tail (Prepare.invalidate settled)
  refine .bind ?_
  apply Ensures.write begin unsealed
  refine .bind ?_
  have archived : Ensures (store.putSeal none)
      (archiveManifest crypto (store.generation + 1) (store.stagedTLHist <|> store.stagedTL))
      (Prepares crypto rules store) fun _ after => Prepares crypto rules store after ∧
        after.generation = store.generation ∧
        ∀ mark, after.stagedSeal = some mark → mark.historical = true := by
    cases last : store.stagedTLHist <|> store.stagedTL with
    | none =>
      have dropped := unsealed.tail (Prepare.drop rfl)
      exact .write unsealed dropped ⟨dropped, rfl, nofun⟩
    | some history =>
      have known : store.stagedTL = some history ∨ store.stagedTLHist = some history := by
        cases kept : store.stagedTLHist with
        | none => exact .inl (by simpa [kept] using last)
        | some other => exact .inr (by simpa [kept] using last)
      have recorded := unsealed.tail (Prepare.history history rfl known)
      have restored := recorded.tail (Prepare.restore history rfl rfl)
      have marked := restored.tail (Prepare.sealHistory (store.generation + 1) history rfl
        (Nat.succ_pos _) (le_refl _) ⟨rfl, rfl⟩)
      refine .bind ?_
      apply Ensures.write unsealed recorded
      refine .bind ?_
      apply Ensures.write recorded restored
      refine .write restored marked ⟨marked, rfl, ?_⟩
      intro mark held
      cases held
      rfl
  apply archived.weaken
  rintro _ after ⟨path, same, closed⟩
  have woken := path.tail (Prepare.wake (path.not_ahead settled) closed)
  rw [same] at woken
  refine .bind ?_
  apply Ensures.write path woken
  exact .pure woken

end

end Yaog.Controller
