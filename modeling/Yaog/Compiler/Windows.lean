import Yaog.Compiler.Stability

/-!
# What each pool hands out

The links that ask a pool get its first free candidates, one each: the pool's window.
-/

namespace Yaog.Compiler

open Net Validator List

def linkRank (asks : LinkEntity → Bool) (links : List LinkEntity) (link : LinkEntity) : Nat :=
  (earlierLinks links link).countP asks

section

variable {asks : LinkEntity → Bool} {links : List LinkEntity} {link : LinkEntity}

section

variable (distinct : (links.map LinkEntity.linkKey).Nodup)

include distinct

private theorem linkRank_split {before rest : List LinkEntity} (split : sortLinks links = before ++ link :: rest) :
    linkRank asks links link = before.countP asks :=
  (earlierLinks_sorted distinct split).countP_eq asks

omit distinct in
private theorem sorted_split (member : link ∈ links) : ∃ before rest, sortLinks links = before ++ link :: rest :=
  append_of_mem ((sortLinks_perm links).mem_iff.mpr member)

theorem linkRank_lt (member : link ∈ links)
    (asking : asks link = true) : linkRank asks links link < links.countP asks := by
  obtain ⟨before, rest, split⟩ := sorted_split member
  rw [linkRank_split distinct split, ← (sortLinks_perm links).countP_eq asks, split, countP_append,
    countP_cons_of_pos asking]
  omega

theorem linkRank_inj {other : LinkEntity} (member : link ∈ links) (member' : other ∈ links) (asking : asks link = true)
    (asking' : asks other = true) (same : linkRank asks links link = linkRank asks links other) : link = other := by
  obtain ⟨before, rest, split⟩ := sorted_split member
  have inSorted : other ∈ before ++ link :: rest := split ▸ (sortLinks_perm links).mem_iff.mpr member'
  rw [linkRank_split distinct split] at same
  rcases mem_append.mp inSorted with earlier | later
  · obtain ⟨first, second, rfl⟩ := append_of_mem earlier
    rw [append_assoc, cons_append] at split
    rw [linkRank_split distinct split, countP_append, countP_cons_of_pos asking'] at same
    omega
  · rcases mem_cons.mp later with rfl | later
    · rfl
    · obtain ⟨first, second, rfl⟩ := append_of_mem later
      have resplit : sortLinks links = (before ++ link :: first) ++ other :: second := by simp [split]
      rw [linkRank_split distinct resplit, countP_append, countP_cons_of_pos asking] at same
      omega

omit distinct in
private theorem exists_countP_split {α : Type} (asks : α → Bool) (items : List α) (number : Nat)
    (small : number < items.countP asks) :
    ∃ before item rest, items = before ++ item :: rest ∧ asks item = true ∧ before.countP asks = number := by
  induction items generalizing number with
  | nil => simp at small
  | cons head tail ih =>
    cases asking : asks head with
    | false =>
      rw [countP_cons_of_neg (by simp [asking])] at small
      obtain ⟨before, item, rest, rfl, isAsking, count⟩ := ih number small
      exact ⟨head :: before, item, rest, rfl, isAsking, by rw [countP_cons_of_neg (by simp [asking]), count]⟩
    | true =>
      rw [countP_cons_of_pos asking] at small
      cases number with
      | zero => exact ⟨[], head, tail, rfl, asking, rfl⟩
      | succ number =>
        obtain ⟨before, item, rest, rfl, isAsking, count⟩ := ih number (by omega)
        exact ⟨head :: before, item, rest, rfl, isAsking, by rw [countP_cons_of_pos asking, count]⟩

theorem exists_linkRank {number : Nat} (small : number < links.countP asks) :
    ∃ link ∈ links, asks link = true ∧ linkRank asks links link = number := by
  rw [← (sortLinks_perm links).countP_eq asks] at small
  obtain ⟨before, link, rest, split, asking, count⟩ := exists_countP_split asks _ number small
  refine ⟨link, (sortLinks_perm links).mem_iff.mp ?_, asking, (linkRank_split distinct split).trans count⟩
  rw [split]
  simp

end

end

theorem foldl_union {α : Type} (occupies : α → Resources) (reserved : Resources) (items : List α) :
    items.foldl (fun used item => used.union (occupies item)) reserved = reserved.union
      { ports := items.flatMap fun item => (occupies item).ports
        transit := items.flatMap fun item => (occupies item).transit
        linkLocals := items.flatMap fun item => (occupies item).linkLocals } := by
  induction items generalizing reserved with
  | nil => simp [Resources.union]
  | cons item rest ih =>
    rw [foldl_cons, ih]
    simp [Resources.union]

theorem reservePins_eq (reserved : Resources) (links : List LinkEntity) :
    reservePins reserved links = reserved.union
      { ports := links.flatMap fun link => (pinnedResources link).ports
        transit := links.flatMap fun link => (pinnedResources link).transit
        linkLocals := links.flatMap fun link => (pinnedResources link).linkLocals } :=
  foldl_union pinnedResources reserved links

/-- One kind of paired resource: what links pin, what they get, which pool they ask, what it hands out. -/
structure PoolView (κ : Type) where
  pinned : LinkEntity → Option (String × String)
  slot : LinkEntity → Option (String × String)
  pool : LinkEntity → κ
  window : κ → List (String × String)

/-- Pins are kept; the links without pins share out the windows of their pools. -/
structure PoolView.Lawful {κ : Type} (view : PoolView κ) (links : List LinkEntity) : Prop where
  slot_pinned : ∀ {link pair}, view.pinned link = some pair → view.slot link = some pair
  slot_window : ∀ {link pair}, link ∈ links → view.pinned link = none → view.slot link = some pair →
    pair ∈ view.window (view.pool link)
  window_owner : ∀ {key pair}, pair ∈ view.window key →
    ∃ link ∈ links, view.pinned link = none ∧ view.pool link = key ∧ view.slot link = some pair
  separate : ∀ {link other pair pair' text}, link ∈ links → other ∈ links → link ≠ other →
    view.pinned link = none → view.pinned other = none → view.pool link = view.pool other →
    view.slot link = some pair → view.slot other = some pair' → text ∈ pairMarks pair → text ∉ pairMarks pair'

/-- The links without pins get the free pairs of their pools by their rank among those that ask. -/
structure PoolView.Ranked {κ : Type} (view : PoolView κ) (links : List LinkEntity) (asks : κ → LinkEntity → Bool)
    (free : κ → List (String × String)) : Prop where
  asking : ∀ {key link}, asks key link = true ↔ view.pinned link = none ∧ view.pool link = key
  pinned : ∀ {link pair}, view.pinned link = some pair → view.slot link = some pair
  slot : ∀ {link}, view.pinned link = none →
    view.slot link = (free (view.pool link))[linkRank (asks (view.pool link)) links link]?
  window : ∀ key, view.window key = (free key).take (links.countP (asks key))
  apart : ∀ {key pair pair' text} {place place' : Nat}, (free key)[place]? = some pair →
    (free key)[place']? = some pair' → text ∈ pairMarks pair → text ∈ pairMarks pair' → place = place'

theorem PoolView.Ranked.lawful {κ : Type} {view : PoolView κ} {links : List LinkEntity} {asks : κ → LinkEntity → Bool}
    {free : κ → List (String × String)} (ranked : view.Ranked links asks free)
    (distinct : (links.map LinkEntity.linkKey).Nodup) : view.Lawful links where
  slot_pinned := ranked.pinned
  slot_window := by
    intro link pair member unpinned slot
    have small := linkRank_lt distinct member (ranked.asking.mpr ⟨unpinned, rfl⟩)
    rw [ranked.window]
    exact mem_of_getElem? ((getElem?_take_of_lt small).trans ((ranked.slot unpinned).symm.trans slot))
  window_owner := by
    intro key pair member
    rw [ranked.window] at member
    obtain ⟨number, found⟩ := getElem?_of_mem member
    have small : number < links.countP (asks key) := by
      obtain ⟨bound, -⟩ := List.getElem?_eq_some_iff.mp found
      rw [length_take] at bound
      omega
    obtain ⟨link, isLink, asking, rank⟩ := exists_linkRank distinct small
    obtain ⟨unpinned, rfl⟩ := ranked.asking.mp asking
    rw [getElem?_take_of_lt small, ← rank] at found
    exact ⟨link, isLink, unpinned, rfl, (ranked.slot unpinned).trans found⟩
  separate := by
    intro link other pair pair' text member member' different unpinned unpinned' samePool slot slot' inFirst inSecond
    rw [ranked.slot unpinned] at slot
    rw [ranked.slot unpinned', ← samePool] at slot'
    exact different (linkRank_inj distinct member member' (ranked.asking.mpr ⟨unpinned, rfl⟩)
      (ranked.asking.mpr ⟨unpinned', samePool.symm⟩) (ranked.apart slot slot' inFirst inSecond))

def linkTransit (links : List LinkEntity) (link : LinkEntity) : Option (String × String) :=
  expectedTransit (reservePins {} links) (earlierLinks links link) link

def handedTransit (links : List LinkEntity) (cidr : String) : List (String × String) :=
  (freeTransitPairs (reservePins {} links).transit cidr).take (links.countP (needsTransit cidr))

section

variable {links : List LinkEntity} {link other : LinkEntity} {pair pair' : String × String} {cidr text : String}

theorem linkTransit_pinned (pinned : pinnedTransit link = some pair) : linkTransit links link = some pair := by
  simp only [linkTransit, expectedTransit, pinned]

theorem expectedTransit_slot (reserved : Resources) (unpinned : pinnedTransit link = none) :
    expectedTransit (reservePins reserved links) (earlierLinks links link) link =
      (freeTransitPairs (reservePins reserved links).transit link.transitCIDR)[
        linkRank (needsTransit link.transitCIDR) links link]? := by
  simp only [expectedTransit, unpinned]
  rfl

theorem handedTransit_pair (member : pair ∈ handedTransit links cidr) : pair ∈ transitPairs cidr :=
  mem_of_mem_filter (mem_of_mem_take member)

def reservedTransitView (reserved : Resources) (links : List LinkEntity) : PoolView String where
  pinned := pinnedTransit
  slot := fun link => expectedTransit (reservePins reserved links) (earlierLinks links link) link
  pool := LinkEntity.transitCIDR
  window := fun cidr =>
    (freeTransitPairs (reservePins reserved links).transit cidr).take (links.countP (needsTransit cidr))

theorem reservedTransitView_lawful (reserved : Resources) (distinct : (links.map LinkEntity.linkKey).Nodup) :
    (reservedTransitView reserved links).Lawful links := by
  have ranked : (reservedTransitView reserved links).Ranked links needsTransit
      (freeTransitPairs (reservePins reserved links).transit) := by
    refine ⟨by simp [needsTransit, reservedTransitView], fun {_ pair} pinned => ?_, expectedTransit_slot reserved,
      fun _ => rfl, fun {key pair pair' text place place'} found found' inFirst inSecond => ?_⟩
    · change pinnedTransit _ = some pair at pinned
      simp only [reservedTransitView, expectedTransit, pinned]
    · have same := transitPairs_separate (mem_of_mem_filter (mem_of_getElem? found))
        (mem_of_mem_filter (mem_of_getElem? found')) text inFirst inSecond
      rw [← same] at found'
      obtain ⟨bound, -⟩ := List.getElem?_eq_some_iff.mp found
      exact (getElem?_inj bound ((transitPairs_nodup key).filter _)).mp (found.trans found'.symm)
  exact ranked.lawful distinct

def transitView (links : List LinkEntity) : PoolView String where
  pinned := pinnedTransit
  slot := linkTransit links
  pool := LinkEntity.transitCIDR
  window := handedTransit links

theorem transitView_lawful (distinct : (links.map LinkEntity.linkKey).Nodup) : (transitView links).Lawful links :=
  reservedTransitView_lawful {} distinct

end

def linkLinkLocal (links : List LinkEntity) (link : LinkEntity) : Option (String × String) :=
  expectedLinkLocal (reservePins {} links) (earlierLinks links link) links.length link

def handedLinkLocals (links : List LinkEntity) : List (String × String) :=
  ((freeLinkLocals (reservePins {} links).linkLocals links.length).take (links.countP needsLinkLocal)).map
    allocateLinkLocalPair

theorem reservePins_linkLocals_length (links : List LinkEntity) :
    (reservePins {} links).linkLocals.length ≤ 2 * links.length := by
  rw [reservePins_eq, Resources.union]
  change ([] ++ links.flatMap fun link => (pinnedResources link).linkLocals).length ≤ 2 * links.length
  rw [nil_append]
  induction links with
  | nil => simp
  | cons link rest ih =>
    have two : (pinnedResources link).linkLocals.length ≤ 2 := by
      simp only [pinnedResources]
      split <;> simp
    simp only [flatMap_cons, length_append, length_cons]
    omega

section

variable {links : List LinkEntity} {link other : LinkEntity} {pair pair' : String × String} {text : String}

theorem linkLinkLocal_pinned (pinned : pinnedLinkLocal link = some pair) : linkLinkLocal links link = some pair := by
  simp only [linkLinkLocal, expectedLinkLocal, pinned]

theorem expectedLinkLocal_slot (reserved : Resources) (unpinned : pinnedLinkLocal link = none) :
    expectedLinkLocal (reservePins reserved links) (earlierLinks links link) links.length link =
      (freeLinkLocals (reservePins reserved links).linkLocals links.length)[
        linkRank needsLinkLocal links link]?.map allocateLinkLocalPair := by
  simp only [expectedLinkLocal, unpinned]
  rfl

theorem handedLinkLocals_index (member : pair ∈ handedLinkLocals links) :
    ∃ index, index < 3 * links.length ∧ pair = allocateLinkLocalPair index := by
  obtain ⟨index, inWindow, rfl⟩ := mem_map.mp member
  have inRange := mem_range.mp (mem_of_mem_filter (mem_of_mem_take inWindow))
  have used := reservePins_linkLocals_length links
  exact ⟨index, by omega, rfl⟩

def reservedLinkLocalView (reserved : Resources) (links : List LinkEntity) : PoolView Unit where
  pinned := pinnedLinkLocal
  slot := fun link => expectedLinkLocal (reservePins reserved links) (earlierLinks links link) links.length link
  pool := fun _ => ()
  window := fun _ => ((freeLinkLocals (reservePins reserved links).linkLocals links.length).take
    (links.countP needsLinkLocal)).map allocateLinkLocalPair

theorem reservedLinkLocalView_lawful (reserved : Resources) (distinct : (links.map LinkEntity.linkKey).Nodup) :
    (reservedLinkLocalView reserved links).Lawful links := by
  have ranked : (reservedLinkLocalView reserved links).Ranked links (fun _ => needsLinkLocal) fun _ =>
      (freeLinkLocals (reservePins reserved links).linkLocals links.length).map allocateLinkLocalPair := by
    refine ⟨by simp [needsLinkLocal, reservedLinkLocalView], fun {_ pair} pinned => ?_, fun unpinned => ?_,
      fun _ => map_take, fun {key pair pair' text place place'} found found' inFirst inSecond => ?_⟩
    · change pinnedLinkLocal _ = some pair at pinned
      simp only [reservedLinkLocalView, expectedLinkLocal, pinned]
    · rw [getElem?_map]
      exact expectedLinkLocal_slot reserved unpinned
    · rw [getElem?_map] at found found'
      obtain ⟨index, isIndex, rfl⟩ := Option.map_eq_some_iff.mp found
      obtain ⟨index', isIndex', rfl⟩ := Option.map_eq_some_iff.mp found'
      obtain rfl := linkLocalMarks_separate index index' text inFirst inSecond
      obtain ⟨bound, -⟩ := List.getElem?_eq_some_iff.mp isIndex
      exact (getElem?_inj bound (nodup_range.filter _)).mp (isIndex.trans isIndex'.symm)
  exact ranked.lawful distinct

def linkLocalView (links : List LinkEntity) : PoolView Unit where
  pinned := pinnedLinkLocal
  slot := linkLinkLocal links
  pool := fun _ => ()
  window := fun _ => handedLinkLocals links

theorem linkLocalView_lawful (distinct : (links.map LinkEntity.linkKey).Nodup) : (linkLocalView links).Lawful links :=
  reservedLinkLocalView_lawful {} distinct

end

def PairsApart (apart : String → String → Prop) (first second : String × String) : Prop :=
  ∀ text ∈ pairMarks first, ∀ text' ∈ pairMarks second, apart text text'

section

variable {κ : Type} (apart : String → String → Prop) (view : PoolView κ) (links : List LinkEntity)

def PinsApart : Prop :=
  ∀ link ∈ links, ∀ other ∈ links, link ≠ other → ∀ pair pair', view.pinned link = some pair →
    view.pinned other = some pair' → PairsApart apart pair pair'

def SlotsApart : Prop :=
  ∀ link ∈ links, ∀ other ∈ links, link ≠ other → ∀ pair pair', view.slot link = some pair →
    view.slot other = some pair' → PairsApart apart pair pair'

/-- The windows are apart from the pins and from each other. -/
structure WindowsApart : Prop where
  pins : ∀ key, ∀ pair ∈ view.window key, ∀ link ∈ links, ∀ pinned, view.pinned link = some pinned →
    PairsApart apart pair pinned
  pools : ∀ key key', key ≠ key' → ∀ pair ∈ view.window key, ∀ pair' ∈ view.window key', PairsApart apart pair pair'

end

section

variable {κ : Type} {apart : String → String → Prop} {view : PoolView κ} {links : List LinkEntity}

theorem windowsApart_of_slots (lawful : view.Lawful links) (separate : SlotsApart apart view links) :
    WindowsApart apart view links := by
  constructor
  case pins =>
    intro key pair handed link member pinned isPinned
    obtain ⟨owner, isOwner, unpinned, -, slot⟩ := lawful.window_owner handed
    refine separate owner isOwner link member (fun same => ?_) pair pinned slot (lawful.slot_pinned isPinned)
    rw [same, isPinned] at unpinned
    cases unpinned
  case pools =>
    intro key key' different pair handed pair' handed'
    obtain ⟨owner, isOwner, -, pool, slot⟩ := lawful.window_owner handed
    obtain ⟨owner', isOwner', -, pool', slot'⟩ := lawful.window_owner handed'
    refine separate owner isOwner owner' isOwner' (fun same => ?_) pair pair' slot slot'
    rw [same, pool'] at pool
    exact different pool.symm

theorem slotsApart_of_windows (lawful : view.Lawful links)
    (symmetric : ∀ {text text'}, apart text text' → apart text' text) (pinsApart : PinsApart apart view links)
    (poolApart : ∀ key, ∀ pair ∈ view.window key, ∀ pair' ∈ view.window key, ∀ text ∈ pairMarks pair,
      ∀ text' ∈ pairMarks pair', text ≠ text' → apart text text')
    (windows : WindowsApart apart view links) : SlotsApart apart view links := by
  intro link member other member' different pair pair' slot slot'
  cases pinned : view.pinned link with
  | some pins =>
    obtain rfl : pins = pair := Option.some.inj ((lawful.slot_pinned pinned).symm.trans slot)
    cases pinned' : view.pinned other with
    | some pins' =>
      obtain rfl : pins' = pair' := Option.some.inj ((lawful.slot_pinned pinned').symm.trans slot')
      exact pinsApart link member other member' different pins pins' pinned pinned'
    | none =>
      have handed := lawful.slot_window member' pinned' slot'
      intro text inFirst text' inSecond
      exact symmetric (windows.pins _ pair' handed link member pins pinned text' inSecond text inFirst)
  | none =>
    have handed := lawful.slot_window member pinned slot
    cases pinned' : view.pinned other with
    | some pins' =>
      obtain rfl : pins' = pair' := Option.some.inj ((lawful.slot_pinned pinned').symm.trans slot')
      exact windows.pins _ pair handed other member' pins' pinned'
    | none =>
      have handed' := lawful.slot_window member' pinned' slot'
      by_cases samePool : view.pool link = view.pool other
      · intro text inFirst text' inSecond
        refine poolApart _ pair handed pair' (samePool ▸ handed') text inFirst text' inSecond fun same => ?_
        exact lawful.separate member member' different pinned pinned' samePool slot slot' inFirst (same ▸ inSecond)
      · exact windows.pools _ _ samePool pair handed pair' handed'

end

def portEntries (link : LinkEntity) (ports : Int × Int) : List (String × Int) :=
  (if ports.1 = 0 then [] else [(link.fromNode.id, ports.1)]) ++ if ports.2 = 0 then [] else [(link.toNode.id, ports.2)]

def linkPorts (links : List LinkEntity) (link : LinkEntity) : Option (Int × Int) :=
  expectedPorts (reservePins {} links) (earlierLinks links link) link

section

variable {links : List LinkEntity} {link other : LinkEntity} {ports ports' : Int × Int} {nodeID : String} {port : Int}
  {reserved : Resources}

theorem portEntries_origin (slot : expectedPorts (reservePins reserved links) (earlierLinks links link) link = some ports)
    (entry : (nodeID, port) ∈ portEntries link ports) :
    (pinnedPorts link = some ports ∧ (nodeID, port) ∈ (pinnedResources link).ports) ∨
      (needsPort nodeID link = true ∧ (freePorts (reservePins reserved links).ports nodeID)[
        linkRank (needsPort nodeID) links link]?.map (fun candidate : Nat => (candidate : Int)) = some port) := by
  cases pinned : pinnedPorts link with
  | some pins =>
    simp only [expectedPorts, pinned, Option.some.injEq] at slot
    subst slot
    refine .inl ⟨rfl, ?_⟩
    simp only [pinnedResources, pinned]
    exact entry
  | none =>
    refine .inr ?_
    simp only [expectedPorts, pinned] at slot
    split at slot
    case h_2 => cases slot
    case h_1 fromPort toPort isFrom isTo =>
      cases slot
      have free : ∀ {node : Node} {value : Int}, portSlot (reservePins reserved links) (earlierLinks links link) node =
          some value → value ≠ 0 → node.isClient = false ∧ (freePorts (reservePins reserved links).ports node.id)[
            linkRank (needsPort node.id) links link]?.map (fun candidate : Nat => (candidate : Int)) = some value := by
        intro node value isSlot nonzero
        rw [portSlot, portAt] at isSlot
        split at isSlot
        case isTrue => exact absurd (Option.some.inj isSlot).symm nonzero
        case isFalse notClient => exact ⟨by simpa using notClient, isSlot⟩
      rw [portEntries, mem_append] at entry
      rcases entry with atFrom | atTo
      · split at atFrom
        case isTrue => cases atFrom
        case isFalse nonzero =>
          obtain ⟨rfl, rfl⟩ := Prod.mk.inj (mem_singleton.mp atFrom)
          obtain ⟨notClient, found⟩ := free isFrom nonzero
          exact ⟨by simp [needsPort, pinned, notClient], found⟩
      · split at atTo
        case isTrue => cases atTo
        case isFalse nonzero =>
          obtain ⟨rfl, rfl⟩ := Prod.mk.inj (mem_singleton.mp atTo)
          obtain ⟨notClient, found⟩ := free isTo nonzero
          exact ⟨by simp [needsPort, pinned, notClient], found⟩

theorem reserved_port (member : link ∈ links) (pinned : (nodeID, port) ∈ (pinnedResources link).ports) :
    (nodeID, port) ∈ (reservePins reserved links).ports := by
  rw [reservePins_eq]
  exact mem_append_right _ (mem_flatMap.mpr ⟨link, member, pinned⟩)

theorem freePorts_not_reserved {number : Nat}
    (found : (freePorts (reservePins reserved links).ports nodeID)[number]?.map (fun candidate : Nat => (candidate : Int)) =
      some port) : (nodeID, port) ∉ (reservePins reserved links).ports := by
  obtain ⟨candidate, isFree, rfl⟩ := Option.map_eq_some_iff.mp found
  simpa using (mem_filter.mp (mem_of_getElem? isFree)).2

theorem linkPorts_separate (distinct : (links.map LinkEntity.linkKey).Nodup) (member : link ∈ links)
    (member' : other ∈ links) (different : link ≠ other)
    (pinsApart : ∀ entry ∈ (pinnedResources link).ports, entry ∉ (pinnedResources other).ports)
    (slot : expectedPorts (reservePins reserved links) (earlierLinks links link) link = some ports)
    (slot' : expectedPorts (reservePins reserved links) (earlierLinks links other) other = some ports')
    (entry : (nodeID, port) ∈ portEntries link ports) : (nodeID, port) ∉ portEntries other ports' := by
  intro entry'
  rcases portEntries_origin slot entry with ⟨-, pinned⟩ | ⟨asking, found⟩ <;>
    rcases portEntries_origin slot' entry' with ⟨-, pinned'⟩ | ⟨asking', found'⟩
  · exact pinsApart _ pinned pinned'
  · exact freePorts_not_reserved found' (reserved_port member pinned)
  · exact freePorts_not_reserved found (reserved_port member' pinned')
  · obtain ⟨candidate, isFree, rfl⟩ := Option.map_eq_some_iff.mp found
    obtain ⟨candidate', isFree', same⟩ := Option.map_eq_some_iff.mp found'
    obtain rfl : candidate' = candidate := by exact_mod_cast same
    have nodup : (freePorts (reservePins reserved links).ports nodeID).Nodup := List.Nodup.filter _ nodup_range'
    obtain ⟨bound, -⟩ := List.getElem?_eq_some_iff.mp isFree
    have ranks := (getElem?_inj bound nodup).mp (isFree.trans isFree'.symm)
    exact different (linkRank_inj distinct member member' asking asking' ranks)

end

def LinkEntity.bare (link : LinkEntity) : LinkEntity :=
  { link with fromNode := link.fromNode.design, toNode := link.toNode.design }

theorem groupLinks_bare (topo : Topology) : groupLinks topo.bare = (groupLinks topo).map LinkEntity.bare := by
  rw [groupLinks, Topology.bare_firstEdges, groupLinks, map_map, map_map]
  rfl

section

variable (links : List LinkEntity) (link : LinkEntity)

theorem reservePins_bare (reserved : Resources) :
    reservePins reserved (links.map LinkEntity.bare) = reservePins reserved links := by
  rw [reservePins_eq, reservePins_eq, flatMap_map, flatMap_map, flatMap_map]
  rfl

theorem earlierLinks_bare :
    earlierLinks (links.map LinkEntity.bare) link.bare = (earlierLinks links link).map LinkEntity.bare := by
  rw [earlierLinks, filter_map]
  rfl

private theorem linkRank_bare {asks : LinkEntity → Bool} (keeps : ∀ link, asks link.bare = asks link) :
    linkRank asks (links.map LinkEntity.bare) link.bare = linkRank asks links link := by
  rw [linkRank, earlierLinks_bare, countP_map, linkRank]
  congr 1
  funext other
  exact keeps other

theorem linkTransit_bare : linkTransit (links.map LinkEntity.bare) link.bare = linkTransit links link := by
  cases pinned : pinnedTransit link with
  | some pair =>
    have pinned' : pinnedTransit link.bare = some pair := pinned
    rw [linkTransit_pinned pinned, linkTransit_pinned pinned']
  | none =>
    have unpinned : pinnedTransit link.bare = none := pinned
    rw [linkTransit, linkTransit, expectedTransit_slot _ pinned, expectedTransit_slot _ unpinned, reservePins_bare,
      linkRank_bare]
    · rfl
    · exact fun _ => rfl

theorem handedTransit_bare (cidr : String) :
    handedTransit (links.map LinkEntity.bare) cidr = handedTransit links cidr := by
  rw [handedTransit, reservePins_bare, countP_map]
  rfl

theorem handedLinkLocals_bare : handedLinkLocals (links.map LinkEntity.bare) = handedLinkLocals links := by
  rw [handedLinkLocals, reservePins_bare, countP_map, length_map]
  rfl

end

theorem windowsApart_bare {κ : Type} {apart : String → String → Prop} {view view' : PoolView κ}
    {links : List LinkEntity} (windows : view'.window = view.window)
    (pins : ∀ link, view'.pinned (LinkEntity.bare link) = view.pinned link) :
    WindowsApart apart view' (links.map LinkEntity.bare) ↔ WindowsApart apart view links := by
  constructor
  · intro separate
    refine ⟨fun key pair handed link member pinned isPinned => ?_, fun key key' different => ?_⟩
    · rw [← windows] at handed
      rw [← pins] at isPinned
      exact separate.pins key pair handed link.bare (mem_map_of_mem member) pinned isPinned
    · rw [← windows]
      exact separate.pools key key' different
  · intro separate
    refine ⟨fun key pair handed link member pinned isPinned => ?_, fun key key' different => ?_⟩
    · obtain ⟨link, isLink, rfl⟩ := mem_map.mp member
      rw [windows] at handed
      rw [pins] at isPinned
      exact separate.pins key pair handed link isLink pinned isPinned
    · rw [windows]
      exact separate.pools key key' different

end Yaog.Compiler
