import Mathlib.Data.List.Basic
import Mathlib.Data.List.Nodup
import Mathlib.Data.List.Sort
import Mathlib.Tactic

/-!
# Choosing in turn

Agents choose one after the other, each the least of its options that nobody has taken.
-/

namespace Yaog.Data

open List

variable {α β : Type} [LinearOrder β]

def serialChoice (options : α → List β) : List β → List α → Option (List (α × β))
  | _, [] => some []
  | taken, agent :: rest =>
    match (options agent).find? (· ∉ taken) with
    | none => none
    | some item => (serialChoice options (item :: taken) rest).map ((agent, item) :: ·)

/-- Options for all agents, no two of them the same. -/
structure Choice (options : α → List β) (agents : List α) (choice : α → β) : Prop where
  allowed : ∀ agent ∈ agents, choice agent ∈ options agent
  distinct : ∀ agent ∈ agents, ∀ other ∈ agents, choice agent = choice other → agent = other

def HasLeastChoice (options : α → List β) (agents : List α) : Prop :=
  ∃ least, Choice options agents least ∧
    ∀ choice, Choice options agents choice → ∀ agent ∈ agents, least agent ≤ choice agent

variable {options : α → List β} {taken : List β} {agents : List α} {picked : List (α × β)} {choice : α → β}

theorem serialChoice_cons {agent : α} {rest : List α} :
    serialChoice options taken (agent :: rest) = some picked ↔
      ∃ item later, (options agent).find? (· ∉ taken) = some item ∧
        serialChoice options (item :: taken) rest = some later ∧ picked = (agent, item) :: later := by
  rw [serialChoice]
  cases (options agent).find? (· ∉ taken) with
  | none => simp
  | some item => simp [eq_comm]

theorem serialChoice_agents (run : serialChoice options taken agents = some picked) : picked.map (·.1) = agents := by
  induction agents generalizing taken picked with
  | nil =>
    cases run
    rfl
  | cons agent rest ih =>
    obtain ⟨item, later, -, done, rfl⟩ := serialChoice_cons.mp run
    rw [map_cons, ih done]

theorem serialChoice_items (run : serialChoice options taken agents = some picked) :
    (picked.map (·.2)).Nodup ∧ ∀ entry ∈ picked, entry.2 ∈ options entry.1 ∧ entry.2 ∉ taken := by
  induction agents generalizing taken picked with
  | nil =>
    cases run
    simp
  | cons agent rest ih =>
    obtain ⟨item, later, found, done, rfl⟩ := serialChoice_cons.mp run
    obtain ⟨distinct, fresh⟩ := ih done
    have free : item ∉ taken := by simpa using find?_some found
    refine ⟨nodup_cons.mpr ⟨?_, distinct⟩, ?_⟩
    · intro repeated
      obtain ⟨entry, member, same⟩ := mem_map.mp repeated
      exact (fresh entry member).2 (same ▸ mem_cons_self)
    · intro entry member
      rcases mem_cons.mp member with rfl | inLater
      · exact ⟨mem_of_find?_eq_some found, free⟩
      · obtain ⟨allowed, unused⟩ := fresh entry inLater
        exact ⟨allowed, fun inTaken => unused (mem_cons_of_mem _ inTaken)⟩

theorem find?_le {items : List β} {test : β → Bool} {first item : β} (sorted : items.Pairwise (· < ·))
    (found : items.find? test = some first) (member : item ∈ items) (passes : test item = true) : first ≤ item := by
  obtain ⟨-, before, after, rfl, rejected⟩ := find?_eq_some_iff_append.mp found
  rw [pairwise_append, pairwise_cons] at sorted
  rcases mem_append.mp member with early | late
  · have fails := rejected item early
    rw [passes] at fails
    cases fails
  · rcases mem_cons.mp late with rfl | later
    · exact le_refl _
    · exact (sorted.2.1.1 item later).le

section

variable (sorted : ∀ agent, (options agent).Pairwise (· < ·))

include sorted

/-- Agents who cannot do better than `least` pick it. -/
theorem serialChoice_eq_least {least : α → β} (distinctAgents : agents.Nodup) (choice : Choice options agents least)
    (fresh : ∀ agent ∈ agents, least agent ∉ taken) (run : serialChoice options taken agents = some picked)
    (bounded : ∀ entry ∈ picked, least entry.1 ≤ entry.2) : ∀ entry ∈ picked, entry.2 = least entry.1 := by
  induction agents generalizing taken picked with
  | nil =>
    cases run
    simp
  | cons agent rest ih =>
    obtain ⟨item, later, found, done, rfl⟩ := serialChoice_cons.mp run
    obtain ⟨notLater, distinctRest⟩ := nodup_cons.mp distinctAgents
    have isLeast : item = least agent := by
      have atMost : item ≤ least agent := find?_le (sorted agent) found (choice.allowed agent mem_cons_self)
        (by simpa using fresh agent mem_cons_self)
      exact le_antisymm atMost (bounded (agent, item) mem_cons_self)
    have restFresh : ∀ other ∈ rest, least other ∉ item :: taken := by
      intro other member inTaken
      rcases mem_cons.mp inTaken with same | inTaken
      · have again := choice.distinct other (mem_cons_of_mem _ member) agent mem_cons_self (same.trans isLeast)
        exact notLater (again ▸ member)
      · exact fresh other (mem_cons_of_mem _ member) inTaken
    have restChoice : Choice options rest least :=
      ⟨fun other member => choice.allowed other (mem_cons_of_mem _ member), fun other member other' member' =>
          choice.distinct other (mem_cons_of_mem _ member) other' (mem_cons_of_mem _ member')⟩
    intro entry member
    rcases mem_cons.mp member with rfl | inLater
    · exact isLeast
    · exact ih distinctRest restChoice restFresh done
        (fun entry inLater => bounded entry (mem_cons_of_mem _ inLater)) entry inLater

theorem serialChoice_le {choice : α → β} (allowed : ∀ agent ∈ agents, choice agent ∈ options agent)
    (ascending : agents.Pairwise fun agent other => choice agent < choice other)
    (below : ∀ item ∈ taken, ∀ agent ∈ agents, item < choice agent) :
    ∃ picked, serialChoice options taken agents = some picked ∧ ∀ entry ∈ picked, entry.2 ≤ choice entry.1 := by
  induction agents generalizing taken with
  | nil => exact ⟨[], rfl, by simp⟩
  | cons agent rest ih =>
    obtain ⟨less, ascendingRest⟩ := pairwise_cons.mp ascending
    have free : choice agent ∉ taken := fun inTaken =>
      lt_irrefl _ (below _ inTaken agent mem_cons_self)
    have isAllowed := allowed agent mem_cons_self
    cases found : (options agent).find? (· ∉ taken) with
    | none =>
      have absent := find?_eq_none.mp found _ isAllowed
      simp [free] at absent
    | some item =>
      have atMost : item ≤ choice agent := find?_le (sorted agent) found isAllowed (by simpa using free)
      have belowRest : ∀ other ∈ item :: taken, ∀ agent' ∈ rest, other < choice agent' := by
        intro other inTaken agent' member
        rcases mem_cons.mp inTaken with rfl | inTaken
        · exact lt_of_le_of_lt atMost (less agent' member)
        · exact below other inTaken agent' (mem_cons_of_mem _ member)
      obtain ⟨later, done, atMostLater⟩ := ih (fun other member => allowed other (mem_cons_of_mem _ member))
        ascendingRest belowRest
      refine ⟨(agent, item) :: later, serialChoice_cons.mpr ⟨item, later, found, done, rfl⟩, ?_⟩
      intro entry member
      rcases mem_cons.mp member with rfl | inLater
      · exact atMost
      · exact atMostLater entry inLater

end

omit [LinearOrder β] in
theorem Choice.perm {agents' : List α} (same : agents'.Perm agents)
    (valid : Choice options agents choice) : Choice options agents' choice :=
  ⟨fun agent member => valid.allowed agent (same.mem_iff.mp member),
    fun agent member other member' => valid.distinct agent (same.mem_iff.mp member) other (same.mem_iff.mp member')⟩

theorem exists_order_le (sorted : ∀ agent, (options agent).Pairwise (· < ·)) (distinctAgents : agents.Nodup)
    (valid : Choice options agents choice) :
    ∃ agents' picked, agents'.Perm agents ∧ serialChoice options [] agents' = some picked ∧
      ∀ entry ∈ picked, entry.2 ≤ choice entry.1 := by
  let before := fun agent other : α => choice agent ≤ choice other
  have permuted := perm_insertionSort before agents
  have ascending : (agents.insertionSort before).Pairwise fun agent other => choice agent < choice other := by
    refine ((pairwise_insertionSort before agents).and (permuted.nodup_iff.mpr distinctAgents)).imp_of_mem ?_
    rintro agent other member member' ⟨atMost, different⟩
    refine lt_of_le_of_ne atMost fun same => different ?_
    exact valid.distinct agent (permuted.mem_iff.mp member) other (permuted.mem_iff.mp member') same
  obtain ⟨picked, run, atMost⟩ : ∃ picked, serialChoice options [] (agents.insertionSort before) = some picked ∧
      ∀ entry ∈ picked, entry.2 ≤ choice entry.1 :=
    serialChoice_le sorted (valid.perm permuted).allowed ascending (by simp)
  exact ⟨_, picked, permuted, run, atMost⟩

variable [Inhabited β]

theorem exists_choice (distinctAgents : agents.Nodup) (run : serialChoice options taken agents = some picked) :
    ∃ choice, Choice options agents choice ∧ ∀ entry ∈ picked, choice entry.1 = entry.2 := by
  classical
  obtain ⟨distinctItems, fresh⟩ := serialChoice_items run
  have isAgents := serialChoice_agents run
  have distinctKeys : (picked.map (·.1)).Nodup := isAgents ▸ distinctAgents
  let choice : α → β := fun agent => if picks : ∃ item, (agent, item) ∈ picked then picks.choose else default
  have spec : ∀ entry ∈ picked, choice entry.1 = entry.2 := by
    intro entry member
    have picks : ∃ item, (entry.1, item) ∈ picked := ⟨entry.2, member⟩
    have same := inj_on_of_nodup_map distinctKeys picks.choose_spec member rfl
    rw [show choice entry.1 = picks.choose from dif_pos picks]
    exact congrArg Prod.snd same
  have entries : ∀ agent ∈ agents, ∃ entry ∈ picked, entry.1 = agent := by
    intro agent member
    rw [← isAgents] at member
    exact mem_map.mp member
  refine ⟨choice, ⟨fun agent member => ?_, fun agent member other member' same => ?_⟩, spec⟩
  · obtain ⟨entry, inPicked, rfl⟩ := entries agent member
    rw [spec entry inPicked]
    exact (fresh entry inPicked).1
  · obtain ⟨entry, inPicked, rfl⟩ := entries agent member
    obtain ⟨entry', inPicked', rfl⟩ := entries other member'
    rw [spec entry inPicked, spec entry' inPicked'] at same
    rw [inj_on_of_nodup_map distinctItems inPicked inPicked' same]

theorem serialChoice_orderFree_iff (sorted : ∀ agent, (options agent).Pairwise (· < ·))
    (distinctAgents : agents.Nodup) (run : serialChoice options [] agents = some picked) :
    (∀ agents', agents'.Perm agents → ∀ picked', serialChoice options [] agents' = some picked' →
        ∀ entry ∈ picked, ∀ entry' ∈ picked', entry'.1 = entry.1 → entry'.2 = entry.2) ↔
      HasLeastChoice options agents := by
  constructor
  · intro orderFree
    obtain ⟨least, valid, spec⟩ := exists_choice distinctAgents run
    refine ⟨least, valid, fun choice isChoice agent member => ?_⟩
    obtain ⟨agents', picked', permuted, run', atMost⟩ := exists_order_le sorted distinctAgents isChoice
    have picks : ∀ {list : List (α × β)} {agents : List α}, list.map (·.1) = agents → agent ∈ agents →
        ∃ entry ∈ list, entry.1 = agent := by
      rintro list agents rfl member
      exact mem_map.mp member
    obtain ⟨entry, inPicked, rfl⟩ := picks (serialChoice_agents run) member
    obtain ⟨entry', inPicked', isAgent⟩ := picks (serialChoice_agents run') (permuted.mem_iff.mpr member)
    have same := orderFree agents' permuted picked' run' entry inPicked entry' inPicked' isAgent
    rw [spec entry inPicked, ← same, ← isAgent]
    exact atMost entry' inPicked'
  · rintro ⟨least, valid, isLeast⟩ agents' permuted picked' run' entry inPicked entry' inPicked' isAgent
    have picksLeast : ∀ {agents' : List α} {picked : List (α × β)}, agents'.Perm agents →
        serialChoice options [] agents' = some picked → ∀ entry ∈ picked, entry.2 = least entry.1 := by
      intro agents' picked permuted run
      have distinctAgents' := permuted.nodup_iff.mpr distinctAgents
      obtain ⟨choice, isChoice, spec⟩ := exists_choice distinctAgents' run
      refine serialChoice_eq_least sorted distinctAgents' (valid.perm permuted) (by simp) run fun entry member => ?_
      rw [← spec entry member]
      refine isLeast choice (isChoice.perm permuted.symm) entry.1 (permuted.mem_iff.mp ?_)
      rw [← serialChoice_agents run]
      exact mem_map_of_mem member
    rw [picksLeast (List.Perm.refl _) run entry inPicked, picksLeast permuted run' entry' inPicked', isAgent]

end Yaog.Data
