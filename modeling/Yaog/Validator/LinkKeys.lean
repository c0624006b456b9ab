import Yaog.Validator.Accepted

/-!
# Link keys identify links

A link key joins two node identifiers with `|` and, for a backup, adds the edge identifier after `#`.
-/

namespace Yaog

open Validator List

def Edge.samePair (first second : Edge) : Prop :=
  (first.fromNodeID = second.fromNodeID ∧ first.toNodeID = second.toNodeID) ∨
    (first.fromNodeID = second.toNodeID ∧ first.toNodeID = second.fromNodeID)

instance (first second : Edge) : Decidable (first.samePair second) := inferInstanceAs (Decidable (_ ∨ _))

theorem append_cons_inj {α : Type} {c : α} {first second rest rest' : List α} (absent : c ∉ first)
    (absent' : c ∉ second) (same : first ++ c :: rest = second ++ c :: rest') : first = second ∧ rest = rest' := by
  induction first generalizing second with
  | nil =>
    cases second with
    | nil => exact ⟨rfl, tail_eq_of_cons_eq same⟩
    | cons head tail =>
      obtain ⟨rfl, -⟩ := List.cons.inj same
      exact absurd mem_cons_self absent'
  | cons head tail ih =>
    cases second with
    | nil =>
      obtain ⟨rfl, -⟩ := List.cons.inj same
      exact absurd mem_cons_self absent
    | cons head' tail' =>
      obtain ⟨rfl, tails⟩ := List.cons.inj same
      obtain ⟨rfl, rests⟩ := ih (fun member => absent (mem_cons_of_mem _ member))
        (fun member => absent' (mem_cons_of_mem _ member)) tails
      exact ⟨rfl, rests⟩

private theorem separator_inj {a b a' b' : String} (separator : String) {c : Char} (single : separator.toList = [c])
    (absent : c ∉ a.toList) (absent' : c ∉ a'.toList) (same : a ++ separator ++ b = a' ++ separator ++ b') :
    a = a' ∧ b = b' := by
  have chars := congrArg String.toList same
  simp only [String.toList_append, single, append_assoc, singleton_append] at chars
  obtain ⟨firsts, seconds⟩ := append_cons_inj absent absent' chars
  exact ⟨String.toList_inj.mp firsts, String.toList_inj.mp seconds⟩

theorem pinKey_comm (a b : String) : pinKey a b = pinKey b a := by
  rw [pinKey, pinKey]
  by_cases first : Data.textLE a b = true <;> by_cases second : Data.textLE b a = true
  · rw [Data.textLE_antisymm first second]
  · rw [if_pos first, if_neg second]
  · rw [if_neg first, if_pos second]
  · exact absurd (Data.textLE_total a b) (by simp [first, second])

theorem pinKey_inj {a b c d : String} (ha : '|' ∉ a.toList) (hb : '|' ∉ b.toList) (hc : '|' ∉ c.toList)
    (hd : '|' ∉ d.toList) (same : pinKey a b = pinKey c d) : (a = c ∧ b = d) ∨ (a = d ∧ b = c) := by
  rw [pinKey, pinKey] at same
  split at same <;> split at same
  · exact .inl (separator_inj "|" rfl ha hc same)
  · exact .inr (separator_inj "|" rfl ha hd same)
  · obtain ⟨first, second⟩ := separator_inj "|" rfl hb hc same
    exact .inr ⟨second, first⟩
  · obtain ⟨first, second⟩ := separator_inj "|" rfl hb hd same
    exact .inl ⟨second, first⟩

private theorem mem_pinKey {c : Char} {a b : String} (member : c ∈ (pinKey a b).toList) :
    c ∈ a.toList ∨ c = '|' ∨ c ∈ b.toList := by
  rw [pinKey] at member
  split at member <;>
    · simp only [String.toList_append, mem_append] at member
      have bar : c ∈ "|".toList → c = '|' := fun isBar => mem_singleton.mp isBar
      tauto

theorem Edge.linkKey_eq {first second : Edge} (same : first.samePair second)
    (primary : first.isBackup = false) (primary' : second.isBackup = false) : first.linkKey = second.linkKey := by
  rw [Edge.linkKey, Edge.linkKey, primary, primary', if_neg Bool.false_ne_true, if_neg Bool.false_ne_true]
  rcases same with ⟨froms, tos⟩ | ⟨froms, tos⟩
  · rw [froms, tos]
  · rw [froms, tos, pinKey_comm]

/-- Both ends are named with the characters of node identifiers. -/
def Edge.IDChars (edge : Edge) : Prop :=
  (∀ c ∈ edge.fromNodeID.toList, isIDChar c = true) ∧ ∀ c ∈ edge.toNodeID.toList, isIDChar c = true

section

variable {first second : Edge}

theorem Edge.IDChars.absent (named : first.IDChars) {c : Char} (illegal : isIDChar c = false) :
    c ∉ first.fromNodeID.toList ∧ c ∉ first.toNodeID.toList :=
  ⟨fun inside => by simp [named.1 c inside] at illegal, fun inside => by simp [named.2 c inside] at illegal⟩

theorem Edge.IDChars.noHash (named : first.IDChars) : '#' ∉ (pinKey first.fromNodeID first.toNodeID).toList := by
  intro inside
  obtain ⟨inFrom, inTo⟩ := named.absent (c := '#') (by decide)
  rcases mem_pinKey inside with left | bar | right
  · exact inFrom left
  · exact absurd bar (by decide)
  · exact inTo right

theorem Edge.IDChars.samePair (named : first.IDChars) (named' : second.IDChars)
    (keys : pinKey first.fromNodeID first.toNodeID = pinKey second.fromNodeID second.toNodeID) :
    first.samePair second := by
  obtain ⟨a, b⟩ := named.absent (c := '|') (by decide)
  obtain ⟨c, d⟩ := named'.absent (c := '|') (by decide)
  exact pinKey_inj a b c d keys

theorem Edge.linkKey_inj (named : first.IDChars) (named' : second.IDChars) (same : first.linkKey = second.linkKey) :
    first.samePair second ∧ first.isBackup = second.isBackup ∧ (first.isBackup = true → first.id = second.id) := by
  have hasHash : ∀ {key id : String}, '#' ∈ (key ++ "#" ++ id).toList := by
    intro key id
    simp [String.toList_append]
  cases backup : first.isBackup <;> cases backup' : second.isBackup <;>
    simp only [Edge.linkKey, backup, backup', Bool.false_eq_true, if_false, if_true] at same
  · exact ⟨named.samePair named' same, rfl, fun absurdity => by cases absurdity⟩
  · exact absurd (same ▸ hasHash) named.noHash
  · exact absurd (same ▸ hasHash) named'.noHash
  · obtain ⟨keys, ids⟩ := separator_inj "#" rfl named.noHash named'.noHash same
    exact ⟨named.samePair named' keys, rfl, fun _ => ids⟩

theorem idChars_of_valid (valid : validPortableNodeID first.fromNodeID = true)
    (valid' : validPortableNodeID first.toNodeID = true) : first.IDChars := by
  simp only [validPortableNodeID, Bool.and_eq_true, all_eq_true] at valid valid'
  exact ⟨valid.1.1.1.2, valid'.1.1.1.2⟩

end

theorem linkKey_eq_iff (first second : Edge) (firstFrom : validPortableNodeID first.fromNodeID = true)
    (firstTo : validPortableNodeID first.toNodeID = true) (secondFrom : validPortableNodeID second.fromNodeID = true)
    (secondTo : validPortableNodeID second.toNodeID = true) (distinct : first.id = second.id → first = second) :
    first.linkKey = second.linkKey ↔ first.samePair second ∧
      ((first.isBackup = false ∧ second.isBackup = false) ∨ (first.isBackup = true ∧ first = second)) := by
  constructor
  · intro same
    obtain ⟨pair, roles, ids⟩ := Edge.linkKey_inj (idChars_of_valid firstFrom firstTo)
      (idChars_of_valid secondFrom secondTo) same
    cases backup : first.isBackup with
    | false => exact ⟨pair, .inl ⟨rfl, roles ▸ backup⟩⟩
    | true => exact ⟨pair, .inr ⟨rfl, distinct (ids backup)⟩⟩
  · rintro ⟨pair, ⟨primary, primary'⟩ | ⟨-, rfl⟩⟩
    · exact Edge.linkKey_eq pair primary primary'
    · rfl

def sampleParallel (id : String) (role : EdgeRole) : Edge where
  id
  fromNodeID := "a.b"
  toNodeID := "a-b"
  type := .direct
  role

theorem sampleBackups_apart : (sampleParallel "1" .backup).linkKey ≠ (sampleParallel "2" .backup).linkKey := by
  intro same
  have both := (linkKey_eq_iff _ _ (by decide) (by decide) (by decide) (by decide) (by decide)).mp same
  exact absurd both (by decide)

namespace Validator

variable {env : Externals} {topo : Topology}

theorem Accepted.edge_id_chars (accepted : Accepted env topo) {edge : Edge} (member : edge ∈ topo.edges) :
    edge.IDChars := by
  obtain ⟨⟨fromNode, isFrom⟩, toNode, isTo⟩ := accepted.node?_isSome member
  obtain ⟨inFrom, fromID⟩ := Topology.node?_mem isFrom
  obtain ⟨inTo, toID⟩ := Topology.node?_mem isTo
  rw [Edge.IDChars, ← fromID, ← toID]
  exact ⟨accepted.node_id_chars inFrom, accepted.node_id_chars inTo⟩

theorem Accepted.linkKey_inj (accepted : Accepted env topo) {first second : Edge} (isFirst : first ∈ topo.edges)
    (isSecond : second ∈ topo.edges) (same : first.linkKey = second.linkKey) :
    first.samePair second ∧ first.isBackup = second.isBackup ∧ (first.isBackup = true → first.id = second.id) :=
  Edge.linkKey_inj (accepted.edge_id_chars isFirst) (accepted.edge_id_chars isSecond) same

end Validator

end Yaog
