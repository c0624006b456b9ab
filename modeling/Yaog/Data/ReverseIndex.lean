import Mathlib.Logic.Function.Basic

/-!
# Reverse indexes

Each owner has at most one current value, and an index finds the owner of a value.
-/

namespace Yaog.Data

variable {Owner Value : Type}

def Indexes (current : Owner → Option Value) (index : Value → Option Owner) : Prop :=
  ∀ owner value, index value = some owner ↔ current owner = some value

namespace Indexes

variable {current current' : Owner → Option Value} {index index' : Value → Option Owner}

variable [DecidableEq Owner] [DecidableEq Value] {owner : Owner}

theorem release (indexes : Indexes current index)
    (lost : ∀ other, current' other = if owner = other then none else current other)
    (left : ∀ other, index' other = if current owner = some other then none else index other) :
    Indexes current' index' := by
  intro other found
  rw [lost, left]
  by_cases own : owner = other
  · subst own
    rw [if_pos rfl]
    constructor
    · intro listed
      split at listed
      · cases listed
      · next unlisted => exact absurd ((indexes owner found).mp listed) unlisted
    · intro impossible
      cases impossible
  · rw [if_neg own, ← indexes other found]
    split
    · next had =>
      have listed := (indexes owner found).mpr had
      rw [listed]
      simp [own]
    · exact Iff.rfl

theorem assign (indexes : Indexes current index) {value : Value}
    (unheld : ∀ other, current other = some value → other = owner)
    (took : ∀ other, current' other = if owner = other then some value else current other)
    (entered : ∀ other, index' other =
      if value = other then some owner else if current owner = some other then none else index other) :
    Indexes current' index' := by
  have released : Indexes (fun other => if owner = other then none else current other)
      fun other => if current owner = some other then none else index other :=
    indexes.release (fun _ => rfl) fun _ => rfl
  intro other found
  specialize released other found
  rw [took, entered]
  by_cases own : owner = other <;> by_cases same : value = found
  · simp [own, same]
  · simpa [own, same] using released
  · subst same
    rw [if_pos rfl, if_neg own]
    constructor
    · exact fun equal => absurd (Option.some.inj equal) own
    · exact fun held => absurd (unheld other held).symm own
  · simpa [own, same] using released

end Indexes

end Yaog.Data
