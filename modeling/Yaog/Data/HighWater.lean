import Mathlib.Data.List.Sort

/-!
# Delivery above a mark

A receiver that remembers only the highest number it was offered, and hands on what is above it.
-/

namespace Yaog.Data

open List

structure HighWater where
  mark : Option Nat := none
  handed : List Nat := []

namespace HighWater

def covers (receiver : HighWater) (number : Nat) : Bool := receiver.mark.any (number ≤ ·)

def offer (receiver : HighWater) (number : Nat) : HighWater :=
  if receiver.covers number then receiver else { mark := some number, handed := receiver.handed ++ [number] }

/-- The mark is the last number of an ascending list. -/
structure Sound (receiver : HighWater) : Prop where
  ascending : receiver.handed.Pairwise (· < ·)
  mark : receiver.mark = receiver.handed.getLast?

variable {receiver : HighWater} {number other : Nat}

theorem covers_iff : receiver.covers number = true ↔ ∃ mark, receiver.mark = some mark ∧ number ≤ mark := by
  unfold covers
  cases receiver.mark <;> simp

theorem Sound.start : Sound {} := ⟨.nil, rfl⟩

theorem Sound.nodup (sound : receiver.Sound) : receiver.handed.Nodup := sound.ascending.imp Nat.ne_of_lt

theorem le_getLast_of_ascending {numbers : List Nat} {last : Nat} (ascending : numbers.Pairwise (· < ·))
    (ends : numbers.getLast? = some last) (member : number ∈ numbers) : number ≤ last := by
  obtain ⟨init, rfl⟩ := getLast?_eq_some_iff.mp ends
  rcases mem_append.mp member with earlier | same
  · exact ((pairwise_append.mp ascending).2.2 number earlier last (mem_singleton_self last)).le
  · exact (mem_singleton.mp same).le

theorem Sound.covers_handed (sound : receiver.Sound) (member : number ∈ receiver.handed) :
    receiver.covers number = true := by
  cases ends : receiver.handed.getLast? with
  | none =>
    rw [getLast?_eq_none_iff] at ends
    rw [ends] at member
    exact absurd member not_mem_nil
  | some last =>
    exact covers_iff.mpr ⟨last, sound.mark.trans ends, le_getLast_of_ascending sound.ascending ends member⟩

theorem Sound.offer (sound : receiver.Sound) (number : Nat) : (receiver.offer number).Sound := by
  unfold HighWater.offer
  split
  · exact sound
  · next above =>
    refine ⟨pairwise_append.mpr ⟨sound.ascending, pairwise_singleton _ _, ?_⟩, getLast?_concat.symm⟩
    intro earlier member last same
    rw [mem_singleton.mp same]
    by_contra below
    apply above
    obtain ⟨mark, held, bound⟩ := covers_iff.mp (sound.covers_handed member)
    exact covers_iff.mpr ⟨mark, held, (Nat.le_of_not_lt below).trans bound⟩

theorem mem_offer (member : other ∈ (receiver.offer number).handed) : other = number ∨ other ∈ receiver.handed := by
  unfold offer at member
  split at member
  · exact .inr member
  · rcases mem_append.mp member with earlier | same
    · exact .inr earlier
    · exact .inl (mem_singleton.mp same)

theorem mem_offer_of_mem (member : other ∈ receiver.handed) : other ∈ (receiver.offer number).handed := by
  unfold offer
  split
  · exact member
  · exact mem_append_left _ member

theorem Sound.exists_handed (sound : receiver.Sound) (number : Nat) :
    ∃ handed ∈ (receiver.offer number).handed, number ≤ handed := by
  unfold HighWater.offer
  split
  · next known =>
    obtain ⟨mark, held, bound⟩ := covers_iff.mp known
    rw [sound.mark] at held
    exact ⟨mark, mem_of_getLast? held, bound⟩
  · exact ⟨number, mem_append_right _ (mem_singleton_self number), le_refl _⟩

end HighWater

end Yaog.Data
