import Yaog.Compiler.GapFill

/-!
# The arithmetic of a transit pool

The number of pairs and the pair of an index are computed apart, the second one in 32 bits.
-/

namespace Yaog.Compiler

open Allocator Net List Option

/-- A prefix between `/8` and `/30`. -/
structure TransitPool (cidr : String) where
  net : IPNet
  network : IPv4
  parsed : transitNet cidr = some net
  isNetwork : net.ip.to4 = some network
  wide : 8 ≤ net.ones
  narrow : net.ones ≤ 30

namespace TransitPool

variable {cidr : String} (pool : TransitPool cidr) {index : Nat}

def size : Nat := 2 ^ (32 - pool.net.ones)

def pairs : Nat := 2 ^ (31 - pool.net.ones) - 1

/-- The pair of the hosts `2 * index + 1` and `2 * index + 2`. -/
def pair (index : Nat) : String × String :=
  (hostText pool.network (2 * index + 1), hostText pool.network (2 * index + 2))

theorem hostBits : pool.net.hostBits = 32 - pool.net.ones := by
  have narrow := pool.narrow
  exact hostBits_of_parseCIDR pool.parsed pool.isNetwork (by omega)

theorem size_eq : pool.size = 2 * pool.pairs + 2 := by
  have narrow := pool.narrow
  have twice : 2 ^ (32 - pool.net.ones) = 2 * 2 ^ (31 - pool.net.ones) := by
    rw [← Nat.pow_succ']
    congr 1
    omega
  have positive := Nat.two_pow_pos (31 - pool.net.ones)
  rw [size, pairs, twice]
  omega

theorem pairs_lt : pool.pairs < 2 ^ 31 := by
  have most : 2 ^ (31 - pool.net.ones) ≤ 2 ^ 31 := Nat.pow_le_pow_right (by decide) (by omega)
  rw [pairs]
  omega

theorem count : transitPoolPairCount cidr = .ok pool.pairs := by
  have narrow := pool.narrow
  have even := pool.size_eq
  rw [size] at even
  have room : ¬ 32 - pool.net.ones < 2 := by omega
  simp only [transitPoolPairCount, pool.parsed, pool.isNetwork, reduceCtorEq, if_false, room, even]
  congr 1
  omega

theorem host_toNat {host : Nat} (inside : host < pool.size) :
    (pool.network + BitVec.ofNat 32 host).toNat = pool.network.toNat + host := by
  have bits := pool.hostBits
  exact (IPNet.host_toNat pool.isNetwork (by omega) (by rwa [bits])).1

theorem network_add_size_le : pool.network.toNat + pool.size ≤ 2 ^ 32 := by
  have even := pool.size_eq
  have last := pool.host_toNat (show pool.size - 1 < pool.size by omega)
  omega

theorem broadcast_toNat :
    (pool.network ||| BitVec.ofNat 32 (2 ^ (32 - pool.net.ones) - 1)).toNat = pool.network.toNat + (pool.size - 1) := by
  have bits := pool.hostBits
  have positive : 0 < pool.size := Nat.two_pow_pos _
  have within := pool.network_add_size_le
  obtain ⟨-, aligned⟩ := IPNet.host_toNat pool.isNetwork (by omega) (show 0 < 2 ^ pool.net.hostBits from Nat.two_pow_pos _)
  rw [bits] at aligned
  obtain ⟨upper, shape⟩ := Nat.dvd_of_mod_eq_zero aligned
  have below : 2 ^ (32 - pool.net.ones) - 1 < 2 ^ (32 - pool.net.ones) := by
    omega
  rw [BitVec.toNat_or, BitVec.toNat_ofNat, ← size, Nat.mod_eq_of_lt (by omega), size, shape,
    ← Nat.two_pow_add_eq_or_of_lt below]

/-- The pair of an index is that of the remainder by `2 ^ 31`, if the pool has it. -/
theorem allocateTransitPair_eq_ite (index : Nat) : allocateTransitPair index cidr =
    if index % 2 ^ 31 < pool.pairs then some (pool.pair (index % 2 ^ 31)) else none := by
  have narrow := pool.narrow
  have even := pool.size_eq
  have room : ¬ 32 - pool.net.ones < 2 := by omega
  have cut : BitVec.ofNat 32 (2 * index + 1) = BitVec.ofNat 32 (2 * (index % 2 ^ 31) + 1) := by
    apply BitVec.eq_of_toNat_eq
    rw [BitVec.toNat_ofNat, BitVec.toNat_ofNat]
    omega
  have last := pool.broadcast_toNat
  simp only [allocateTransitPair, pool.parsed, pool.isNetwork, room, if_false, cut, BitVec.lt_def, BitVec.le_def, last]
  have small : index % 2 ^ 31 < 2 ^ 31 := Nat.mod_lt _ (by decide)
  generalize index % 2 ^ 31 = position at small ⊢
  have first : (pool.network + BitVec.ofNat 32 (2 * position + 1)).toNat =
      (pool.network.toNat + (2 * position + 1)) % 2 ^ 32 := by
    rw [BitVec.toNat_add, BitVec.toNat_ofNat]
    omega
  have second : (pool.network + BitVec.ofNat 32 (2 * position + 1) + 1).toNat =
      (pool.network.toNat + (2 * position + 2)) % 2 ^ 32 := by
    have one : (1 : BitVec 32).toNat = 1 := rfl
    rw [BitVec.toNat_add, first, one]
    omega
  have next : pool.network + BitVec.ofNat 32 (2 * position + 1) + 1 =
      pool.network + BitVec.ofNat 32 (2 * position + 2) := by
    apply BitVec.eq_of_toNat_eq
    rw [second, BitVec.toNat_add, BitVec.toNat_ofNat]
    omega
  rw [first, second, next]
  by_cases has : position < pool.pairs
  · rw [if_pos has, if_neg (by omega)]
    rfl
  · rw [if_neg has, if_pos (by omega)]

theorem allocateTransitPair_some {found : String × String} :
    allocateTransitPair index cidr = some found ↔ index % 2 ^ 31 < pool.pairs ∧ pool.pair (index % 2 ^ 31) = found := by
  rw [pool.allocateTransitPair_eq_ite]
  split
  case isTrue has => simp only [has, true_and, some.injEq]
  case isFalse lacks => simp only [lacks, false_and, reduceCtorEq]

theorem pair_disjoint {i j : Nat} (iFits : i < pool.pairs) (jFits : j < pool.pairs) :
    List.Disjoint (pairMarks (pool.pair i)) (pairMarks (pool.pair j)) ↔ i ≠ j := by
  have small := pool.pairs_lt
  constructor
  · rintro disjoint rfl
    exact disjoint (mem_cons_self) (mem_cons_self)
  · intro different text inFirst inSecond
    rcases mem_pair.mp inFirst with rfl | rfl <;> rcases mem_pair.mp inSecond with same | same <;>
      have numbers := hostText_injective (by omega) (by omega) same <;> omega

def Fits (index : Nat) : Prop := index < 2 ^ 31 ∨ pool.pairs ≤ index % 2 ^ 31

/-- What the functions of the pool promise of two indices, and of every set of used addresses. -/
structure Sound (i j : Nat) : Prop where
  succeeds : ∃ count, transitPoolPairCount cidr = .ok count ∧ ((allocateTransitPair i cidr).isSome ↔ i < count) ∧
    ((allocateTransitPair j cidr).isSome ↔ j < count)
  disjoint : i ≠ j → ∀ first second, allocateTransitPair i cidr = some first → allocateTransitPair j cidr = some second →
    List.Disjoint (pairMarks first) (pairMarks second)
  inside : ∀ index ∈ [i, j], ∀ pair, allocateTransitPair index cidr = some pair → ∃ near far : IPv4,
    pair = (near.format, far.format) ∧ near.toNat = pool.network.toNat + (2 * index + 1) ∧
      far.toNat = pool.network.toNat + (2 * index + 2) ∧ pool.network < near ∧
      far < pool.network ||| BitVec.ofNat 32 (2 ^ (32 - pool.net.ones) - 1)
  lowest : ∀ used found, gapFillTransitPair used cidr = .ok found ↔ ∃ index < pool.pairs,
    allocateTransitPair index cidr = some found ∧ transitPairFree used.transit cidr found = true ∧
      ∀ lower < index, ∀ pair, allocateTransitPair lower cidr = some pair →
        transitPairFree used.transit cidr pair = false
  exhausted : ∀ used, (∃ reason, gapFillTransitPair used cidr = .error reason) ↔ ∀ index < pool.pairs, ∀ pair,
    allocateTransitPair index cidr = some pair → transitPairFree used.transit cidr pair = false

theorem succeeds_iff (index : Nat) : ((allocateTransitPair index cidr).isSome ↔ index < pool.pairs) ↔ pool.Fits index := by
  have small := pool.pairs_lt
  have some_iff : (allocateTransitPair index cidr).isSome ↔ index % 2 ^ 31 < pool.pairs := by
    rw [pool.allocateTransitPair_eq_ite]
    split
    case isTrue has => simp only [has, isSome_some]
    case isFalse lacks => simp only [lacks, isSome_none, Bool.false_eq_true]
  rw [some_iff, Fits]
  omega

theorem inside_of_fits (fits : pool.Fits index) {pair : String × String}
    (allocated : allocateTransitPair index cidr = some pair) : ∃ near far : IPv4,
      pair = (near.format, far.format) ∧ near.toNat = pool.network.toNat + (2 * index + 1) ∧
        far.toNat = pool.network.toNat + (2 * index + 2) ∧ pool.network < near ∧
        far < pool.network ||| BitVec.ofNat 32 (2 ^ (32 - pool.net.ones) - 1) := by
  obtain ⟨has, rfl⟩ := pool.allocateTransitPair_some.mp allocated
  have same : index % 2 ^ 31 = index := Nat.mod_eq_of_lt (fits.resolve_right (by omega))
  have even := pool.size_eq
  rw [same] at has ⊢
  have near := pool.host_toNat (show 2 * index + 1 < pool.size by omega)
  have far := pool.host_toNat (show 2 * index + 2 < pool.size by omega)
  refine ⟨_, _, rfl, near, far, ?_, ?_⟩
  · rw [BitVec.lt_def, near]
    omega
  · rw [BitVec.lt_def, far, pool.broadcast_toNat]
    omega

def search (used : Resources) : Option (String × String) :=
  (List.range pool.pairs).findSome? fun index =>
    (allocateTransitPair index cidr).filter (transitPairFree used.transit cidr)

theorem gapFill_eq (used : Resources) :
    gapFillTransitPair used cidr = ((pool.search used).map Except.ok).getD (.error (.poolExhausted cidr)) := by
  simp only [gapFillTransitPair, pool.count, search]
  split <;> simp [*]

theorem taken_iff {used : Resources} :
    (allocateTransitPair index cidr).filter (transitPairFree used.transit cidr) = none ↔ ∀ pair,
      allocateTransitPair index cidr = some pair → transitPairFree used.transit cidr pair = false := by
  simp [filter_eq_none_iff]

theorem lowest_iff (used : Resources) (found : String × String) :
    gapFillTransitPair used cidr = .ok found ↔ ∃ index < pool.pairs, allocateTransitPair index cidr = some found ∧
      transitPairFree used.transit cidr found = true ∧ ∀ lower < index, ∀ pair,
        allocateTransitPair lower cidr = some pair → transitPairFree used.transit cidr pair = false := by
  have searched : gapFillTransitPair used cidr = .ok found ↔ pool.search used = some found := by
    rw [pool.gapFill_eq]
    cases pool.search used <;> simp
  simp only [searched, search, Data.findSome?_range_iff, filter_eq_some_iff, taken_iff, and_assoc]

theorem exhausted_iff (used : Resources) : (∃ reason, gapFillTransitPair used cidr = .error reason) ↔
    ∀ index < pool.pairs, ∀ pair, allocateTransitPair index cidr = some pair →
      transitPairFree used.transit cidr pair = false := by
  have searched : (∃ reason, gapFillTransitPair used cidr = .error reason) ↔ pool.search used = none := by
    rw [pool.gapFill_eq]
    cases pool.search used <;> simp
  simp only [searched, search, findSome?_eq_none_iff, mem_range, taken_iff]

/-- The functions of a transit pool agree exactly on the indices whose offset is not cut to that of another pair. -/
theorem sound_iff_fits (i j : Nat) : pool.Sound i j ↔ pool.Fits i ∧ pool.Fits j := by
  constructor
  · intro sound
    obtain ⟨count, counted, first, second⟩ := sound.succeeds
    obtain rfl := Except.ok.inj (pool.count.symm.trans counted)
    exact ⟨(pool.succeeds_iff i).mp first, (pool.succeeds_iff j).mp second⟩
  · rintro ⟨iFits, jFits⟩
    refine ⟨⟨pool.pairs, pool.count, (pool.succeeds_iff i).mpr iFits, (pool.succeeds_iff j).mpr jFits⟩, ?disjoint, ?inside,
      pool.lowest_iff, pool.exhausted_iff⟩
    case disjoint =>
      intro different first second isFirst isSecond
      obtain ⟨iHas, rfl⟩ := pool.allocateTransitPair_some.mp isFirst
      obtain ⟨jHas, rfl⟩ := pool.allocateTransitPair_some.mp isSecond
      rw [Fits] at iFits jFits
      exact (pool.pair_disjoint iHas jHas).mpr (by omega)
    case inside =>
      intro index member pair allocated
      refine pool.inside_of_fits ?_ allocated
      rcases mem_pair.mp member with rfl | rfl
      · exact iFits
      · exact jFits

end TransitPool

theorem exists_samplePool : Nonempty (TransitPool "10.10.0.0/24") := by
  have evaluated : (transitNet "10.10.0.0/24").any (fun net =>
      net.ip.to4.isSome && decide (8 ≤ net.ones ∧ net.ones ≤ 30)) = true := by
    decide +kernel
  rw [Option.any_eq_true] at evaluated
  obtain ⟨net, parsed, shape⟩ := evaluated
  rw [Bool.and_eq_true, decide_eq_true_eq] at shape
  obtain ⟨network, isNetwork⟩ := isSome_iff_exists.mp shape.1
  exact ⟨⟨net, network, parsed, isNetwork, shape.2.1, shape.2.2⟩⟩

theorem samplePool_sound : ∃ pool : TransitPool "10.10.0.0/24", pool.Sound 0 126 := by
  obtain ⟨pool⟩ := exists_samplePool
  exact ⟨pool, (pool.sound_iff_fits 0 126).mpr ⟨.inl (by decide), .inl (by decide)⟩⟩

/-- The index `2 ^ 31` is above every pair of the pool, and is given the first one. -/
theorem samplePool_wraps : transitPoolPairCount "10.10.0.0/24" = .ok 127 ∧
    allocateTransitPair 2147483648 "10.10.0.0/24" = some ("10.10.0.1", "10.10.0.2") ∧
    ∀ pool : TransitPool "10.10.0.0/24", ¬ pool.Sound 2147483648 0 := by
  have counted : transitPoolPairCount "10.10.0.0/24" = .ok 127 := by decide +kernel
  have allocated : allocateTransitPair 2147483648 "10.10.0.0/24" = some ("10.10.0.1", "10.10.0.2") := by
    decide +kernel
  refine ⟨counted, allocated, fun pool sound => ?_⟩
  obtain ⟨count, isCount, first, -⟩ := sound.succeeds
  obtain rfl := Except.ok.inj (counted.symm.trans isCount)
  exact absurd (first.mp rfl) (by decide)

end Yaog.Compiler
