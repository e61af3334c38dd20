import Mathlib.Data.Finset.Lattice.Fold
import Mathlib.Order.Lattice.Nat
import StatGuardian.Stats.HyperLogLog

namespace StatGuardian.Stats.HyperLogLog

def registerOf (hash : UInt64) : Nat := hash.toNat / 2 ^ 50

def lowBits (hash : UInt64) : Nat := hash.toNat % 2 ^ 50

/-- The position of the first 1-bit among the 50 bits below the register's number, from 1 on, and
    51 when there is none. -/
def rank (hash : UInt64) : Nat :=
  (List.range 50).findIdx (fun i => hash.toNat.testBit (49 - i)) + 1

/-- What `add` takes for the rank. -/
def shiftedRank (hash : UInt64) : Nat := leadingZeros (hash <<< 14) + 1

/-- The greatest value over the hashes of a register, and 0 when there is none. -/
def greatest (value : UInt64 → Nat) (hashes : List UInt64) (j : Nat) : Nat :=
  (hashes.toFinset.filter (fun hash => registerOf hash = j)).sup value

theorem toNat_shiftLeft_precision (hash : UInt64) :
    (hash <<< 14).toNat = lowBits hash * 2 ^ 14 := by
  have bound := hash.toNat_lt
  have shift : (hash <<< 14).toNat = hash.toNat <<< 14 % 2 ^ 64 := UInt64.toNat_shiftLeft _ _
  rw [shift, Nat.shiftLeft_eq, lowBits]
  omega

theorem lowBits_lt (hash : UInt64) : lowBits hash < 2 ^ 50 := Nat.mod_lt _ (by decide)

theorem testBit_lowBits (hash : UInt64) (i : Nat) (low : i < 50) :
    hash.toNat.testBit i = (lowBits hash).testBit i := by
  rw [lowBits, Nat.testBit_mod_two_pow, decide_eq_true low, Bool.true_and]

theorem shiftedRank_of_zero (hash : UInt64) (zero : lowBits hash = 0) : shiftedRank hash = 65 := by
  have nothing : hash <<< 14 = 0 := by
    apply UInt64.toNat_inj.mp
    rw [toNat_shiftLeft_precision, zero, Nat.zero_mul]
    rfl
  rw [shiftedRank, leadingZeros, if_pos nothing]

theorem log2_mul_two_pow (n k : Nat) (nonzero : n ≠ 0) : (n * 2 ^ k).log2 = n.log2 + k := by
  induction k with
  | zero => rw [Nat.pow_zero, Nat.mul_one, Nat.add_zero]
  | succ k ih =>
    have more : n * 2 ^ k ≠ 0 := Nat.mul_ne_zero nonzero (Nat.two_pow_pos k).ne'
    rw [Nat.pow_succ, ← Nat.mul_assoc, Nat.mul_comm _ 2, Nat.log2_two_mul more, ih, Nat.add_assoc]

theorem shiftedRank_of_nonzero (hash : UInt64) (nonzero : lowBits hash ≠ 0) :
    shiftedRank hash = 50 - (lowBits hash).log2 := by
  have something : hash <<< 14 ≠ 0 := by
    intro zero
    have value := congrArg UInt64.toNat zero
    rw [toNat_shiftLeft_precision] at value
    change lowBits hash * 2 ^ 14 = 0 at value
    omega
  have high : (lowBits hash).log2 < 50 := (Nat.log2_lt nonzero).mpr (lowBits_lt hash)
  rw [shiftedRank, leadingZeros, if_neg something, toNat_shiftLeft_precision,
    log2_mul_two_pow _ _ nonzero]
  omega

theorem rank_of_zero (hash : UInt64) (zero : lowBits hash = 0) : rank hash = 51 := by
  have absent : ∀ i ∈ List.range 50, hash.toNat.testBit (49 - i) = false := by
    intro i _
    rw [testBit_lowBits hash _ (by omega), zero, Nat.zero_testBit]
  rw [rank, List.findIdx_eq_length.mpr absent, List.length_range]

theorem rank_of_nonzero (hash : UInt64) (nonzero : lowBits hash ≠ 0) :
    rank hash = 50 - (lowBits hash).log2 := by
  have high : (lowBits hash).log2 < 50 := (Nat.log2_lt nonzero).mpr (lowBits_lt hash)
  have first : (List.range 50).findIdx (fun i => hash.toNat.testBit (49 - i)) =
      49 - (lowBits hash).log2 := by
    rw [List.findIdx_eq (by rw [List.length_range]; omega)]
    constructor
    · rw [List.getElem_range, Nat.sub_sub_self (by omega), testBit_lowBits hash _ high]
      exact Nat.testBit_log2 nonzero
    · intro j before
      rw [List.getElem_range, testBit_lowBits hash _ (by omega)]
      have above : lowBits hash < 2 ^ (49 - j) := (Nat.log2_lt nonzero).mp (by omega)
      exact Nat.testBit_lt_two_pow above
  rw [rank, first]
  omega

theorem shiftedRank_eq_rank_iff (hash : UInt64) :
    shiftedRank hash = rank hash ↔ lowBits hash ≠ 0 := by
  constructor
  · intro same zero
    rw [shiftedRank_of_zero hash zero, rank_of_zero hash zero] at same
    omega
  · intro nonzero
    rw [shiftedRank_of_nonzero hash nonzero, rank_of_nonzero hash nonzero]

theorem rank_le (hash : UInt64) : rank hash ≤ 51 :=
  Nat.succ_le_succ (List.findIdx_le_length.trans_eq List.length_range)

theorem greatest_cons (value : UInt64 → Nat) (hash : UInt64) (rest : List UInt64) (j : Nat) :
    greatest value (hash :: rest) j =
      max (if registerOf hash = j then value hash else 0) (greatest value rest j) := by
  rw [greatest, List.toFinset_cons, Finset.filter_insert]
  split
  · rw [Finset.sup_insert]
    rfl
  · exact (Nat.zero_max _).symm

theorem le_greatest (value : UInt64 → Nat) (hashes : List UInt64) (hash : UInt64)
    (member : hash ∈ hashes) : value hash ≤ greatest value hashes (registerOf hash) :=
  Finset.le_sup (f := value) (Finset.mem_filter.mpr ⟨List.mem_toFinset.mpr member, rfl⟩)

theorem greatest_congr (value other : UInt64 → Nat) (hashes : List UInt64) (j : Nat)
    (same : ∀ hash ∈ hashes, value hash = other hash) :
    greatest value hashes j = greatest other hashes j := by
  apply Finset.sup_congr rfl
  intro hash member
  exact same hash (List.mem_toFinset.mp (Finset.mem_filter.mp member).1)

theorem registerOf_lt (hash : UInt64) : registerOf hash < numRegisters := by
  have bound := hash.toNat_lt
  unfold registerOf numRegisters precision
  omega

theorem toNat_shiftRight_fifty (hash : UInt64) : (hash >>> 50).toNat = registerOf hash := by
  rw [UInt64.toNat_shiftRight, Nat.shiftRight_eq_div_pow]
  rfl

theorem addHash_eq (hll : HyperLogLog) (hash : UInt64) :
    ∃ next, hll.addHash hash = .ok next ∧ ∀ j (inside : j < numRegisters),
      next.registers[j] =
        max hll.registers[j] (if registerOf hash = j then shiftedRank hash else 0) := by
  have index := toNat_shiftRight_fifty hash
  have inside : (hash >>> 50).toNat < numRegisters := index ▸ registerOf_lt hash
  refine ⟨_, dif_pos inside, ?_⟩
  intro j within
  simp only [Vector.getElem_set, index]
  split
  · rename_i here
    subst here
    rfl
  · rw [Nat.max_zero]

/-- Adding hashes leaves in each register the greatest rank that was taken for it. -/
theorem foldlM_addHash (hashes : List UInt64) (hll : HyperLogLog) :
    ∃ final, hashes.foldlM addHash hll = .ok final ∧ ∀ j (inside : j < numRegisters),
      final.registers[j] = max hll.registers[j] (greatest shiftedRank hashes j) := by
  induction hashes generalizing hll with
  | nil => exact ⟨hll, rfl, fun j inside => (Nat.max_zero _).symm⟩
  | cons hash rest ih =>
    obtain ⟨next, added, one⟩ := addHash_eq hll hash
    obtain ⟨final, finished, all⟩ := ih next
    refine ⟨final, ?_, ?_⟩
    · rw [List.foldlM_cons, added]
      exact finished
    · intro j inside
      rw [all j inside, one j inside, greatest_cons, Nat.max_assoc]

theorem foldlM_addHash_new (hashes : List UInt64) :
    ∃ hll, hashes.foldlM addHash new = .ok hll ∧ ∀ j (inside : j < numRegisters),
      hll.registers[j] = greatest shiftedRank hashes j := by
  obtain ⟨hll, added, registers⟩ := foldlM_addHash hashes new
  refine ⟨hll, added, ?_⟩
  intro j inside
  rw [registers j inside]
  simp only [new, Vector.getElem_replicate, Nat.zero_max]

theorem eq_of_registers (a b : HyperLogLog)
    (same : ∀ j (inside : j < numRegisters), a.registers[j] = b.registers[j]) : a = b := by
  obtain ⟨registers⟩ := a
  obtain ⟨others⟩ := b
  exact congrArg HyperLogLog.mk (Vector.ext same)

theorem foldlM_addHash_same_set (hashes others : List UInt64)
    (same : ∀ hash, hash ∈ others ↔ hash ∈ hashes) :
    others.foldlM addHash new = hashes.foldlM addHash new := by
  obtain ⟨hll, added, registers⟩ := foldlM_addHash_new hashes
  obtain ⟨other, addedOthers, registersOthers⟩ := foldlM_addHash_new others
  have sets : others.toFinset = hashes.toFinset := List.toFinset.ext same
  rw [added, addedOthers]
  apply congrArg
  apply eq_of_registers
  intro j inside
  rw [registers j inside, registersOthers j inside, greatest, greatest, sets]

/-- After the hashes are added each register holds the greatest rank of its hashes, and hashes of
    the same set leave the same registers. -/
def HoldsRanks (hashes : List UInt64) : Prop :=
  ∃ hll, hashes.foldlM addHash new = .ok hll ∧
    (∀ j (inside : j < numRegisters), hll.registers[j] = greatest rank hashes j) ∧
    ∀ others : List UInt64, (∀ hash, hash ∈ others ↔ hash ∈ hashes) →
      others.foldlM addHash new = .ok hll

theorem ranks_of_nonzero (hashes : List UInt64) (nonzero : ∀ hash ∈ hashes, lowBits hash ≠ 0) :
    HoldsRanks hashes := by
  obtain ⟨hll, added, registers⟩ := foldlM_addHash_new hashes
  refine ⟨hll, added, ?_, ?_⟩
  · intro j inside
    rw [registers j inside]
    exact greatest_congr _ _ hashes j
      (fun hash member => (shiftedRank_eq_rank_iff hash).mpr (nonzero hash member))
  · intro others same
    rw [foldlM_addHash_same_set hashes others same, added]

/-- A hash without a low bit leaves 65 in its register, and no rank is that great. -/
theorem not_ranks_of_zero (hashes : List UInt64) (hash : UInt64) (member : hash ∈ hashes)
    (zero : lowBits hash = 0) : ¬ HoldsRanks hashes := by
  rintro ⟨hll, added, ranks, _⟩
  obtain ⟨other, addedOther, registers⟩ := foldlM_addHash_new hashes
  rw [added] at addedOther
  cases addedOther
  have here := (ranks _ (registerOf_lt hash)).symm.trans (registers _ (registerOf_lt hash))
  have great := le_greatest shiftedRank hashes hash member
  have small : greatest rank hashes (registerOf hash) ≤ 51 :=
    Finset.sup_le fun hash _ => rank_le hash
  rw [shiftedRank_of_zero hash zero] at great
  omega

theorem holdsRanks_iff (hashes : List UInt64) :
    HoldsRanks hashes ↔ ∀ hash ∈ hashes, lowBits hash ≠ 0 := by
  constructor
  · intro holds hash member zero
    exact not_ranks_of_zero hashes hash member zero holds
  · exact ranks_of_nonzero hashes

theorem not_holdsRanks_zero : ¬ HoldsRanks [0] :=
  not_ranks_of_zero [0] 0 (List.mem_singleton_self 0) rfl

end StatGuardian.Stats.HyperLogLog
