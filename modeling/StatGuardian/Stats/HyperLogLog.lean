import StatGuardian.Runtime.Env

namespace StatGuardian.Stats

def precision : Nat := 14
def numRegisters : Nat := 2 ^ precision

structure HyperLogLog where
  registers : Vector Nat numRegisters

namespace HyperLogLog

variable {F : Type} [Float64 F]

def new : HyperLogLog := ⟨Vector.replicate numRegisters 0⟩

def leadingZeros (x : UInt64) : Nat := if x = 0 then 64 else 63 - x.toNat.log2

/-- `HyperLogLog::add` once the value is hashed. -/
def addHash (hll : HyperLogLog) (hash : UInt64) : Exec HyperLogLog :=
  let index := (hash >>> 50).toNat
  let remaining := hash <<< 14
  if inside : index < numRegisters then
    .ok ⟨hll.registers.set index (max hll.registers[index] (leadingZeros remaining + 1)) inside⟩
  else .error .indexOutOfBounds

def addStr (env : Env F) (hll : HyperLogLog) (value : String) : Exec HyperLogLog :=
  hll.addHash (env.hash value)

def alpha : F :=
  Float64.ofRat (7213 / 10000) /
    (Float64.one + Float64.ofRat (1079 / 1000) / Float64.ofNat numRegisters)

def cardinality (env : Env F) (hll : HyperLogLog) : Nat :=
  let m : F := Float64.ofNat numRegisters
  let raw := alpha * m * m /
    Float64.sum (hll.registers.toList.map (fun r => Float64.ofRat (1 / 2 ^ r)))
  let pow32 : F := Float64.ofRat (2 ^ 32)
  let estimate :=
    if Float64.le raw (Float64.ofRat (5 / 2) * m) then
      let zeros := hll.registers.toList.countP (· == 0)
      if zeros > 0 then m * env.ln (m / Float64.ofNat zeros) else raw
    else if Float64.gt raw (pow32 / Float64.ofRat 30) then
      Float64.ofRat (-(2 ^ 32)) * env.ln (Float64.one - raw / pow32)
    else raw
  Float64.toUsize (Float64.round estimate)

theorem addHash_returns (hll : HyperLogLog) (hash : UInt64) : ∃ next, hll.addHash hash = .ok next := by
  have inside : (hash >>> 50).toNat < numRegisters := by
    have bound := hash.toNat_lt
    have shift : (hash >>> 50).toNat = hash.toNat / 2 ^ 50 := by
      rw [UInt64.toNat_shiftRight, Nat.shiftRight_eq_div_pow]
      rfl
    rw [shift]
    unfold numRegisters precision
    omega
  exact ⟨_, dif_pos inside⟩

theorem addStr_foldl_returns (env : Env F) (values : List String) (hll : HyperLogLog) :
    ∃ next, values.foldlM (addStr env) hll = .ok next := by
  induction values generalizing hll with
  | nil => exact ⟨hll, rfl⟩
  | cons value rest ih =>
    obtain ⟨next, added⟩ := hll.addHash_returns (env.hash value)
    obtain ⟨final, finished⟩ := ih next
    refine ⟨final, ?_⟩
    rw [List.foldlM_cons, addStr, added]
    exact finished

end HyperLogLog

end StatGuardian.Stats
