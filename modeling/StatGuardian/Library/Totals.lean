import Mathlib.Algebra.BigOperators.Group.List.Basic

namespace Totals

variable {σ ε M : Type*} [AddMonoid M]

/-- A state that keeps track of a total while each step adds its amount keeps track of the sum. -/
theorem foldl_tracks (step : σ → ε → σ) (tracks : σ → M → Prop) (amount : ε → M)
    {events : List ε} (each : ∀ e ∈ events, ∀ s total, tracks s total →
      tracks (step s e) (total + amount e)) (s : σ) (total : M) (start : tracks s total) :
    tracks (events.foldl step s) (total + (events.map amount).sum) := by
  induction events generalizing s total with
  | nil => rwa [List.map_nil, List.sum_nil, add_zero]
  | cons e rest ih =>
    obtain ⟨first, later⟩ := List.forall_mem_cons.mp each
    rw [List.map_cons, List.sum_cons, ← add_assoc]
    exact ih later (step s e) (total + amount e) (first s total start)

/-- The word holds the total as far as the bits go. -/
def Wraps (word : UInt64) (total : Nat) : Prop := word.toNat = total % 2 ^ 64

theorem Wraps.add {a b : UInt64} {m n : Nat} (left : Wraps a m) (right : Wraps b n) :
    Wraps (a + b) (m + n) := by
  unfold Wraps at left right ⊢
  rw [UInt64.toNat_add, left, right, ← Nat.add_mod]

theorem wraps_toNat (word : UInt64) : Wraps word word.toNat :=
  (Nat.mod_eq_of_lt word.toNat_lt).symm

theorem Wraps.exact_iff {word : UInt64} {total : Nat} (wraps : Wraps word total) :
    word.toNat = total ↔ total < 2 ^ 64 := by
  constructor
  · intro same
    rw [← same]
    exact word.toNat_lt
  · intro fits
    rw [wraps, Nat.mod_eq_of_lt fits]

end Totals
