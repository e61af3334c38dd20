import StatGuardian.Polars.Frame

namespace StatGuardian

open Polars

/-- The code outside the repository that a run of the engine calls: the polars kernels, the
    regex engine and the parts of `std` whose results depend on the platform. -/
structure Env (F : Type) [Float64 F] where
  /-- `Series::cast` to `Float64`: undefined for some types, otherwise cell by cell, with null
      for a cell that has no number. -/
  castCell : (t : DataType) → Option (t.Value F → Option F)
  castString : Series F → Option (List (Option String))
  nUnique : Series F → Option Nat
  mean : List (Option F) → Option F
  std : List (Option F) → Option F
  min : List (Option F) → Option F
  max : List (Option F) → Option F
  debugDtype : DataType → String
  /-- `Regex::new` with its error text, then `Regex::is_match`. -/
  regex : String → Except String (String → Bool)
  display : F → String
  /-- `{:.n}` -/
  fixed : Nat → F → String
  ln : F → F
  /-- The default hasher over the bytes of a string. -/
  hash : String → UInt64
  sorter : Sorter F
  /-- The order in which a hash map hands out its entries. -/
  visit : {α : Type} → List (String × α) → List (String × α)
  visit_perm : ∀ {α : Type} (entries : List (String × α)), (visit entries).Perm entries

namespace Env

variable {F : Type} [Float64 F] (env : Env F)

/-- `series.cast(&DataType::Float64)` followed by `.f64()`. -/
def castF64 (s : Series F) : Option (List (Option F)) :=
  (env.castCell s.dtype).map (fun cast => s.cells.map (fun cell => cell.bind cast))

theorem len_castF64 (s : Series F) (cells : List (Option F)) (cast : env.castF64 s = some cells) :
    cells.length = s.len := by
  obtain ⟨f, _, rfl⟩ := Option.map_eq_some_iff.mp cast
  simp [Series.len]

/-- The same environment with another sort. -/
def withSorter (sorter : Sorter F) : Env F := { env with sorter := sorter }

@[simp] theorem withSorter_sorter (sorter : Sorter F) : (env.withSorter sorter).sorter = sorter :=
  rfl

@[simp] theorem withSorter_castF64 (sorter : Sorter F) (s : Series F) :
    (env.withSorter sorter).castF64 s = env.castF64 s := rfl

theorem castF64_slice (s : Series F) (offset length : Nat) :
    env.castF64 (s.slice offset length) =
      (env.castF64 s).map (fun cells => (cells.drop offset).take length) := by
  unfold castF64 Series.slice
  cases env.castCell s.dtype with
  | none => rfl
  | some cast => simp [List.map_take, List.map_drop]

end Env

end StatGuardian
