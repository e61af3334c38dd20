import StatGuardian.Runtime.Env
import StatGuardian.Runtime.ExtRat

namespace StatGuardian

open Polars

namespace ExactEnv

instance : (t : DataType) → DecidableEq (t.Value ExtRat)
  | .int8 | .int16 | .int32 | .int64 => inferInstanceAs (DecidableEq Int)
  | .uint8 | .uint16 | .uint32 | .uint64 => inferInstanceAs (DecidableEq Nat)
  | .float32 | .float64 => inferInstanceAs (DecidableEq ExtRat)
  | .string => inferInstanceAs (DecidableEq String)
  | .boolean => inferInstanceAs (DecidableEq Bool)
  | .date | .datetime => inferInstanceAs (DecidableEq Int)
  | .binary => inferInstanceAs (DecidableEq (List UInt8))
  | .other _ => inferInstanceAs (DecidableEq Nat)

def castCell : (t : DataType) → Option (t.Value ExtRat → Option ExtRat)
  | .int8 | .int16 | .int32 | .int64 => some fun i => some (.fin i)
  | .uint8 | .uint16 | .uint32 | .uint64 => some fun n => some (.fin n)
  | .float32 | .float64 => some some
  | .string => some fun s => s.toInt?.map fun i => .fin i
  | .boolean => some fun b => some (.fin (if b then 1 else 0))
  | .date | .datetime => some fun i => some (.fin i)
  | .binary | .other _ => none

def display : ExtRat → String
  | .nan => "NaN"
  | .negInf => "-inf"
  | .posInf => "inf"
  | .fin q => if q.den = 1 then toString q.num else s!"{q.num}/{q.den}"

def castString : Series ExtRat → Option (List (Option String))
  | ⟨.string, cells⟩ => some cells
  | ⟨.int64, cells⟩ => some (cells.map fun cell => Option.map (fun i : Int => toString i) cell)
  | ⟨.float64, cells⟩ => some (cells.map fun cell => Option.map display cell)
  | _ => none

def nUnique (series : Series ExtRat) : Option Nat := some series.cells.dedup.length

def mean (ca : List (Option ExtRat)) : Option ExtRat :=
  let vals := ca.filterMap id
  if vals.isEmpty then none
  else some (Float64.sum vals / Float64.ofNat vals.length)

def std (ca : List (Option ExtRat)) : Option ExtRat :=
  let vals := ca.filterMap id
  if vals.length < 2 then none
  else
    let mean := Float64.sum vals / Float64.ofNat vals.length
    let squares := vals.map fun x => (x - mean) * (x - mean)
    some (Float64.sqrt (Float64.sum squares / Float64.ofNat (vals.length - 1)))

def fold (pick : ExtRat → ExtRat → ExtRat) (ca : List (Option ExtRat)) : Option ExtRat :=
  match ca.filterMap id with
  | [] => none
  | x :: rest => some (rest.foldl pick x)

/-- Patterns without operators, which match where they occur. -/
def regex (pattern : String) : Except String (String → Bool) :=
  if pattern = "(" then .error "unclosed group"
  else .ok fun s => (List.range (s.length + 1)).any (fun i =>
    pattern.toList.isPrefixOf (s.toList.drop i))

end ExactEnv

open ExactEnv in
/-- An environment that can be run: exact numbers, literal patterns, and a hasher and a hash map
    order of its own choice. -/
def exactEnv : Env ExtRat where
  castCell := castCell
  castString := castString
  nUnique := nUnique
  mean := mean
  std := std
  min := fold Float64.min
  max := fold Float64.max
  debugDtype
    | .int64 => "Int64"
    | .float64 => "Float64"
    | .string => "String"
    | .boolean => "Boolean"
    | _ => "Unknown"
  regex := regex
  display := display
  fixed _ x := display x
  ln x := x - .fin 1
  hash _ := 0
  sorter := Sorter.inserting ExtRat
  visit entries := entries
  visit_perm entries := List.Perm.refl entries

end StatGuardian
