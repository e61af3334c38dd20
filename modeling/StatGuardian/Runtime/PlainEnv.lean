import StatGuardian.Runtime.Env

namespace StatGuardian

open Polars

namespace PlainEnv

variable {F : Type} [Float64 F]

instance : (t : DataType) → DecidableEq (t.Value F)
  | .int8 | .int16 | .int32 | .int64 => inferInstanceAs (DecidableEq Int)
  | .uint8 | .uint16 | .uint32 | .uint64 => inferInstanceAs (DecidableEq Nat)
  | .float32 | .float64 => inferInstanceAs (DecidableEq F)
  | .string => inferInstanceAs (DecidableEq String)
  | .boolean => inferInstanceAs (DecidableEq Bool)
  | .date | .datetime => inferInstanceAs (DecidableEq Int)
  | .binary => inferInstanceAs (DecidableEq (List UInt8))
  | .other _ => inferInstanceAs (DecidableEq Nat)

/-- A number is cast to the nearest one there is. -/
def castCell : (t : DataType) → Option (t.Value F → Option F)
  | .int8 | .int16 | .int32 | .int64 => some fun i => some (Float64.ofRat (i : Int))
  | .uint8 | .uint16 | .uint32 | .uint64 => some fun n => some (Float64.ofRat (n : Nat))
  | .float32 | .float64 => some some
  | .string => some fun s => s.toInt?.map fun i => Float64.ofRat i
  | .boolean => some fun b => some (if b then Float64.one else Float64.zero)
  | .date | .datetime => some fun i => some (Float64.ofRat (i : Int))
  | .binary | .other _ => none

def castString : Series F → Option (List (Option String))
  | ⟨.string, cells⟩ => some cells
  | ⟨.int64, cells⟩ => some (cells.map fun cell => Option.map (fun i : Int => toString i) cell)
  | _ => none

def nUnique (series : Series F) : Option Nat := some series.cells.dedup.length

def mean (ca : List (Option F)) : Option F :=
  let vals := ca.filterMap id
  if vals.isEmpty then none
  else some (Float64.sum vals / Float64.ofNat vals.length)

def std (ca : List (Option F)) : Option F :=
  let vals := ca.filterMap id
  if vals.length < 2 then none
  else
    let mean := Float64.sum vals / Float64.ofNat vals.length
    let squares := vals.map fun x => (x - mean) * (x - mean)
    some (Float64.sqrt (Float64.sum squares / Float64.ofNat (vals.length - 1)))

def fold (pick : F → F → F) (ca : List (Option F)) : Option F :=
  match ca.filterMap id with
  | [] => none
  | x :: rest => some (rest.foldl pick x)

def debugDtype : DataType → String
  | .int64 => "Int64"
  | .uint64 => "UInt64"
  | .float64 => "Float64"
  | .string => "String"
  | .boolean => "Boolean"
  | _ => "Unknown"

/-- Entries are visited in the order they were put in. -/
def visit {α : Type} (entries : List (String × α)) : List (String × α) := entries

theorem visit_perm {α : Type} (entries : List (String × α)) : (visit entries).Perm entries :=
  List.Perm.refl entries

/-- Patterns without operators, which match where they occur. -/
def regex (pattern : String) : Except String (String → Bool) :=
  .ok fun s => (List.range (s.length + 1)).any fun i =>
    pattern.toList.isPrefixOf (s.toList.drop i)

end PlainEnv

open PlainEnv in
/-- An environment for any kind of number, given its logarithm and its spelling. -/
def plainEnv {F : Type} [Float64 F] (ln : F → F) (display : F → String) : Env F where
  castCell := castCell
  castString := castString
  nUnique := nUnique
  mean := mean
  std := std
  min := fold Float64.min
  max := fold Float64.max
  debugDtype := debugDtype
  regex := regex
  display := display
  fixed _ x := display x
  ln := ln
  hash _ := 0
  sorter := Sorter.inserting F
  visit := visit
  visit_perm := visit_perm

end StatGuardian
