import StatGuardian.Runtime.Float64

namespace StatGuardian.Polars

inductive DataType where
  | int8 | int16 | int32 | int64
  | uint8 | uint16 | uint32 | uint64
  | float32 | float64
  | string | boolean | date | datetime | binary
  | other (name : String)
  deriving DecidableEq, Repr

/-- What a cell of a column of the type holds. Payloads the checks never read are left opaque. -/
abbrev DataType.Value (F : Type) : DataType → Type
  | .int8 | .int16 | .int32 | .int64 => Int
  | .uint8 | .uint16 | .uint32 | .uint64 => Nat
  | .float32 | .float64 => F
  | .string => String
  | .boolean => Bool
  | .date | .datetime => Int
  | .binary => List UInt8
  | .other _ => Nat

structure Series (F : Type) where
  dtype : DataType
  cells : List (Option (dtype.Value F))

namespace Series

variable {F : Type}

def len (s : Series F) : Nat := s.cells.length

def nullCount (s : Series F) : Nat := s.cells.countP (·.isNone)

/-- `Series::str`, an error on any other type. -/
def str : Series F → Option (List (Option String))
  | ⟨.string, cells⟩ => some cells
  | _ => none

def bool : Series F → Option (List (Option Bool))
  | ⟨.boolean, cells⟩ => some cells
  | _ => none

def slice (s : Series F) (offset length : Nat) : Series F :=
  ⟨s.dtype, (s.cells.drop offset).take length⟩

theorem len_slice (s : Series F) (offset length : Nat) :
    (s.slice offset length).len = min length (s.len - offset) := by
  simp only [len, slice, List.length_take, List.length_drop]

theorem str_slice (s : Series F) (offset length : Nat) :
    (s.slice offset length).str = s.str.map (fun cells => (cells.drop offset).take length) := by
  obtain ⟨dtype, cells⟩ := s
  cases dtype <;> rfl

theorem len_str (s : Series F) (cells : List (Option String)) (read : s.str = some cells) :
    cells.length = s.len := by
  obtain ⟨dtype, values⟩ := s
  cases dtype <;> cases read
  rfl

end Series

/-- A column is stored as a series or, when a frame has one row, as one scalar. -/
inductive Column (F : Type) where
  | series (name : String) (s : Series F)
  | scalar (name : String) (dtype : DataType) (value : Option (dtype.Value F)) (length : Nat)

namespace Column

variable {F : Type}

def name : Column F → String
  | series name _ => name
  | scalar name .. => name

def len : Column F → Nat
  | series _ s => s.len
  | scalar _ _ _ length => length

def asSeries : Column F → Option (Series F)
  | series _ s => some s
  | scalar .. => none

def asMaterializedSeries : Column F → Series F
  | series _ s => s
  | scalar _ dtype value length => ⟨dtype, List.replicate length value⟩

def dtype (c : Column F) : DataType := c.asMaterializedSeries.dtype

def nullCount (c : Column F) : Nat := c.asMaterializedSeries.nullCount

def ofSeries (name : String) : Series F → Column F
  | ⟨dtype, [value]⟩ => scalar name dtype value 1
  | s => series name s

def slice (c : Column F) (offset length : Nat) : Column F :=
  match c with
  | series name s => ofSeries name (s.slice offset length)
  | scalar name dtype value total => scalar name dtype value (min length (total - offset))

@[simp] theorem len_asMaterializedSeries (c : Column F) : c.asMaterializedSeries.len = c.len := by
  cases c with
  | series => rfl
  | scalar => simp [asMaterializedSeries, Series.len, len]

theorem name_ofSeries (name : String) (s : Series F) : (ofSeries name s).name = name := by
  unfold ofSeries
  split <;> rfl

theorem asMaterializedSeries_ofSeries (name : String) (s : Series F) :
    (ofSeries name s).asMaterializedSeries = s := by
  unfold ofSeries
  split <;> rfl

@[simp] theorem name_slice (c : Column F) (offset length : Nat) :
    (c.slice offset length).name = c.name := by
  cases c with
  | series => exact name_ofSeries _ _
  | scalar => rfl

theorem asMaterializedSeries_slice (c : Column F) (offset length : Nat) :
    (c.slice offset length).asMaterializedSeries = c.asMaterializedSeries.slice offset length := by
  cases c with
  | series => exact asMaterializedSeries_ofSeries _ _
  | scalar => simp [slice, asMaterializedSeries, Series.slice]

theorem len_slice (c : Column F) (offset length : Nat) :
    (c.slice offset length).len = min length (c.len - offset) := by
  rw [← len_asMaterializedSeries, asMaterializedSeries_slice, Series.len_slice,
    len_asMaterializedSeries]

end Column

/-- `DataFrame::new` rejects columns of another height and repeated names. -/
structure DataFrame (F : Type) where
  height : Nat
  columns : List (Column F)
  aligned : ∀ c ∈ columns, c.len = height
  distinct : (columns.map Column.name).Nodup

namespace DataFrame

variable {F : Type}

def column (df : DataFrame F) (name : String) : Option (Column F) :=
  df.columns.find? (·.name == name)

def width (df : DataFrame F) : Nat := df.columns.length

def slice (df : DataFrame F) (offset length : Nat) : DataFrame F where
  height := min length (df.height - offset)
  columns := df.columns.map (fun c => c.slice offset length)
  aligned := by
    intro c member
    obtain ⟨whole, source, rfl⟩ := List.mem_map.mp member
    rw [Column.len_slice, df.aligned whole source]
  distinct := by
    rw [List.map_map]
    have names : Column.name ∘ (fun c : Column F => c.slice offset length) = Column.name :=
      funext fun c => c.name_slice offset length
    rw [names]
    exact df.distinct

theorem column_mem (df : DataFrame F) (name : String) (c : Column F)
    (found : df.column name = some c) : c ∈ df.columns :=
  List.mem_of_find?_eq_some found

theorem column_len (df : DataFrame F) (name : String) (c : Column F)
    (found : df.column name = some c) : c.asMaterializedSeries.len = df.height := by
  rw [Column.len_asMaterializedSeries, df.aligned c (df.column_mem name c found)]

theorem column_slice (df : DataFrame F) (offset length : Nat) (name : String) :
    (df.slice offset length).column name =
      (df.column name).map (fun c => c.slice offset length) := by
  have names : (fun c : Column F => c.name == name) ∘ (fun c : Column F => c.slice offset length) =
      fun c : Column F => c.name == name := funext fun c => by simp
  simp only [column, slice, List.find?_map, names]

end DataFrame

end StatGuardian.Polars
