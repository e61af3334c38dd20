import StatGuardian.Library.Replay

namespace MapDiff

open KeyedValues Replay

variable {κ υ : Type*}

/-- What is under a key before and after. -/
structure Change (κ υ : Type*) where
  key : κ
  before : Option υ
  after : Option υ
  deriving DecidableEq

namespace Change

def swap (c : Change κ υ) : Change κ υ := ⟨c.key, c.after, c.before⟩

def op (c : Change κ υ) : Op κ υ :=
  match c.after with
  | some value => .put c.key value
  | none => .drop c.key

theorem key_op (c : Change κ υ) : c.op.key = c.key := by
  unfold op
  split <;> rfl

theorem value_op (c : Change κ υ) : c.op.value? = c.after := by
  unfold op
  split
  · rename_i value known
    exact known.symm
  · rename_i gone
    exact gone.symm

end Change

variable [DecidableEq κ]

/-- The list has the keys on which the maps differ, each once, with both values. -/
structure Describes (old new : Map κ υ) (changes : List (Change κ υ)) : Prop where
  once : (changes.map Change.key).Nodup
  exact_ : ∀ c, c ∈ changes ↔
    c.before = get old c.key ∧ c.after = get new c.key ∧ get old c.key ≠ get new c.key

def patch (changes : List (Change κ υ)) (m : Map κ υ) : Map κ υ :=
  changes.foldl (fun m c => apply m c.op) m

theorem get_patch_of_absent (changes : List (Change κ υ)) (m : Map κ υ) (key : κ)
    (absent : key ∉ changes.map Change.key) : get (patch changes m) key = get m key := by
  induction changes generalizing m with
  | nil => rfl
  | cons c rest ih =>
    rw [List.map_cons, List.mem_cons, not_or] at absent
    rw [patch, List.foldl_cons]
    refine (ih _ absent.2).trans ?_
    rw [get_apply, Change.key_op, if_neg (Ne.symm absent.1)]

theorem get_patch_of_mem (changes : List (Change κ υ)) (m : Map κ υ) (c : Change κ υ)
    (once : (changes.map Change.key).Nodup) (member : c ∈ changes) :
    get (patch changes m) c.key = c.after := by
  induction changes generalizing m with
  | nil => cases member
  | cons d rest ih =>
    rw [List.map_cons, List.nodup_cons] at once
    rw [patch, List.foldl_cons]
    rcases List.mem_cons.mp member with rfl | later
    · refine (get_patch_of_absent rest _ _ once.1).trans ?_
      rw [get_apply, Change.key_op, if_pos rfl, Change.value_op]
    · exact ih _ once.2 later

theorem get_patch {old new : Map κ υ} {changes : List (Change κ υ)}
    (describes : Describes old new changes) (key : κ) :
    get (patch changes old) key = get new key := by
  by_cases changed : get old key = get new key
  · rw [get_patch_of_absent, changed]
    intro mentioned
    obtain ⟨c, member, rfl⟩ := List.mem_map.mp mentioned
    exact ((describes.exact_ c).mp member).2.2 changed
  · have member : ⟨key, get old key, get new key⟩ ∈ changes :=
      (describes.exact_ _).mpr ⟨rfl, rfl, changed⟩
    exact get_patch_of_mem changes old ⟨key, get old key, get new key⟩ describes.once member

theorem Describes.swap {old new : Map κ υ} {changes : List (Change κ υ)}
    (describes : Describes old new changes) : Describes new old (changes.map Change.swap) where
  once := by
    rw [List.map_map]
    exact describes.once
  exact_ := by
    intro c
    have swapped : c ∈ changes.map Change.swap ↔ c.swap ∈ changes := by
      constructor
      · intro member
        obtain ⟨d, inside, rfl⟩ := List.mem_map.mp member
        exact inside
      · intro inside
        exact List.mem_map.mpr ⟨c.swap, inside, rfl⟩
    rw [swapped, describes.exact_]
    constructor
    · intro ⟨before, after, differs⟩
      exact ⟨after, before, Ne.symm differs⟩
    · intro ⟨before, after, differs⟩
      exact ⟨after, before, Ne.symm differs⟩

theorem Describes.perm {old new : Map κ υ} {changes others : List (Change κ υ)}
    (describes : Describes old new changes) (also : Describes old new others) :
    changes.Perm others := by
  rw [List.perm_ext_iff_of_nodup (describes.once.of_map _) (also.once.of_map _)]
  intro c
  rw [describes.exact_, also.exact_]

end MapDiff
