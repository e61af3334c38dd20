import Mathlib.Data.List.Induction
import StatGuardian.Library.KeyedValues

namespace Replay

open KeyedValues

variable {κ υ : Type*}

inductive Op (κ υ : Type*) where
  | put (key : κ) (value : υ)
  | drop (key : κ)
  deriving DecidableEq

namespace Op

def key : Op κ υ → κ
  | .put key _ => key
  | .drop key => key

def value? : Op κ υ → Option υ
  | .put _ value => some value
  | .drop _ => none

end Op

def lastWith (test : Op κ υ → Bool) (ops : List (Op κ υ)) : Option (Op κ υ) := ops.reverse.find? test

theorem lastWith_append_singleton (test : Op κ υ → Bool) (ops : List (Op κ υ)) (op : Op κ υ) :
    lastWith test (ops ++ [op]) = if test op then some op else lastWith test ops := by
  simp only [lastWith, List.reverse_append, List.reverse_singleton, List.singleton_append,
    List.find?_cons]
  cases test op <;> rfl

theorem mem_of_lastWith {test : Op κ υ → Bool} {ops : List (Op κ υ)} {op : Op κ υ}
    (last : lastWith test ops = some op) : op ∈ ops ∧ test op = true :=
  ⟨List.mem_reverse.mp (List.mem_of_find?_eq_some last), List.find?_some last⟩

theorem lastWith_of_narrower {test narrow : Op κ υ → Bool} {ops : List (Op κ υ)} {op : Op κ υ}
    (implies : ∀ op, narrow op = true → test op = true) (last : lastWith test ops = some op)
    (belongs : narrow op = true) : lastWith narrow ops = some op := by
  obtain ⟨_, before, after, split, none⟩ := List.find?_eq_some_iff_append.mp last
  refine List.find?_eq_some_iff_append.mpr ⟨belongs, before, after, split, ?_⟩
  intro earlier member
  have fails := none earlier member
  rw [Bool.not_eq_true'] at fails ⊢
  exact Bool.eq_false_iff.mpr fun holds => Bool.eq_false_iff.mp fails (implies earlier holds)

variable [DecidableEq κ]

def apply (m : Map κ υ) : Op κ υ → Map κ υ
  | .put key value => m.insert key value
  | .drop key => m.erase key

def replay (ops : List (Op κ υ)) : Map κ υ := ops.foldl apply ∅

def lastOn (key : κ) (ops : List (Op κ υ)) : Option (Op κ υ) :=
  lastWith (fun op => decide (op.key = key)) ops

theorem get_apply (m : Map κ υ) (op : Op κ υ) (key : κ) :
    get (apply m op) key = if op.key = key then op.value? else get m key := by
  cases op with
  | put k v =>
    change AList.lookup key (m.insert k v) = if k = key then some v else AList.lookup key m
    by_cases same : k = key
    · rw [if_pos same, same, AList.lookup_insert]
    · rw [if_neg same, AList.lookup_insert_ne (Ne.symm same)]
  | drop k =>
    change AList.lookup key (m.erase k) = if k = key then none else AList.lookup key m
    by_cases same : k = key
    · rw [if_pos same, same, AList.lookup_erase]
    · rw [if_neg same, AList.lookup_erase_ne (Ne.symm same)]

/-- What a replay leaves under a key is what the last operation on the key put there. -/
theorem get_replay (ops : List (Op κ υ)) (key : κ) :
    get (replay ops) key = (lastOn key ops).bind Op.value? := by
  induction ops using List.reverseRecOn with
  | nil => rfl
  | append_singleton ops op ih =>
    rw [replay, List.foldl_append, List.foldl_cons, List.foldl_nil, get_apply, lastOn,
      lastWith_append_singleton]
    by_cases same : op.key = key
    · rw [if_pos same, if_pos (decide_eq_true same)]
      rfl
    · rw [if_neg same, if_neg (by simpa using same)]
      exact ih

theorem get_replay_eq_some_iff (ops : List (Op κ υ)) (key : κ) (value : υ) :
    get (replay ops) key = some value ↔ lastOn key ops = some (.put key value) := by
  rw [get_replay]
  constructor
  · intro found
    obtain ⟨op, last, holds⟩ := Option.bind_eq_some_iff.mp found
    have same := of_decide_eq_true (mem_of_lastWith last).2
    cases op with
    | drop => cases holds
    | put k v =>
      obtain rfl := Option.some.inj holds
      obtain rfl : k = key := same
      exact last
  · intro last
    rw [last]
    rfl

theorem mem_values_iff (m : Map κ υ) (v : υ) : v ∈ values m ↔ ∃ key, get m key = some v := by
  rw [values, List.mem_map]
  constructor
  · rintro ⟨⟨key, value⟩, member, rfl⟩
    exact ⟨key, AList.mem_lookup_iff.mpr member⟩
  · rintro ⟨key, found⟩
    exact ⟨⟨key, v⟩, mem_of_get found, rfl⟩

theorem values_nodup_iff (m : Map κ υ) :
    (values m).Nodup ↔ ∀ key key' v, get m key = some v → get m key' = some v → key = key' := by
  have keyed : (m.entries.map Sigma.fst).Nodup := m.nodupKeys
  rw [values]
  constructor
  · intro distinct key key' v found found'
    have same := List.inj_on_of_nodup_map distinct (mem_of_get found) (mem_of_get found') rfl
    exact (Sigma.mk.inj same).1
  · intro apart
    apply List.Nodup.map_on _ (List.Nodup.of_map _ keyed)
    rintro ⟨key, v⟩ member ⟨key', v'⟩ member' rfl
    obtain rfl := apart key key' v (AList.mem_lookup_iff.mpr member) (AList.mem_lookup_iff.mpr member')
    rfl

end Replay
