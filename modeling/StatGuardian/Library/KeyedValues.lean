import Mathlib.Data.List.AList
import Mathlib.Data.List.Perm.Basic

namespace KeyedValues

variable {κ υ : Type*}

abbrev Map (κ υ : Type*) := AList (fun _ : κ => υ)

def values (m : Map κ υ) : List υ := m.entries.map Sigma.snd

def retain (keep : υ → Bool) (m : Map κ υ) : Map κ υ :=
  ⟨m.entries.filter (fun entry => keep entry.2), m.nodupKeys.sublist List.filter_sublist⟩

theorem mem_retain (keep : υ → Bool) (m : Map κ υ) (entry : Sigma fun _ : κ => υ) :
    entry ∈ (retain keep m).entries ↔ entry ∈ m.entries ∧ keep entry.2 = true := by
  simp [retain]

theorem values_retain (keep : υ → Bool) (m : Map κ υ) :
    values (retain keep m) = (values m).filter keep := by
  rw [values, values, retain, List.filter_map]
  rfl

theorem values_perm (keep : υ → Bool) (m : Map κ υ) :
    (values m).Perm (values (retain keep m) ++ (values m).filter (fun v => !keep v)) := by
  rw [values_retain]
  exact (List.filter_append_perm keep (values m)).symm

def mapValues {ω : Type*} (f : υ → ω) (m : Map κ υ) : Map κ ω where
  entries := m.entries.map (fun entry => ⟨entry.1, f entry.2⟩)
  nodupKeys := by
    have same : (m.entries.map (fun entry => (⟨entry.1, f entry.2⟩ : Sigma fun _ : κ => ω))).keys =
        m.entries.keys := List.map_map
    rw [List.NodupKeys, same]
    exact m.nodupKeys

variable [DecidableEq κ]

def get (m : Map κ υ) (key : κ) : Option υ := m.lookup key

theorem get_insert (m : Map κ υ) (key : κ) (v : υ) : get (m.insert key v) key = some v :=
  AList.lookup_insert m

theorem exists_get {m : Map κ υ} {key : κ} (known : key ∈ m) : ∃ v, get m key = some v :=
  Option.isSome_iff_exists.mp (AList.lookup_isSome.mpr known)

theorem known_of_get {m : Map κ υ} {key : κ} {v : υ} (found : get m key = some v) : key ∈ m :=
  AList.lookup_isSome.mp (Option.isSome_iff_exists.mpr ⟨v, found⟩)

theorem mem_of_get {m : Map κ υ} {key : κ} {v : υ} (found : get m key = some v) :
    ⟨key, v⟩ ∈ m.entries :=
  AList.mem_lookup_iff.mp found

theorem values_insert_new {m : Map κ υ} {key : κ} (fresh : key ∉ m) (v : υ) :
    values (m.insert key v) = v :: values m := by
  rw [values, AList.entries_insert_of_notMem fresh]
  rfl

theorem values_insert_known {m : Map κ υ} {key : κ} {old : υ} (known : get m key = some old)
    (v : υ) : ∃ rest, (values m).Perm (old :: rest) ∧ (values (m.insert key v)).Perm (v :: rest) := by
  have present : key ∈ m.entries.keys := List.mem_map.mpr ⟨_, mem_of_get known, rfl⟩
  obtain ⟨b, before, after, absent, cut, erased⟩ := List.exists_of_kerase present
  have same : b = old := by
    have found : get m key = some b := AList.mem_lookup_iff.mpr (by rw [cut]; simp)
    rw [known] at found
    exact (Option.some.inj found).symm
  subst same
  refine ⟨(before ++ after).map Sigma.snd, ?_, ?_⟩
  · rw [values, cut, List.map_append, List.map_append, List.map_cons]
    exact List.perm_middle
  · rw [values, AList.entries_insert, erased]
    exact .refl _

theorem mem_insert {m : Map κ υ} {key : κ} {v : υ} {entry : Sigma fun _ : κ => υ}
    (member : entry ∈ (m.insert key v).entries) : entry = ⟨key, v⟩ ∨ entry ∈ m.entries := by
  rw [AList.entries_insert] at member
  rcases List.mem_cons.mp member with rfl | older
  · exact .inl rfl
  · exact .inr ((List.kerase_sublist key m.entries).subset older)

end KeyedValues
