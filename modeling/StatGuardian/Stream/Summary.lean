import StatGuardian.Library.LastPart
import StatGuardian.Stream.Positions
import Mathlib.Algebra.GroupWithZero.Nat

namespace StatGuardian.Stream

namespace SanitizationSummary

def count (map : List (String × Nat)) (key : String) : Nat := (map.lookup key).getD 0

def total (map : List (String × Nat)) : Nat := (map.map Prod.snd).sum

def Ordered (map : List (String × Nat)) : Prop :=
  map.Pairwise (fun entry later => compare entry.1 later.1 = .lt)

theorem total_bump (key : String) (map : List (String × Nat)) :
    total (bump key map) = total map + 1 := by
  induction map with
  | nil => rfl
  | cons entry rest ih =>
    obtain ⟨k, n⟩ := entry
    rw [bump]
    unfold total at ih ⊢
    split <;> simp only [List.map_cons, List.sum_cons, ih] <;> omega

theorem mem_bump {key : String} {map : List (String × Nat)} {entry : String × Nat}
    (member : entry ∈ bump key map) : entry.1 = key ∨ ∃ old ∈ map, old.1 = entry.1 := by
  induction map with
  | nil =>
    rw [List.mem_singleton.mp member]
    exact .inl rfl
  | cons first rest ih =>
    obtain ⟨k, n⟩ := first
    rw [bump] at member
    split at member
    · rcases List.mem_cons.mp member with rfl | old
      · exact .inl rfl
      · exact .inr ⟨entry, old, rfl⟩
    · rcases List.mem_cons.mp member with rfl | old
      · exact .inr ⟨(k, n), List.mem_cons_self .., rfl⟩
      · exact .inr ⟨entry, List.mem_cons_of_mem _ old, rfl⟩
    · rcases List.mem_cons.mp member with rfl | later
      · exact .inr ⟨(k, n), List.mem_cons_self .., rfl⟩
      · rcases ih later with same | ⟨old, there, same⟩
        · exact .inl same
        · exact .inr ⟨old, List.mem_cons_of_mem _ there, same⟩

theorem ordered_bump {map : List (String × Nat)} (ordered : Ordered map) (key : String) :
    Ordered (bump key map) := by
  induction map with
  | nil => exact List.pairwise_singleton _ _
  | cons first rest ih =>
    obtain ⟨k, n⟩ := first
    obtain ⟨below, inner⟩ := List.pairwise_cons.mp ordered
    rw [bump]
    split
    · rename_i front
      refine List.pairwise_cons.mpr ⟨?_, ordered⟩
      intro entry member
      rcases List.mem_cons.mp member with rfl | later
      · exact front
      · exact Std.TransCmp.lt_trans front (below entry later)
    · exact List.pairwise_cons.mpr ⟨below, inner⟩
    · rename_i behind
      refine List.pairwise_cons.mpr ⟨?_, ih inner⟩
      intro entry member
      rcases mem_bump member with same | ⟨old, there, same⟩
      · rw [same]
        exact Std.OrientedCmp.gt_iff_lt.mp behind
      · rw [← same]
        exact below old there

theorem count_cons (k : String) (n : Nat) (rest : List (String × Nat)) (key : String) :
    count ((k, n) :: rest) key = if key = k then n else count rest key := by
  rw [count, List.lookup_cons]
  by_cases same : key = k
  · rw [if_pos same, same, beq_self_eq_true]
    rfl
  · rw [if_neg same, beq_eq_false_iff_ne.mpr same]
    rfl

theorem count_of_below {map : List (String × Nat)} {key : String}
    (below : ∀ entry ∈ map, compare key entry.1 = .lt) : count map key = 0 := by
  induction map with
  | nil => rfl
  | cons first rest ih =>
    have apart : key ≠ first.1 := by
      intro same
      have front := below first (List.mem_cons_self ..)
      rw [same, Std.compare_self] at front
      cases front
    rw [count_cons, if_neg apart]
    exact ih (fun entry member => below entry (List.mem_cons_of_mem _ member))

theorem count_bump {map : List (String × Nat)} (ordered : Ordered map) (key other : String) :
    count (bump key map) other = count map other + if other = key then 1 else 0 := by
  induction map with
  | nil =>
    rw [bump, count_cons]
    split <;> rfl
  | cons first rest ih =>
    obtain ⟨k, n⟩ := first
    obtain ⟨below, inner⟩ := List.pairwise_cons.mp ordered
    rw [bump]
    split
    · rename_i front
      rw [count_cons]
      split
      · rename_i same
        have fresh : count ((k, n) :: rest) other = 0 := by
          apply count_of_below
          intro entry member
          rw [same]
          rcases List.mem_cons.mp member with rfl | later
          · exact front
          · exact Std.TransCmp.lt_trans front (below entry later)
        rw [fresh]
      · rfl
    · rename_i same
      obtain rfl := Std.LawfulEqOrd.eq_of_compare same
      rw [count_cons, count_cons]
      split <;> rfl
    · rename_i behind
      rw [count_cons, count_cons, ih inner]
      split
      · rename_i same
        have apart : other ≠ key := by
          rintro rfl
          rw [same, Std.compare_self] at behind
          cases behind
        rw [if_neg apart, Nat.add_zero]
      · rfl

structure Tallies (events : List SanitizationEvent) (summary : SanitizationSummary) : Prop where
  all : summary.totalEvents = events.length
  kinds : total summary.byKind = events.length
  fields : total summary.byField = events.length
  ordered : Ordered summary.byField
  field : ∀ name, count summary.byField name =
    events.countP (fun event => leaf event.path == name)

theorem tallies_empty : Tallies [] empty :=
  ⟨rfl, rfl, rfl, .nil, fun _ => rfl⟩

theorem Tallies.record {events : List SanitizationEvent} {summary : SanitizationSummary}
    (tallies : Tallies events summary) (event : SanitizationEvent) :
    Tallies (events ++ [event]) (summary.record event) where
  all := by
    rw [List.length_append]
    exact congrArg (· + 1) tallies.all
  kinds := by
    rw [SanitizationSummary.record, total_bump, tallies.kinds, List.length_append]
    rfl
  fields := by
    rw [SanitizationSummary.record, total_bump, tallies.fields, List.length_append]
    rfl
  ordered := ordered_bump tallies.ordered _
  field name := by
    rw [SanitizationSummary.record, count_bump tallies.ordered, tallies.field name,
      List.countP_append, List.countP_singleton]
    simp only [beq_iff_eq, @eq_comm _ name]

def recordAll (events : List SanitizationEvent) : SanitizationSummary := events.foldl record empty

theorem tallies_recordAll (events : List SanitizationEvent) : Tallies events (recordAll events) := by
  suffices run : ∀ done summary, Tallies done summary →
      Tallies (done ++ events) (events.foldl record summary) from run [] empty tallies_empty
  induction events with
  | nil =>
    intro done summary tallies
    rw [List.append_nil]
    exact tallies
  | cons event rest ih =>
    intro done summary tallies
    have next := ih (done ++ [event]) (summary.record event) (tallies.record event)
    rwa [List.append_assoc, List.singleton_append] at next

end SanitizationSummary

/-- A value holds another one at a position. -/
inductive Value.Holds : Value → Position → Value → Prop where
  | here (value : Value) : Value.Holds value [] value
  | field {fields : List (String × Value)} {key : String} {child inner : Value} {rest : Position} :
      (key, child) ∈ fields → Value.Holds child rest inner →
      Value.Holds (.object fields) (.key key :: rest) inner
  | item {items : List Value} {i : Nat} {child inner : Value} {rest : Position} :
      items[i]? = some child → Value.Holds child rest inner →
      Value.Holds (.array items) (.index i :: rest) inner

namespace Sanitizer

variable (env : TextEnv) (sanitizer : Sanitizer)

/-- A change with the object key whose value it changes. -/
structure Change where
  parent : Position
  key : String
  kind : SanitizationKind

def Change.event (change : Change) : SanitizationEvent :=
  ⟨childPath (render change.parent) change.key, change.kind⟩

def stringKinds (key s : String) : List SanitizationKind :=
  (if trimmed sanitizer key s = s then [] else [.trimmed]) ++
  (if lowercased env sanitizer key (trimmed sanitizer key s) = trimmed sanitizer key s then []
    else [.lowercased]) ++
  (if normalForm env sanitizer key s = lowercased env sanitizer key (trimmed sanitizer key s) then []
    else [.uppercased])

/-- The kinds of change that the value under a key undergoes itself. -/
def kindsAt (key : String) (child : Value) : List SanitizationKind :=
  match sanitizer.redactionFor key with
  | some strategy => [(redact env strategy child).2]
  | none =>
    match child with
    | .string s => stringKinds env sanitizer key s
    | _ => []

mutual

def changes (parent : Position) : Value → List Change
  | .object fields => changesFields parent fields
  | .array items => if sanitizer.recursive then changesItems parent 0 items else []
  | _ => []

def changesFields (parent : Position) : List (String × Value) → List Change
  | [] => []
  | (key, child) :: rest =>
    (kindsAt env sanitizer key child).map (fun kind => ⟨parent, key, kind⟩) ++
      (if sanitizer.recursive && !sanitizer.redacts key then
        changes (parent ++ [.key key]) child else []) ++
      changesFields parent rest

def changesItems (parent : Position) (i : Nat) : List Value → List Change
  | [] => []
  | child :: rest => changes (parent ++ [.index i]) child ++ changesItems parent (i + 1) rest

end

variable {env sanitizer}

theorem render_key (parent : Position) (key : String) :
    render (parent ++ [.key key]) = childPath (render parent) key :=
  renderFrom_append "" parent [.key key]

theorem render_index (parent : Position) (i : Nat) :
    render (parent ++ [.index i]) = s!"{render parent}[{i}]" :=
  renderFrom_append "" parent [.index i]

theorem stringKinds_events (key s path : String) :
    (normalizeString env sanitizer key path s).2 =
      (stringKinds env sanitizer key s).map (fun kind => ⟨path, kind⟩) := by
  rw [normalizeString_eq, stringKinds]
  simp only [List.map_append]
  congr 1
  · congr 1
    all_goals split <;> rfl
  · split <;> rfl

theorem kindsAt_redacted {key : String} {strategy : RedactionStrategy}
    (found : sanitizer.redactionFor key = some strategy) (child : Value) :
    kindsAt env sanitizer key child = [(redact env strategy child).2] := by
  simp only [kindsAt, found]

theorem kindsAt_string {key : String} (free : sanitizer.redactionFor key = none) (s : String) :
    kindsAt env sanitizer key (.string s) = stringKinds env sanitizer key s := by
  simp only [kindsAt, free]

theorem kindsAt_other {key : String} (free : sanitizer.redactionFor key = none) {child : Value}
    (other : ∀ s, child ≠ .string s) : kindsAt env sanitizer key child = [] := by
  cases child with
  | string s => exact absurd rfl (other s)
  | _ => simp only [kindsAt, free]

mutual

theorem walk_events (parent : Position) : (value : Value) →
    (walk env sanitizer (render parent) value).2 = (changes env sanitizer parent value).map Change.event
  | .object fields => walkFields_events parent fields
  | .array items => by
    rw [walk, changes]
    split
    · exact walkItems_events parent 0 items
    · rfl
  | .null => rfl
  | .bool _ => rfl
  | .number _ => rfl
  | .string _ => rfl

theorem walkFields_events (parent : Position) : (fields : List (String × Value)) →
    (walkFields env sanitizer (render parent) fields).2 =
      (changesFields env sanitizer parent fields).map Change.event
  | [] => rfl
  | (key, child) :: rest => by
    have inner := walk_events (parent ++ [.key key]) child
    have entry : (walkEntry env sanitizer (render parent) key child).2 =
        ((kindsAt env sanitizer key child).map (fun kind => Change.mk parent key kind) ++
          (if sanitizer.recursive && !sanitizer.redacts key then
            changes env sanitizer (parent ++ [.key key]) child else [])).map Change.event := by
      cases found : sanitizer.redactionFor key with
      | some strategy =>
        have redacted : sanitizer.redacts key = true := by rw [redacts, found]; rfl
        rw [walkEntry_redacted found, redacted, kindsAt_redacted found, Bool.not_true,
          Bool.and_false]
        rfl
      | none =>
        have free : sanitizer.redacts key = false := by rw [redacts, found]; rfl
        rw [free, Bool.not_false, Bool.and_true]
        by_cases text : ∃ s, child = .string s
        · obtain ⟨s, rfl⟩ := text
          rw [walkEntry_string found, stringKinds_events, kindsAt_string found,
            show changes env sanitizer (parent ++ [.key key]) (.string s) = [] from rfl, ite_self,
            List.append_nil, List.map_map]
          rfl
        · have other : ∀ s, child ≠ .string s := fun s same => text ⟨s, same⟩
          rw [walkEntry_other found _ other, kindsAt_other found other]
          rw [render_key] at inner
          split
          · exact inner
          · rfl
    rw [walkFields_cons, changesFields, List.map_append, entry, walkFields_events parent rest]

theorem walkItems_events (parent : Position) (i : Nat) : (items : List Value) →
    (walkItems env sanitizer (render parent) i items).2 =
      (changesItems env sanitizer parent i items).map Change.event
  | [] => rfl
  | child :: rest => by
    have inner := walk_events (parent ++ [.index i]) child
    rw [render_index] at inner
    rw [walkItems, changesItems, List.map_append, ← inner, ← walkItems_events parent (i + 1) rest]

end

section Sources

theorem mem_changesFields_iff {parent : Position} {fields : List (String × Value)}
    {change : Change} :
    change ∈ changesFields env sanitizer parent fields ↔
      ∃ key child, (key, child) ∈ fields ∧
        ((change.parent = parent ∧ change.key = key ∧ change.kind ∈ kindsAt env sanitizer key child) ∨
          (sanitizer.recursive = true ∧ sanitizer.redacts key = false ∧
            change ∈ changes env sanitizer (parent ++ [.key key]) child)) := by
  induction fields with
  | nil => simp [changesFields]
  | cons field rest ih =>
    obtain ⟨key, child⟩ := field
    rw [changesFields, List.mem_append, List.mem_append, ih]
    have here : change ∈ (kindsAt env sanitizer key child).map (fun kind => Change.mk parent key kind) ↔
        change.parent = parent ∧ change.key = key ∧ change.kind ∈ kindsAt env sanitizer key child := by
      rw [List.mem_map]
      constructor
      · rintro ⟨kind, member, rfl⟩
        exact ⟨rfl, rfl, member⟩
      · rintro ⟨rfl, rfl, member⟩
        exact ⟨change.kind, member, rfl⟩
    have below : change ∈ (if sanitizer.recursive && !sanitizer.redacts key then
          changes env sanitizer (parent ++ [.key key]) child else []) ↔
        sanitizer.recursive = true ∧ sanitizer.redacts key = false ∧
          change ∈ changes env sanitizer (parent ++ [.key key]) child := by
      split
      · rename_i open_
        rw [Bool.and_eq_true, Bool.not_eq_true'] at open_
        exact ⟨fun member => ⟨open_.1, open_.2, member⟩, fun both => both.2.2⟩
      · rename_i closed
        rw [Bool.and_eq_true, Bool.not_eq_true'] at closed
        exact ⟨nofun, fun both => absurd ⟨both.1, both.2.1⟩ closed⟩
    rw [here, below]
    constructor
    · rintro (first | ⟨key', child', member, found⟩)
      · exact ⟨key, child, List.mem_cons_self .., first⟩
      · exact ⟨key', child', List.mem_cons_of_mem _ member, found⟩
    · rintro ⟨key', child', member, found⟩
      rcases List.mem_cons.mp member with same | member
      · cases same
        exact .inl found
      · exact .inr ⟨key', child', member, found⟩

theorem mem_changesItems_iff {parent : Position} {start : Nat} {items : List Value}
    {change : Change} :
    change ∈ changesItems env sanitizer parent start items ↔
      ∃ i child, items[i]? = some child ∧
        change ∈ changes env sanitizer (parent ++ [.index (start + i)]) child := by
  induction items generalizing start with
  | nil => simp [changesItems]
  | cons first rest ih =>
    rw [changesItems, List.mem_append, ih]
    constructor
    · rintro (member | ⟨i, child, found, member⟩)
      · exact ⟨0, first, rfl, member⟩
      · refine ⟨i + 1, child, found, ?_⟩
        rwa [show start + (i + 1) = start + 1 + i by omega]
    · rintro ⟨i, child, found, member⟩
      cases i with
      | zero =>
        cases found
        exact .inl member
      | succ i =>
        refine .inr ⟨i, child, found, ?_⟩
        rwa [show start + 1 + i = start + (i + 1) by omega]

/-- Where a change comes from: a key that no redacted key leads to. -/
theorem mem_changes {value : Value} {parent : Position} {change : Change}
    (member : change ∈ changes env sanitizer parent value) :
    ∃ below child, change.parent = parent ++ below ∧
      value.Holds (below ++ [.key change.key]) child ∧
      (below = [] ∨ sanitizer.recursive = true) ∧
      (∀ step ∈ below, sanitizer.redactsStep step = false) ∧
      change.kind ∈ kindsAt env sanitizer change.key child := by
  match value with
  | .object fields =>
    rw [changes] at member
    obtain ⟨key, child, entry, ⟨same, rfl, kind⟩ | ⟨deep, free, inner⟩⟩ :=
      mem_changesFields_iff.mp member
    · exact ⟨[], child, by rw [same, List.append_nil], .field entry (.here child), .inl rfl, nofun, kind⟩
    · obtain ⟨below, source, same, holds, _, clear, kind⟩ := mem_changes inner
      refine ⟨.key key :: below, source, ?_, .field entry holds, .inr deep, ?_, kind⟩
      · rw [same, List.append_assoc, List.singleton_append]
      · intro step there
        rcases List.mem_cons.mp there with rfl | there
        · exact free
        · exact clear step there
  | .array items =>
    rw [changes] at member
    split at member
    · rename_i deep
      obtain ⟨i, child, entry, inner⟩ := mem_changesItems_iff.mp member
      rw [Nat.zero_add] at inner
      obtain ⟨below, source, same, holds, _, clear, kind⟩ := mem_changes inner
      refine ⟨.index i :: below, source, ?_, .item entry holds, .inr deep, ?_, kind⟩
      · rw [same, List.append_assoc, List.singleton_append]
      · intro step there
        rcases List.mem_cons.mp there with rfl | there
        · rfl
        · exact clear step there
    · cases member
  | .null => cases member
  | .bool _ => cases member
  | .number _ => cases member
  | .string _ => cases member
termination_by sizeOf value
decreasing_by
  · have smaller := List.sizeOf_lt_of_mem entry
    simp only [Prod.mk.sizeOf_spec] at smaller
    simp only [Value.object.sizeOf_spec]
    omega
  · have smaller := List.sizeOf_lt_of_mem (List.mem_of_getElem? entry)
    simp only [Value.array.sizeOf_spec]
    omega

theorem mem_changes_of_holds {below : Position} {value child : Value} {key : String}
    {kind : SanitizationKind} (holds : value.Holds (below ++ [.key key]) child)
    (reached : below = [] ∨ sanitizer.recursive = true)
    (free : ∀ step ∈ below, sanitizer.redactsStep step = false)
    (changed : kind ∈ kindsAt env sanitizer key child) (parent : Position) :
    ⟨parent ++ below, key, kind⟩ ∈ changes env sanitizer parent value := by
  induction below generalizing value parent with
  | nil =>
    cases holds with
    | field entry rest =>
      cases rest
      rw [changes, List.append_nil]
      exact mem_changesFields_iff.mpr ⟨key, child, entry, .inl ⟨rfl, rfl, changed⟩⟩
  | cons step below ih =>
    have deep : sanitizer.recursive = true := reached.resolve_left nofun
    have clear := fun step member => free step (List.mem_cons_of_mem _ member)
    cases holds with
    | @field fields name inner _ _ entry rest =>
      have member := ih rest (.inr deep) clear (parent ++ [.key name])
      rw [List.append_assoc, List.singleton_append] at member
      rw [changes]
      exact mem_changesFields_iff.mpr ⟨name, inner, entry,
        .inr ⟨deep, free (.key name) (List.mem_cons_self ..), member⟩⟩
    | @item items i inner _ _ entry rest =>
      have member := ih rest (.inr deep) clear (parent ++ [.index i])
      rw [List.append_assoc, List.singleton_append] at member
      rw [changes, if_pos deep]
      refine mem_changesItems_iff.mpr ⟨i, inner, entry, ?_⟩
      rwa [Nat.zero_add]

end Sources

section Leaves

open SanitizationSummary LastPart

def isSeparator (c : Char) : Bool := c == '.' || c == '['

def Plain (key : String) : Prop := key ≠ "" ∧ ∀ c ∈ key.toList, isSeparator c = false

theorem leaf_eq (path : String) :
    leaf path = ((lastPart isSeparator path.toList).map String.ofList).getD path := rfl

theorem plain_of_lastPart {items : List Char} {part : List Char}
    (found : lastPart isSeparator items = some part) : Plain (String.ofList part) := by
  obtain ⟨nonempty, plain⟩ := lastPart_some isSeparator found
  refine ⟨?_, by rwa [String.toList_ofList]⟩
  intro empty
  exact nonempty (by simpa using congrArg String.toList empty)

theorem childPath_toList {path : String} (inner : path ≠ "") (key : String) :
    (childPath path key).toList = path.toList ++ '.' :: key.toList := by
  have filled : path.isEmpty = false := by
    rw [Bool.eq_false_iff]
    exact fun empty => inner (String.isEmpty_iff.mp empty)
  rw [childPath, filled, if_neg Bool.false_ne_true]
  simp [toString, String.toList_append]

theorem childPath_empty (key : String) : childPath "" key = key := rfl

theorem leaf_plain {key : String} (plain : Plain key) (path : String) :
    leaf (childPath path key) = key := by
  have last : lastPart isSeparator key.toList = some key.toList := by
    apply lastPart_plain isSeparator _ plain.2
    exact fun empty => plain.1 (String.toList_eq_nil_iff.mp empty)
  by_cases top : path = ""
  · rw [top, childPath_empty, leaf_eq, last]
    exact String.ofList_toList
  · rw [leaf_eq, childPath_toList top, lastPart_append_cons isSeparator _ _ rfl, last]
    exact String.ofList_toList

/-- What a path is attributed to: a plain name, the key itself at the top, or the whole path. -/
theorem leaf_cases (path key : String) :
    Plain (leaf (childPath path key)) ∨
      (path = "" ∧ (∀ c ∈ key.toList, isSeparator c = true) ∧ leaf (childPath path key) = key) ∨
      key.length < (leaf (childPath path key)).length := by
  cases last : lastPart isSeparator (childPath path key).toList with
  | some part =>
    left
    rw [leaf_eq, last]
    exact plain_of_lastPart last
  | none =>
    right
    have whole : leaf (childPath path key) = childPath path key := by rw [leaf_eq, last]; rfl
    rw [whole]
    by_cases top : path = ""
    · left
      rw [top, childPath_empty] at last
      exact ⟨top, (lastPart_eq_none_iff isSeparator _).mp last, by rw [top, childPath_empty]⟩
    · right
      rw [← String.length_toList, ← String.length_toList, childPath_toList top, List.length_append,
        List.length_cons]
      omega

theorem leaf_eq_iff (path key : String) :
    leaf (childPath path key) = key ↔
      Plain key ∨ (path = "" ∧ ∀ c ∈ key.toList, isSeparator c = true) := by
  constructor
  · intro same
    by_cases plain : Plain key
    · exact .inl plain
    · rcases leaf_cases path key with other | ⟨top, seps, _⟩ | longer
      · rw [same] at other
        exact .inl other
      · exact .inr ⟨top, seps⟩
      · rw [same] at longer
        exact absurd longer (Nat.lt_irrefl _)
  · rintro (plain | ⟨rfl, seps⟩)
    · exact leaf_plain plain path
    · rw [childPath_empty, leaf_eq, (lastPart_eq_none_iff isSeparator _).mpr seps]
      rfl

/-- Names that are given out as often as they are due, where a name that was given out wrongly is
    always due to a name of lower rank, are given out rightly. -/
theorem eq_of_counts {α : Type} {items : List α} {given due : α → String} (rank : String → Nat)
    (lower : ∀ x ∈ items, given x ≠ due x → ∀ y ∈ items, given y ≠ due y → given y = due x →
      rank (due y) < rank (due x))
    (agree : ∀ x ∈ items, items.countP (fun y => given y == due x) =
      items.countP (fun y => due y == due x)) :
    ∀ x ∈ items, given x = due x := by
  suffices below : ∀ bound, ∀ x ∈ items, rank (due x) < bound → given x = due x from
    fun x member => below _ x member (Nat.lt_succ_self _)
  intro bound
  induction bound with
  | zero => exact fun x _ impossible => absurd impossible (Nat.not_lt_zero _)
  | succ bound ih =>
    intro x member within
    by_contra wrong
    have inside : ∀ y ∈ items, given y = due x → due y = due x := by
      intro y there same
      by_contra other
      have wrongToo : given y ≠ due y := fun right => other (right.symm.trans same)
      have less := lower x member wrong y there wrongToo same
      exact wrongToo (ih y there (by omega))
    have sub : (items.filter (fun y => given y == due x && due y == due x)).Sublist
        (items.filter (fun y => due y == due x)) := by
      apply List.monotone_filter_right
      intro y both
      exact (Bool.and_eq_true_iff.mp both).2
    have both : items.countP (fun y => given y == due x && due y == due x) =
        items.countP (fun y => given y == due x) := by
      apply List.countP_congr
      intro y there
      rw [Bool.and_eq_true_iff, beq_iff_eq, beq_iff_eq]
      exact and_iff_left_of_imp (inside y there)
    have all := sub.eq_of_length (by
      rw [← List.countP_eq_length_filter, ← List.countP_eq_length_filter, both, agree x member])
    have listed : x ∈ items.filter (fun y => due y == due x) :=
      List.mem_filter.mpr ⟨member, beq_self_eq_true _⟩
    rw [← all, List.mem_filter, Bool.and_eq_true_iff, beq_iff_eq] at listed
    exact wrong listed.2.1

end Leaves

section Attribution

open SanitizationSummary

variable (env sanitizer)

def named (key : String) : Bool := sanitizer.redacts key || sanitizer.normalizes key

/-- What the walk reaches without a redacted key on the way and changes under a key. -/
def Changed (value : Value) (parent : Position) (key : String) : Prop :=
  ∃ child, value.Holds (parent ++ [.key key]) child ∧
    (parent = [] ∨ sanitizer.recursive = true) ∧
    (∀ step ∈ parent, sanitizer.redactsStep step = false) ∧ kindsAt env sanitizer key child ≠ []

def summaryOf (records : List Value) : SanitizationSummary :=
  recordAll (records.flatMap (fun value => (sanitizer.sanitize env value).2))

/-- The summary counts every event once in each map, and under the key that was changed. -/
structure Attributed (records : List Value) : Prop where
  kinds : (summaryOf env sanitizer records).totalEvents =
    SanitizationSummary.total (summaryOf env sanitizer records).byKind
  fields : (summaryOf env sanitizer records).totalEvents =
    SanitizationSummary.total (summaryOf env sanitizer records).byField
  field : ∀ name, sanitizer.named name = true →
    count (summaryOf env sanitizer records).byField name =
      (records.flatMap (changes env sanitizer [])).countP (fun change => change.key == name)

/-- The path of a change shows its key: as one part, or alone. -/
def Readable (parent : Position) (key : String) : Prop :=
  Plain key ∨ ((∀ step ∈ parent, step = .key "") ∧ ∀ c ∈ key.toList, isSeparator c = true)

variable {env sanitizer}

theorem renderFrom_ne_empty {path : String} (filled : path ≠ "") (position : Position) :
    renderFrom path position ≠ "" := by
  induction position generalizing path with
  | nil => exact filled
  | cons step rest ih =>
    cases step with
    | key name =>
      apply ih
      intro empty
      have chars := congrArg String.toList empty
      rw [childPath_toList filled] at chars
      simp at chars
    | index i =>
      apply ih
      intro empty
      have chars := congrArg String.toList empty
      simp [toString, String.toList_append] at chars

theorem render_eq_empty_iff (position : Position) :
    render position = "" ↔ ∀ step ∈ position, step = .key "" := by
  induction position with
  | nil => exact ⟨fun _ => nofun, fun _ => rfl⟩
  | cons step rest ih =>
    rw [List.forall_mem_cons, ← ih]
    constructor
    · intro empty
      cases step with
      | key name =>
        by_cases plain : name = ""
        · subst plain
          exact ⟨rfl, empty⟩
        · exact absurd empty (renderFrom_ne_empty plain rest)
      | index i =>
        refine absurd empty (renderFrom_ne_empty ?_ rest)
        intro none
        have chars := congrArg String.toList none
        simp [toString, String.toList_append] at chars
    · rintro ⟨rfl, empty⟩
      exact empty

theorem leaf_event_iff (change : Change) :
    leaf change.event.path = change.key ↔ Readable change.parent change.key := by
  rw [Change.event, leaf_eq_iff, render_eq_empty_iff]
  rfl

theorem stringKinds_of_unlisted {key : String} (unlisted : sanitizer.normalizes key = false)
    (s : String) : stringKinds env sanitizer key s = [] := by
  simp only [normalizes, Bool.or_eq_false_iff] at unlisted
  obtain ⟨⟨trim, lower⟩, upper⟩ := unlisted
  simp only [stringKinds, normalForm, trimmed, lowercased, uppercased, trim, lower, upper,
    Bool.false_eq_true, if_false, if_true, List.append_nil]

theorem named_of_kindsAt {key : String} {child : Value} {kind : SanitizationKind}
    (changed : kind ∈ kindsAt env sanitizer key child) : sanitizer.named key = true := by
  by_contra unnamed
  rw [Bool.not_eq_true, named, Bool.or_eq_false_iff] at unnamed
  have free : sanitizer.redactionFor key = none := by simpa [redacts] using unnamed.1
  by_cases text : ∃ s, child = .string s
  · obtain ⟨s, rfl⟩ := text
    rw [kindsAt_string free, stringKinds_of_unlisted unnamed.2] at changed
    cases changed
  · rw [kindsAt_other free (fun s same => text ⟨s, same⟩)] at changed
    cases changed

theorem sanitize_events (value : Value) :
    (sanitizer.sanitize env value).2 = (changes env sanitizer [] value).map Change.event := by
  cases noop : sanitizer.isNoop with
  | true =>
    have none : changes env sanitizer [] value = [] := by
      rw [List.eq_nil_iff_forall_not_mem]
      intro change member
      obtain ⟨_, _, _, _, _, _, changed⟩ := mem_changes member
      have listed := named_of_kindsAt changed
      rw [named, redacts, noop_redacts noop, noop_normalizes noop] at listed
      cases listed
    rw [sanitize, noop, if_pos rfl, none]
    rfl
  | false =>
    rw [sanitize, noop, if_neg Bool.false_ne_true]
    exact walk_events [] value

theorem changed_of_mem {value : Value} {change : Change}
    (member : change ∈ changes env sanitizer [] value) :
    Changed env sanitizer value change.parent change.key := by
  obtain ⟨below, child, same, holds, reached, free, changed⟩ := mem_changes member
  rw [List.nil_append] at same
  rw [same]
  exact ⟨child, holds, reached, free, List.ne_nil_of_mem changed⟩

theorem exists_mem_of_changed {value : Value} {parent : Position} {key : String}
    (changed : Changed env sanitizer value parent key) :
    ∃ kind, ⟨parent, key, kind⟩ ∈ changes env sanitizer [] value := by
  obtain ⟨child, holds, reached, free, nonempty⟩ := changed
  obtain ⟨kind, member⟩ := List.exists_mem_of_ne_nil _ nonempty
  exact ⟨kind, mem_changes_of_holds holds reached free member []⟩

theorem count_summaryOf (records : List Value) (name : String) :
    count (summaryOf env sanitizer records).byField name =
      (records.flatMap (changes env sanitizer [])).countP
        (fun change => leaf change.event.path == name) := by
  have events : records.flatMap (fun value => (sanitizer.sanitize env value).2) =
      (records.flatMap (changes env sanitizer [])).map Change.event := by
    rw [List.map_flatMap]
    simp only [sanitize_events]
  rw [summaryOf, (tallies_recordAll _).field name, events, List.countP_map]
  rfl

/-- Every event is counted under its field exactly where the paths show the keys. -/
theorem attributed_iff (records : List Value) :
    Attributed env sanitizer records ↔
      ∀ value ∈ records, ∀ parent key, Changed env sanitizer value parent key →
        Readable parent key := by
  have tallies := tallies_recordAll (records.flatMap (fun value => (sanitizer.sanitize env value).2))
  constructor
  · intro attributed value member parent key changed
    obtain ⟨kind, made⟩ := exists_mem_of_changed changed
    have right : ∀ change ∈ records.flatMap (changes env sanitizer []),
        leaf change.event.path = change.key := by
      apply eq_of_counts String.length
      · intro x _ wrong y _ wrongToo same
        have odd : ¬ Plain (leaf y.event.path) := by
          rw [same]
          exact fun plain => wrong (leaf_plain plain _)
        rcases leaf_cases (render y.parent) y.key with plain | ⟨_, _, kept⟩ | longer
        · exact absurd plain odd
        · exact absurd kept wrongToo
        · rw [← same]
          exact longer
      · intro x there
        obtain ⟨record, _, change⟩ := List.mem_flatMap.mp there
        obtain ⟨_, _, _, _, _, _, kinds⟩ := mem_changes change
        rw [← count_summaryOf]
        exact attributed.field x.key (named_of_kindsAt kinds)
    exact (leaf_event_iff _).mp (right _ (List.mem_flatMap.mpr ⟨value, member, made⟩))
  · intro readable
    refine ⟨tallies.all.trans tallies.kinds.symm, tallies.all.trans tallies.fields.symm, ?_⟩
    intro name _
    rw [count_summaryOf]
    apply List.countP_congr
    intro change member
    obtain ⟨value, there, made⟩ := List.mem_flatMap.mp member
    rw [(leaf_event_iff change).mpr (readable value there _ _ (changed_of_mem made))]

section DottedNames

/-- The values under `user.mail` are masked. -/
def dottedMail : Sanitizer := ⟨⟨[⟨"user.mail", .mask⟩], false⟩, ⟨[], [], [], false⟩⟩

def dottedRecord : Value := .object [("user.mail", .string "ada@x.org")]

theorem dotted_name_not_counted : ¬ Attributed asciiText dottedMail [dottedRecord] := by
  intro attributed
  have counts := attributed.field "user.mail" (by decide)
  revert counts
  decide +kernel

end DottedNames

end Attribution

end Sanitizer

end StatGuardian.Stream
