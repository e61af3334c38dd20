import Mathlib.Data.Finset.Insert
import Mathlib.Data.List.Perm.Basic
import Mathlib.Logic.Relation

namespace Worklist

variable {α ε : Type*} [DecidableEq α]

/-- Which item of a queue comes next. -/
structure Discipline (α : Type*) where
  pop : List α → Option (α × List α)
  perm : ∀ queue a rest, pop queue = some (a, rest) → queue.Perm (a :: rest)
  empty : ∀ queue, pop queue = none → queue = []

def lifo : Discipline α where
  pop queue := queue.getLast?.map fun a => (a, queue.dropLast)
  perm queue a rest popped := by
    obtain ⟨last, found, same⟩ := Option.map_eq_some_iff.mp popped
    cases same
    obtain ⟨init, rfl⟩ := List.getLast?_eq_some_iff.mp found
    rw [List.dropLast_concat]
    exact List.perm_append_singleton a init
  empty queue popped := by
    rwa [Option.map_eq_none_iff, List.getLast?_eq_none_iff] at popped

def fifo : Discipline α where
  pop
    | [] => none
    | a :: rest => some (a, rest)
  perm queue a rest popped := by
    cases queue with
    | nil => cases popped
    | cons => cases popped; exact List.Perm.refl _
  empty queue popped := by
    cases queue with
    | nil => rfl
    | cons => cases popped

structure EdgeList (α ε : Type*) where
  edges : List ε
  source : ε → α
  target : ε → α

namespace EdgeList

variable (g : EdgeList α ε)

def successors (a : α) : List α := (g.edges.filter (g.source · = a)).map g.target

def Adj (a b : α) : Prop := b ∈ g.successors a

/-- The edges that start at no visited item. -/
def pending (visited : Finset α) : List ε := g.edges.filter (g.source · ∉ visited)

theorem pending_insert (visited : Finset α) {a : α} (fresh : a ∉ visited) :
    (g.pending (insert a visited)).length + (g.successors a).length =
      (g.pending visited).length := by
  unfold pending successors
  induction g.edges with
  | nil => rfl
  | cons e rest ih =>
    rw [List.length_map] at ih ⊢
    by_cases here : g.source e = a
    · rw [List.filter_cons_of_neg (by simp [here]), List.filter_cons_of_pos (by simp [here]),
        List.filter_cons_of_pos (by simp [here, fresh]), List.length_cons, List.length_cons, ← ih]
      omega
    · by_cases seen : g.source e ∈ visited
      · rw [List.filter_cons_of_neg (by simp [seen]), List.filter_cons_of_neg (by simp [here]),
          List.filter_cons_of_neg (by simp [seen]), ih]
      · rw [List.filter_cons_of_pos (by simp [seen, here]),
          List.filter_cons_of_neg (by simp [here]), List.filter_cons_of_pos (by simp [seen]),
          List.length_cons, List.length_cons, ← ih]
        omega

end EdgeList

structure State (α : Type*) where
  queue : List α
  visited : Finset α
  affected : List α

/-- One round: an item that was visited is passed over, any other is visited and its unvisited
    successors are queued. -/
def step (d : Discipline α) (g : EdgeList α ε) (s : State α) : Option (State α) :=
  (d.pop s.queue).map fun (current, rest) =>
    if current ∈ s.visited then { s with queue := rest }
    else
      let visited := insert current s.visited
      { queue := rest ++ (g.successors current).filter (· ∉ visited)
        visited := visited
        affected := s.affected ++ [current] }

section Steps

variable {d : Discipline α} {g : EdgeList α ε} {s s' : State α}

theorem step_cases (stepped : step d g s = some s') : ∃ current rest,
    s.queue.Perm (current :: rest) ∧
      ((current ∈ s.visited ∧ s' = { s with queue := rest }) ∨
        (current ∉ s.visited ∧ s' =
          { queue := rest ++ (g.successors current).filter (· ∉ insert current s.visited)
            visited := insert current s.visited
            affected := s.affected ++ [current] })) := by
  obtain ⟨⟨current, rest⟩, popped, rfl⟩ := Option.map_eq_some_iff.mp stepped
  refine ⟨current, rest, d.perm _ _ _ popped, ?_⟩
  by_cases seen : current ∈ s.visited
  · exact .inl ⟨seen, if_pos seen⟩
  · exact .inr ⟨seen, if_neg seen⟩

/-- What is left to do: the queue, and the edges that may still be queued. -/
def work (g : EdgeList α ε) (s : State α) : ℕ := s.queue.length + (g.pending s.visited).length

theorem step_works (stepped : step d g s = some s') : work g s' < work g s := by
  obtain ⟨current, rest, perm, ⟨-, rfl⟩ | ⟨fresh, rfl⟩⟩ := step_cases stepped
  · simp only [work, perm.length_eq, List.length_cons]
    omega
  · have queued := List.length_filter_le (· ∉ insert current s.visited) (g.successors current)
    have edges := g.pending_insert s.visited fresh
    simp only [work, perm.length_eq, List.length_cons, List.length_append]
    omega

end Steps

def search (d : Discipline α) (g : EdgeList α ε) (s : State α) : List α :=
  match _ : step d g s with
  | none => s.affected
  | some s' => search d g s'
termination_by work g s
decreasing_by exact step_works ‹_›

def State.start (a : α) : State α := ⟨[a], ∅, []⟩

/-- What holds between two rounds of a traversal from `start`. -/
structure Exploring (g : EdgeList α ε) (start : α) (s : State α) : Prop where
  distinct : s.affected.Nodup
  visited : ∀ a, a ∈ s.visited ↔ a ∈ s.affected
  reached : ∀ a, a ∈ s.queue ∨ a ∈ s.affected → Relation.ReflTransGen g.Adj start a
  closed : ∀ a ∈ s.affected, ∀ b, g.Adj a b → b ∈ s.affected ∨ b ∈ s.queue
  first : s.affected.head? = some start ∨ (s.affected = [] ∧ s.queue = [start])

namespace Exploring

variable {d : Discipline α} {g : EdgeList α ε} {start : α} {s s' : State α}

theorem begin_ (g : EdgeList α ε) (start : α) : Exploring g start (.start start) where
  distinct := List.nodup_nil
  visited a := by simp [State.start]
  reached a inside := by
    have same : a = start := by simpa [State.start] using inside
    rw [same]
  closed a inside := by simp [State.start] at inside
  first := .inr ⟨rfl, rfl⟩

variable {current : α} {rest : List α}

theorem pass (exploring : Exploring g start s) (perm : s.queue.Perm (current :: rest))
    (seen : current ∈ s.visited) : Exploring g start { s with queue := rest } := by
  have known := (exploring.visited current).mp seen
  refine ⟨exploring.distinct, exploring.visited, ?_, ?_, ?_⟩
  · rintro a (queued | affected)
    · exact exploring.reached a (.inl (perm.mem_iff.mpr (List.mem_cons_of_mem _ queued)))
    · exact exploring.reached a (.inr affected)
  · intro a affected b next
    rcases exploring.closed a affected b next with known' | queued
    · exact .inl known'
    · rcases List.mem_cons.mp (perm.mem_iff.mp queued) with rfl | later
      · exact .inl known
      · exact .inr later
  · rcases exploring.first with first | ⟨none, -⟩
    · exact .inl first
    · rw [none] at known
      cases known

theorem visit (exploring : Exploring g start s) (perm : s.queue.Perm (current :: rest))
    (fresh : current ∉ s.visited) : Exploring g start
      { queue := rest ++ (g.successors current).filter (· ∉ insert current s.visited)
        visited := insert current s.visited
        affected := s.affected ++ [current] } := by
  have unknown := mt (exploring.visited current).mpr fresh
  have current_reached := exploring.reached current (.inl (perm.mem_iff.mpr List.mem_cons_self))
  refine ⟨?_, ?_, ?_, ?_, ?_⟩
  · rw [← List.concat_eq_append]
    exact List.Nodup.concat unknown exploring.distinct
  · intro a
    rw [Finset.mem_insert, exploring.visited, List.mem_append, List.mem_singleton, or_comm]
  · rintro a (queued | affected)
    · rcases List.mem_append.mp queued with waiting | successor
      · exact exploring.reached a (.inl (perm.mem_iff.mpr (List.mem_cons_of_mem _ waiting)))
      · exact current_reached.tail (List.mem_of_mem_filter successor)
    · rcases List.mem_append.mp affected with before | last
      · exact exploring.reached a (.inr before)
      · rwa [List.mem_singleton.mp last]
  · intro a affected b next
    by_cases known : b ∈ s.affected ∨ b = current
    · rcases known with before | rfl
      · exact .inl (List.mem_append_left _ before)
      · exact .inl (List.mem_append_right _ List.mem_cons_self)
    · push Not at known
      right
      rcases List.mem_append.mp affected with before | last
      · rcases exploring.closed a before b next with inside | queued
        · exact absurd inside known.1
        · have waiting := (List.mem_cons.mp (perm.mem_iff.mp queued)).resolve_left known.2
          exact List.mem_append_left _ waiting
      · rw [List.mem_singleton.mp last] at next
        refine List.mem_append_right _ (List.mem_filter.mpr ⟨next, ?_⟩)
        simp [known.2, exploring.visited, known.1]
  · left
    rcases exploring.first with first | ⟨none, only⟩
    · obtain ⟨tail, front⟩ := List.head?_eq_some_iff.mp first
      rw [front]
      rfl
    · have same : current = start := by
        have member := perm.mem_iff.mpr (List.mem_cons_self (a := current) (l := rest))
        rw [only] at member
        exact List.mem_singleton.mp member
      rw [none, same]
      rfl

theorem keep (exploring : Exploring g start s) (stepped : step d g s = some s') :
    Exploring g start s' := by
  obtain ⟨current, rest, perm, ⟨seen, rfl⟩ | ⟨fresh, rfl⟩⟩ := step_cases stepped
  · exact exploring.pass perm seen
  · exact exploring.visit perm fresh

/-- A traversal that has nothing queued has visited what can be reached. -/
theorem finish (exploring : Exploring g start s) (done : step d g s = none) :
    s.affected.Nodup ∧ s.affected.head? = some start ∧
      ∀ a, a ∈ s.affected ↔ Relation.ReflTransGen g.Adj start a := by
  have nothing : s.queue = [] := d.empty _ (Option.map_eq_none_iff.mp done)
  have first : s.affected.head? = some start := by
    rcases exploring.first with first | ⟨-, only⟩
    · exact first
    · rw [nothing] at only
      cases only
  refine ⟨exploring.distinct, first, fun a => ⟨fun affected => ?_, fun reached => ?_⟩⟩
  · exact exploring.reached a (.inr affected)
  · induction reached with
    | refl => exact List.mem_of_mem_head? first
    | tail _ next ih =>
      have closed := exploring.closed _ ih _ next
      rwa [nothing, or_iff_left List.not_mem_nil] at closed

end Exploring

theorem search_spec (d : Discipline α) (g : EdgeList α ε) (start : α) :
    (search d g (.start start)).Nodup ∧ (search d g (.start start)).head? = some start ∧
      ∀ a, a ∈ search d g (.start start) ↔ Relation.ReflTransGen g.Adj start a := by
  have run : ∀ s, Exploring g start s → (search d g s).Nodup ∧
      (search d g s).head? = some start ∧
        ∀ a, a ∈ search d g s ↔ Relation.ReflTransGen g.Adj start a := by
    intro s
    induction s using search.induct d g with
    | case1 s done =>
      intro exploring
      rw [search, done]
      exact exploring.finish done
    | case2 s s' stepped ih =>
      intro exploring
      rw [search, stepped]
      exact ih (exploring.keep stepped)
  exact run _ (.begin_ g start)

end Worklist
