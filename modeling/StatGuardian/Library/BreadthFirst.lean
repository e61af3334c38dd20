import StatGuardian.Library.Worklist

namespace Worklist

variable {α ε : Type*} [DecidableEq α]

/-- What every round keeps holds of the state in which a traversal ends. -/
theorem search_keeps {d : Discipline α} {g : EdgeList α ε} {Holds : State α → Prop}
    (keeps : ∀ s s', Holds s → step d g s = some s' → Holds s') {s : State α} (holds : Holds s) :
    ∃ final, Holds final ∧ final.queue = [] ∧ search d g s = final.affected := by
  induction s using search.induct d g with
  | case1 s done =>
    refine ⟨s, holds, d.empty _ (Option.map_eq_none_iff.mp done), ?_⟩
    rw [search, done]
  | case2 s s' stepped ih =>
    rw [search, stepped]
    exact ih (keeps s s' holds stepped)

/-- Every item but the first comes after one that an edge leads from. -/
def Fed (g : EdgeList α ε) (chain : List α) : Prop :=
  ∀ before b after, chain = before ++ b :: after → before ≠ [] → ∃ a ∈ before, g.Adj a b

theorem Fed.concat {g : EdgeList α ε} {chain : List α} {b : α} (fed : Fed g chain)
    (source : chain ≠ [] → ∃ a ∈ chain, g.Adj a b) : Fed g (chain ++ [b]) := by
  intro before c after split some_
  rcases List.eq_nil_or_concat after with empty | ⟨init, last, concat⟩
  · rw [empty] at split
    obtain ⟨same, single⟩ := List.append_inj' split rfl
    cases single
    rw [← same] at some_ ⊢
    exact source some_
  · rw [concat, List.concat_eq_append, ← List.cons_append, ← List.append_assoc] at split
    exact fed before c init (List.append_inj' split rfl).1 some_

section Tree

variable {d : Discipline α} {g : EdgeList α ε} {start : α} {s s' : State α}

/-- What waits in the queue is the start, at first, and later what listed items lead to. -/
structure Growing (g : EdgeList α ε) (start : α) (s : State α) : Prop where
  fed : Fed g s.affected
  waiting : (s.affected = [] ∧ s.queue = [start]) ∨ ∀ b ∈ s.queue, ∃ a ∈ s.affected, g.Adj a b

theorem Growing.rest (growing : Growing g start s) {current : α} {rest : List α}
    (perm : s.queue.Perm (current :: rest)) : ∀ b ∈ rest, ∃ a ∈ s.affected, g.Adj a b := by
  intro b queued
  rcases growing.waiting with ⟨-, only⟩ | sources
  · rw [only] at perm
    have length := perm.length_eq
    rw [List.length_singleton, List.length_cons] at length
    rw [List.eq_nil_of_length_eq_zero (by omega : rest.length = 0)] at queued
    cases queued
  · exact sources b (perm.mem_iff.mpr (List.mem_cons_of_mem _ queued))

theorem Growing.keep (growing : Growing g start s) (stepped : step d g s = some s') :
    Growing g start s' := by
  obtain ⟨current, rest, perm, ⟨-, rfl⟩ | ⟨-, rfl⟩⟩ := step_cases stepped
  · exact ⟨growing.fed, .inr (growing.rest perm)⟩
  · constructor
    · apply growing.fed.concat
      intro some_
      have sources := growing.waiting.resolve_left (fun first => some_ first.1)
      exact sources current (perm.mem_iff.mpr List.mem_cons_self)
    · right
      intro b queued
      rcases List.mem_append.mp queued with later | successor
      · obtain ⟨a, listed, next⟩ := growing.rest perm b later
        exact ⟨a, List.mem_append_left _ listed, next⟩
      · exact ⟨current, List.mem_append_right _ List.mem_cons_self,
          List.mem_of_mem_filter successor⟩

/-- In a traversal of any order each item after the first is listed after one that leads to it. -/
theorem search_fed (d : Discipline α) (g : EdgeList α ε) (start : α) :
    Fed g (search d g (.start start)) := by
  have first : Growing g start (.start start) := by
    refine ⟨?_, .inl ⟨rfl, rfl⟩⟩
    intro before b after split
    exact absurd split (by simp [State.start])
  obtain ⟨final, growing, -, same⟩ := search_keeps (fun _ _ => Growing.keep) first (d := d)
  rw [same]
  exact growing.fed

end Tree

section Levels

variable (g : EdgeList α ε) (start : α)

/-- What at most so many edges lead to. -/
def Within : ℕ → α → Prop
  | 0, a => a = start
  | n + 1, b => Within n b ∨ ∃ a, Within n a ∧ g.Adj a b

variable {g start} {s s' : State α} {m n : ℕ} {now next : List α}

theorem Within.mono (le : m ≤ n) {a : α} (within : Within g start m a) : Within g start n a := by
  induction le with
  | refl => exact within
  | step _ ih => exact .inl ih

theorem within_reachable {a : α} (within : Within g start n a) :
    Relation.ReflTransGen g.Adj start a := by
  induction n generalizing a with
  | zero => rw [within]
  | succ n ih =>
    rcases within with before | ⟨b, near, edge⟩
    · exact ih before
    · exact (ih near).tail edge

def Nearer (g : EdgeList α ε) (start a b : α) : Prop := ∀ n, Within g start n b → Within g start n a

/-- The queue holds the rest of one level and what is known of the next one. -/
structure Layered (g : EdgeList α ε) (start : α) (m : ℕ) (now next : List α) (s : State α) :
    Prop where
  queue : s.queue = now ++ next
  visited : ∀ a, a ∈ s.visited ↔ a ∈ s.affected
  below : ∀ k < m, ∀ a, Within g start k a → a ∈ s.affected
  here : ∀ a, Within g start m a → a ∈ s.affected ∨ a ∈ now
  listed : ∀ a ∈ s.affected, Within g start m a
  waiting : ∀ a ∈ now, Within g start m a
  coming : ∀ a ∈ next, Within g start (m + 1) a
  closed : ∀ a ∈ s.affected, ∀ b, g.Adj a b → b ∈ s.affected ∨ b ∈ s.queue
  sorted : s.affected.Pairwise (Nearer g start)

namespace Layered

theorem shift (layered : Layered g start m [] next s) : Layered g start (m + 1) next [] s where
  queue := by rw [layered.queue, List.append_nil, List.nil_append]
  visited := layered.visited
  below k less a within := by
    rcases layered.here a (within.mono (Nat.lt_succ_iff.mp less)) with listed | none
    · exact listed
    · cases none
  here a within := by
    have known : ∀ b, Within g start m b → b ∈ s.affected := by
      intro b near
      exact (layered.here b near).resolve_right List.not_mem_nil
    rcases within with near | ⟨b, near, edge⟩
    · exact .inl (known a near)
    · have closed := layered.closed b (known b near) a edge
      rwa [layered.queue, List.nil_append] at closed
  listed a member := .inl (layered.listed a member)
  waiting := layered.coming
  coming a none := by cases none
  closed := layered.closed
  sorted := layered.sorted

variable {current : α}

theorem pass (layered : Layered g start m (current :: now) next s) (seen : current ∈ s.visited) :
    Layered g start m now next { s with queue := now ++ next } where
  queue := rfl
  visited := layered.visited
  below := layered.below
  here a within := by
    rcases layered.here a within with listed | waiting
    · exact .inl listed
    · rcases List.mem_cons.mp waiting with rfl | later
      · exact .inl ((layered.visited a).mp seen)
      · exact .inr later
  listed := layered.listed
  waiting a member := layered.waiting a (List.mem_cons_of_mem _ member)
  coming := layered.coming
  closed a listed b edge := by
    rcases layered.closed a listed b edge with known | queued
    · exact .inl known
    · rw [layered.queue, List.cons_append] at queued
      rcases List.mem_cons.mp queued with rfl | later
      · exact .inl ((layered.visited b).mp seen)
      · exact .inr later
  sorted := layered.sorted

theorem nearer (layered : Layered g start m (current :: now) next s)
    (fresh : current ∉ s.visited) : ∀ a ∈ s.affected, Nearer g start a current := by
  intro a listed n within
  by_cases less : n < m
  · exact absurd ((layered.visited current).mpr (layered.below n less current within)) fresh
  · exact (layered.listed a listed).mono (Nat.le_of_not_lt less)

theorem visit (layered : Layered g start m (current :: now) next s)
    (fresh : current ∉ s.visited) :
    Layered g start m now (next ++ (g.successors current).filter (· ∉ insert current s.visited))
      { queue := now ++ next ++ (g.successors current).filter (· ∉ insert current s.visited)
        visited := insert current s.visited
        affected := s.affected ++ [current] } where
  queue := List.append_assoc ..
  visited a := by
    rw [Finset.mem_insert, layered.visited, List.mem_append, List.mem_singleton, or_comm]
  below k less a within := List.mem_append_left _ (layered.below k less a within)
  here a within := by
    rcases layered.here a within with listed | waiting
    · exact .inl (List.mem_append_left _ listed)
    · rcases List.mem_cons.mp waiting with rfl | later
      · exact .inl (List.mem_append_right _ List.mem_cons_self)
      · exact .inr later
  listed a member := by
    rcases List.mem_append.mp member with before | last
    · exact layered.listed a before
    · rw [List.mem_singleton.mp last]
      exact layered.waiting current List.mem_cons_self
  waiting a member := layered.waiting a (List.mem_cons_of_mem _ member)
  coming a member := by
    rcases List.mem_append.mp member with before | successor
    · exact layered.coming a before
    · exact .inr ⟨current, layered.waiting current List.mem_cons_self,
        List.mem_of_mem_filter successor⟩
  closed a listed b edge := by
    by_cases known : b ∈ s.affected ∨ b = current
    · rcases known with before | rfl
      · exact .inl (List.mem_append_left _ before)
      · exact .inl (List.mem_append_right _ List.mem_cons_self)
    · push Not at known
      right
      rcases List.mem_append.mp listed with before | last
      · have queued := (layered.closed a before b edge).resolve_left known.1
        rw [layered.queue, List.cons_append] at queued
        exact List.mem_append_left _ ((List.mem_cons.mp queued).resolve_left known.2)
      · rw [List.mem_singleton.mp last] at edge
        refine List.mem_append_right _ (List.mem_filter.mpr ⟨edge, ?_⟩)
        simp [known.2, layered.visited, known.1]
  sorted := by
    rw [List.pairwise_append]
    refine ⟨layered.sorted, List.pairwise_singleton .., fun a listed b last => ?_⟩
    rw [List.mem_singleton.mp last]
    exact layered.nearer fresh a listed

theorem keep (layered : ∃ m now next, Layered g start m now next s)
    (stepped : step fifo g s = some s') : ∃ m now next, Layered g start m now next s' := by
  obtain ⟨⟨current, rest⟩, popped, after⟩ := Option.map_eq_some_iff.mp stepped
  have queue : s.queue = current :: rest := by
    cases waiting : s.queue with
    | nil =>
      rw [waiting] at popped
      cases popped
    | cons a more =>
      rw [waiting] at popped
      cases popped
      rfl
  have front : ∃ m now next, Layered g start m (current :: now) next s ∧ rest = now ++ next := by
    obtain ⟨m, now, next, layered⟩ := layered
    have split := layered.queue
    rw [queue] at split
    cases now with
    | nil =>
      rw [List.nil_append] at split
      rw [← split] at layered
      exact ⟨m + 1, rest, [], layered.shift, (List.append_nil rest).symm⟩
    | cons a more =>
      cases split
      exact ⟨m, more, next, layered, rfl⟩
  obtain ⟨m, now, next, layered, split⟩ := front
  dsimp only at after
  rw [← after, split]
  split
  · rename_i seen
    exact ⟨m, now, next, layered.pass seen⟩
  · rename_i fresh
    exact ⟨m, now, _, layered.visit fresh⟩

theorem begin_ (g : EdgeList α ε) (start : α) : Layered g start 0 [start] [] (.start start) where
  queue := rfl
  visited a := by simp [State.start]
  below k less := absurd less (Nat.not_lt_zero k)
  here a within := .inr (List.mem_singleton.mpr within)
  listed a member := by cases member
  waiting a member := List.mem_singleton.mp member
  coming a member := by cases member
  closed a member := by cases member
  sorted := .nil

end Layered

/-- A queue that gives back its first item lists the items in the order of their distance. -/
theorem search_fifo_sorted (g : EdgeList α ε) (start : α) :
    (search fifo g (.start start)).Pairwise (Nearer g start) := by
  obtain ⟨final, ⟨_, _, _, layered⟩, -, same⟩ := search_keeps (fun _ _ => Layered.keep)
    ⟨0, [start], [], Layered.begin_ g start⟩
  rw [same]
  exact layered.sorted

omit [DecidableEq α] in
theorem exists_take {Holds : α → Prop} {chain : List α}
    (sorted : chain.Pairwise (fun a b => Holds b → Holds a)) :
    ∃ k, ∀ a, a ∈ chain.take k ↔ a ∈ chain ∧ Holds a := by
  induction sorted with
  | nil => exact ⟨0, by simp⟩
  | @cons a rest before _ ih =>
    obtain ⟨k, taken⟩ := ih
    by_cases holds : Holds a
    · refine ⟨k + 1, fun b => ?_⟩
      rw [List.take_succ_cons, List.mem_cons, List.mem_cons, taken]
      constructor
      · rintro (rfl | ⟨member, also⟩)
        · exact ⟨.inl rfl, holds⟩
        · exact ⟨.inr member, also⟩
      · rintro ⟨rfl | member, also⟩
        · exact .inl rfl
        · exact .inr ⟨member, also⟩
    · refine ⟨0, fun b => ?_⟩
      rw [List.take_zero]
      constructor
      · intro none
        cases none
      · rintro ⟨member, also⟩
        rcases List.mem_cons.mp member with rfl | later
        · exact absurd also holds
        · exact absurd (before b later also) holds

/-- The items within a distance are the first ones of the search. -/
theorem search_fifo_levels (g : EdgeList α ε) (start : α) (n : ℕ) :
    ∃ k, ∀ a, a ∈ (search fifo g (.start start)).take k ↔ Within g start n a := by
  have sorted : (search fifo g (.start start)).Pairwise
      (fun a b => Within g start n b → Within g start n a) :=
    (search_fifo_sorted g start).imp (fun nearer => nearer n)
  obtain ⟨k, taken⟩ := exists_take sorted
  refine ⟨k, fun a => ?_⟩
  obtain ⟨-, -, reachable⟩ := search_spec fifo g start
  rw [taken, reachable, and_iff_right_of_imp within_reachable]

end Levels

end Worklist
