import Mathlib.Data.List.Perm.Basic
import Mathlib.Logic.Relation

namespace WorkerPool

variable {α ο ε : Type*}

/-- Tasks that wait for a worker, tasks at work, tasks that are done but not collected, and those
    collected so far in their order. The collector may have stopped. -/
structure Pool (α ο ε : Type*) where
  waiting : List α
  running : List α
  done : List (α × ο)
  collected : List (α × ο)
  stopped : Option ε

def submit (tasks : List α) : Pool α ο ε := ⟨tasks, [], [], [], none⟩

variable (workers : ℕ) (outcome : α → ο) (notify : List (α × ο) → Option ε)

/-- A free worker takes the task that waits longest. Tasks end and are collected in any order, and
    what is told of each one that is collected may stop the collector. -/
inductive Step : Pool α ο ε → Pool α ο ε → Prop where
  | start {pool : Pool α ο ε} {task : α} {rest : List α} :
      pool.waiting = task :: rest → pool.running.length < workers →
        Step pool { pool with waiting := rest, running := task :: pool.running }
  | finish {pool : Pool α ο ε} {task : α} {rest : List α} :
      pool.running.Perm (task :: rest) →
        Step pool { pool with running := rest, done := (task, outcome task) :: pool.done }
  | collect {pool : Pool α ο ε} {entry : α × ο} {rest : List (α × ο)} :
      pool.stopped = none → pool.done.Perm (entry :: rest) →
        Step pool
          { pool with
            done := rest
            collected := pool.collected ++ [entry]
            stopped := notify (pool.collected ++ [entry]) }

structure Accounted (tasks : List α) (pool : Pool α ο ε) : Prop where
  tasks : (pool.collected.map Prod.fst ++ pool.done.map Prod.fst ++ pool.running ++
    pool.waiting).Perm tasks
  outcomes : ∀ entry ∈ pool.collected ++ pool.done, entry.2 = outcome entry.1
  workers : pool.running.length ≤ workers
  told : pool.collected ≠ [] → notify pool.collected = pool.stopped
  fresh : pool.collected = [] → pool.stopped = none
  before : ∀ init last more, pool.collected = init ++ last :: more → more ≠ [] →
    notify (init ++ [last]) = none

variable {workers outcome notify} {tasks : List α} {pool next : Pool α ο ε}

theorem accounted_submit (tasks : List α) :
    Accounted workers outcome notify tasks (submit tasks : Pool α ο ε) where
  tasks := .refl _
  outcomes entry member := by cases member
  workers := Nat.zero_le _
  told some_ := absurd rfl some_
  fresh _ := rfl
  before init last more split := absurd split (by simp [submit])

theorem Accounted.keep (accounted : Accounted workers outcome notify tasks pool)
    (step : Step workers outcome notify pool next) :
    Accounted workers outcome notify tasks next := by
  cases step with
  | @start task rest waiting free =>
    refine ⟨?_, accounted.outcomes, free, accounted.told, accounted.fresh, accounted.before⟩
    have all := accounted.tasks
    have moved : (task :: pool.running ++ rest).Perm (pool.running ++ task :: rest) :=
      List.perm_middle.symm
    rw [waiting, List.append_assoc] at all
    dsimp only
    rw [List.append_assoc]
    exact (moved.append_left _).trans all
  | @finish task rest running =>
    refine ⟨?_, ?_, ?_, accounted.told, accounted.fresh, accounted.before⟩
    · refine List.Perm.trans ?_ accounted.tasks
      apply List.Perm.append_right
      rw [List.map_cons, List.append_assoc, List.append_assoc]
      apply List.Perm.append_left
      exact (List.perm_middle.symm).trans (running.symm.append_left _)
    · intro entry member
      rcases List.mem_append.mp member with earlier | now
      · exact accounted.outcomes entry (List.mem_append_left _ earlier)
      · rcases List.mem_cons.mp now with rfl | later
        · rfl
        · exact accounted.outcomes entry (List.mem_append_right _ later)
    · have length := running.length_eq
      have most := accounted.workers
      rw [List.length_cons] at length
      dsimp only
      omega
  | @collect entry rest going done =>
    refine ⟨?_, ?_, accounted.workers, fun _ => rfl, ?_, ?_⟩
    · refine List.Perm.trans ?_ accounted.tasks
      apply List.Perm.append_right
      apply List.Perm.append_right
      rw [List.map_append, List.append_assoc]
      exact (done.map Prod.fst).symm.append_left _
    · intro other member
      apply accounted.outcomes
      rw [List.append_assoc, List.singleton_append] at member
      exact (done.symm.append_left _).mem_iff.mp member
    · intro none
      exact absurd none (by simp)
    · intro init last more split some_
      obtain ⟨front, final, concat⟩ := List.eq_nil_or_concat more |>.resolve_left some_
      rw [concat, List.concat_eq_append, ← List.cons_append, ← List.append_assoc] at split
      have same := (List.append_inj' split rfl).1
      by_cases empty : front = []
      · rw [empty] at same
        rw [← same, accounted.told (by rw [same]; simp), going]
      · exact accounted.before init last front same empty

/-- Whatever the order of the steps, the pool stays accounted for. -/
theorem accounted_of_run
    (run : Relation.ReflTransGen (Step workers outcome notify) (submit tasks) pool) :
    Accounted workers outcome notify tasks pool := by
  induction run with
  | refl => exact accounted_submit tasks
  | tail _ step ih => exact ih.keep step

theorem finished_of_stuck (positive : 0 < workers)
    (stuck : ∀ next, ¬ Step workers outcome notify pool next) :
    pool.waiting = [] ∧ pool.running = [] ∧ (pool.stopped = none → pool.done = []) := by
  have idle : pool.running = [] := by
    cases running : pool.running with
    | nil => rfl
    | cons task rest => exact absurd (.finish (by rw [running])) (stuck _)
  refine ⟨?_, idle, ?_⟩
  · cases waiting : pool.waiting with
    | nil => rfl
    | cons task rest =>
      apply absurd (Step.start waiting _) (stuck _)
      rw [idle]
      exact positive
  · intro going
    cases done : pool.done with
    | nil => rfl
    | cons entry rest => exact absurd (.collect going (by rw [done])) (stuck _)

/-- The steps that are left at most. -/
def left (pool : Pool α ο ε) : ℕ :=
  3 * pool.waiting.length + 2 * pool.running.length + pool.done.length

/-- Every step takes one off, so no run of the pool goes on for ever. -/
theorem left_step (step : Step workers outcome notify pool next) : left next + 1 = left pool := by
  cases step with
  | start waiting free =>
    simp only [left, waiting, List.length_cons]
    omega
  | finish running =>
    have length := running.length_eq
    simp only [left, length, List.length_cons]
    omega
  | collect going done =>
    have length := done.length_eq
    simp only [left, length, List.length_cons]
    omega

end WorkerPool
