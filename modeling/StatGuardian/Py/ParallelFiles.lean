import StatGuardian.Library.WorkerPool

namespace StatGuardian.Py.Parallel

open WorkerPool

variable {R : Type}

structure FileResult (R : Type) where
  path : String
  report : Option R
  error : Option String

namespace FileResult

def ofOutcome (path : String) : Except String R → FileResult R
  | .ok report => ⟨path, some report, none⟩
  | .error exc => ⟨path, none, some exc⟩

def passed (reportPassed : R → Bool) (result : FileResult R) : Bool :=
  result.report.any reportPassed

def failed (reportPassed : R → Bool) (result : FileResult R) : Bool :=
  result.error.isSome || result.report.any (fun report => !reportPassed report)

theorem failed_ofOutcome (reportPassed : R → Bool) (path : String) (outcome : Except String R) :
    failed reportPassed (ofOutcome path outcome) = !passed reportPassed (ofOutcome path outcome) := by
  cases outcome <;> simp [failed, passed, ofOutcome]

end FileResult

inductive Paths where
  | pattern (text : String)
  | list (paths : List String)

def resolvePaths (glob : String → List String) : Paths → List String
  | .pattern text => (glob text).mergeSort (fun a b => decide (a ≤ b))
  | .list paths => paths

/-- The size of a `ThreadPoolExecutor` on a machine with so many processors. -/
def poolSize (cpuCount : Nat) : Option Int → Except String Nat
  | none => .ok (min 32 (cpuCount + 4))
  | some workers =>
    if workers ≤ 0 then .error "max_workers must be greater than 0" else .ok workers.toNat

/-- A future is known by its path and its place in the order of submission. -/
abbrev Future := String × Nat

def resultOf (entry : Future × Except String R) : FileResult R :=
  .ofOutcome entry.1.1 entry.2

section Session

-- `onComplete` says of the calls so far whether the last of them raises
variable (size : Nat) (outcome : Future → Except String R)
  (onComplete : List (FileResult R) → Option String)

abbrev FilePool (R : Type) := Pool Future (Except String R) String

def Step : FilePool R → FilePool R → Prop :=
  WorkerPool.Step size outcome (fun entries => onComplete (entries.map resultOf))

/-- The pool goes from the submission of all files to this state. -/
def Runs (files : List String) (pool : FilePool R) : Prop :=
  Relation.ReflTransGen (Step size outcome onComplete) (submit files.zipIdx) pool

/-- The loop over the futures has ended, and so has every worker that the exit of the pool waits
    for. -/
def Ended (pool : FilePool R) : Prop := ∀ next, ¬ Step size outcome onComplete pool next

end Session

/-- What a call of `execute_files` may return or raise. -/
inductive ExecuteFiles (glob : String → List String) (cpuCount : Nat) (workers : Option Int)
    (outcome : Future → Except String R) (onComplete : List (FileResult R) → Option String)
    (paths : Paths) : Except String (List (FileResult R)) → Prop where
  | nothing : resolvePaths glob paths = [] →
      ExecuteFiles glob cpuCount workers outcome onComplete paths (.ok [])
  | refused {exc : String} : resolvePaths glob paths ≠ [] →
      poolSize cpuCount workers = .error exc →
        ExecuteFiles glob cpuCount workers outcome onComplete paths (.error exc)
  | returned {size : Nat} {pool : FilePool R} : resolvePaths glob paths ≠ [] →
      poolSize cpuCount workers = .ok size →
        Runs size outcome onComplete (resolvePaths glob paths) pool →
          Ended size outcome onComplete pool → pool.stopped = none →
            ExecuteFiles glob cpuCount workers outcome onComplete paths
              (.ok (pool.collected.map resultOf))
  | raised {size : Nat} {pool : FilePool R} {exc : String} : resolvePaths glob paths ≠ [] →
      poolSize cpuCount workers = .ok size →
        Runs size outcome onComplete (resolvePaths glob paths) pool →
          Ended size outcome onComplete pool → pool.stopped = some exc →
            ExecuteFiles glob cpuCount workers outcome onComplete paths (.error exc)

section Results

variable {glob : String → List String} {cpuCount size : Nat} {workers : Option Int}
  {outcome : Future → Except String R} {onComplete : List (FileResult R) → Option String}
  {paths : Paths} {files : List String} {pool : FilePool R}

theorem poolSize_positive (sized : poolSize cpuCount workers = .ok size) : 0 < size := by
  cases workers with
  | none =>
    have same := Except.ok.inj sized
    omega
  | some workers =>
    rw [poolSize] at sized
    split at sized
    · cases sized
    · have same := Except.ok.inj sized
      omega

theorem accounted (run : Runs size outcome onComplete files pool) :
    Accounted size outcome (fun entries => onComplete (entries.map resultOf)) files.zipIdx pool :=
  accounted_of_run run

theorem all_of_ended (positive : 0 < size) (run : Runs size outcome onComplete files pool)
    (ended : Ended size outcome onComplete pool) :
    pool.waiting = [] ∧ pool.running = [] ∧
      (pool.stopped = none → (pool.collected.map Prod.fst).Perm files.zipIdx) := by
  obtain ⟨waiting, running, done⟩ := finished_of_stuck positive ended
  refine ⟨waiting, running, fun going => ?_⟩
  have tasks := (accounted run).tasks
  rw [waiting, running, done going, List.map_nil, List.append_nil, List.append_nil,
    List.append_nil] at tasks
  exact tasks

/-- At any time at most so many files are at work and no file is reported twice; and unless all is
    done the pool can take one of the steps that are left. -/
theorem pool_progress (sized : poolSize cpuCount workers = .ok size)
    (run : Runs size outcome onComplete files pool) :
    pool.running.length ≤ size ∧ (pool.collected.map Prod.fst).Subperm files.zipIdx ∧
      ((∃ next, Step size outcome onComplete pool next ∧ left next < left pool) ∨
        (pool.waiting = [] ∧ pool.running = [] ∧
          (pool.stopped = none → (pool.collected.map Prod.fst).Perm files.zipIdx))) := by
  have known := accounted run
  refine ⟨known.workers, ?_, ?_⟩
  · have tasks := known.tasks
    rw [List.append_assoc, List.append_assoc] at tasks
    exact (List.sublist_append_left _ _).subperm.trans tasks.subperm
  · by_cases ended : Ended size outcome onComplete pool
    · exact .inr (all_of_ended (poolSize_positive sized) run ended)
    · left
      unfold Ended at ended
      push Not at ended
      obtain ⟨next, step⟩ := ended
      have less := left_step step
      exact ⟨next, step, by omega⟩

def customersMissing (future : Future) : Except String Nat :=
  if future.1 = "customers.csv" then .error "not found" else .ok 3

def thirdCallRaises (calls : List (FileResult Nat)) : Option String :=
  if calls.length = 3 then some "too many" else none

/-- The second file is collected while the first is still at work. -/
theorem runs_customers_first (names : List String) :
    Runs 2 customersMissing thirdCallRaises ("orders.csv" :: "customers.csv" :: names)
      ⟨names.zipIdx 2, [("orders.csv", 0)], [], [(("customers.csv", 1), .error "not found")], none⟩ := by
  have first : Step 2 customersMissing thirdCallRaises
      (submit ("orders.csv" :: "customers.csv" :: names).zipIdx)
      ⟨("customers.csv", 1) :: names.zipIdx 2, [("orders.csv", 0)], [], [], none⟩ :=
    .start rfl Nat.zero_lt_two
  have second : Step 2 customersMissing thirdCallRaises
      ⟨("customers.csv", 1) :: names.zipIdx 2, [("orders.csv", 0)], [], [], none⟩
      ⟨names.zipIdx 2, [("customers.csv", 1), ("orders.csv", 0)], [], [], none⟩ :=
    .start rfl Nat.one_lt_two
  have finished : Step 2 customersMissing thirdCallRaises
      ⟨names.zipIdx 2, [("customers.csv", 1), ("orders.csv", 0)], [], [], none⟩
      ⟨names.zipIdx 2, [("orders.csv", 0)], [(("customers.csv", 1), .error "not found")], [], none⟩ :=
    .finish (.refl _)
  have collected : Step 2 customersMissing thirdCallRaises
      ⟨names.zipIdx 2, [("orders.csv", 0)], [(("customers.csv", 1), .error "not found")], [], none⟩
      ⟨names.zipIdx 2, [("orders.csv", 0)], [], [(("customers.csv", 1), .error "not found")], none⟩ :=
    .collect rfl (.refl _)
  exact .tail (.tail (.tail (.tail .refl first) second) finished) collected

theorem pool_progress_midway :
    let pool : FilePool Nat := ⟨[("returns.csv", 2)], [("orders.csv", 0)], [],
      [(("customers.csv", 1), .error "not found")], none⟩
    pool.running.length ≤ 2 ∧
      (pool.collected.map Prod.fst).Subperm ["orders.csv", "customers.csv", "returns.csv"].zipIdx ∧
      ((∃ next, Step 2 customersMissing thirdCallRaises pool next ∧ left next < left pool) ∨
        (pool.waiting = [] ∧ pool.running = [] ∧
          (pool.stopped = none → (pool.collected.map Prod.fst).Perm
            ["orders.csv", "customers.csv", "returns.csv"].zipIdx))) :=
  pool_progress (show poolSize 8 (some 2) = .ok 2 from rfl) (runs_customers_first ["returns.csv"])

theorem paths_of_order {order : List Future} (perm : order.Perm (resolvePaths glob paths).zipIdx) :
    ((order.map (fun future => FileResult.ofOutcome future.1 (outcome future))).map
      FileResult.path).Perm (resolvePaths glob paths) := by
  have names : (order.map (fun future => FileResult.ofOutcome future.1 (outcome future))).map
      FileResult.path = order.map Prod.fst := by
    rw [List.map_map]
    apply List.map_congr_left
    intro future _
    dsimp only [Function.comp_apply]
    cases outcome future <;> rfl
  rw [names]
  have submitted := perm.map Prod.fst
  rwa [List.zipIdx_map_fst] at submitted

/-- Results that are returned are those of all files, one for each, in some order; a file that
    could not be validated is among the failed ones; and no call of `on_complete` raised. -/
theorem executeFiles_reports_all {results : List (FileResult R)}
    (called : ExecuteFiles glob cpuCount workers outcome onComplete paths (.ok results)) :
    ∃ order : List Future, order.Perm (resolvePaths glob paths).zipIdx ∧
      results = order.map (fun future => .ofOutcome future.1 (outcome future)) ∧
      (results.map FileResult.path).Perm (resolvePaths glob paths) ∧
      ∀ init last more, results = init ++ last :: more → onComplete (init ++ [last]) = none := by
  generalize answer : Except.ok results = value at called
  cases called with
  | nothing empty =>
    rw [Except.ok.inj answer]
    exact ⟨[], by rw [empty]; exact .refl _, rfl, by rw [empty]; exact .refl _,
      fun init last more split => absurd split (by simp)⟩
  | refused => cases answer
  | raised => cases answer
  | @returned size pool _ sized run ended going =>
    have known := accounted run
    have all := (all_of_ended (poolSize_positive sized) run ended).2.2 going
    have reports : pool.collected.map resultOf = (pool.collected.map Prod.fst).map
        (fun future => FileResult.ofOutcome future.1 (outcome future)) := by
      rw [List.map_map]
      apply List.map_congr_left
      intro entry member
      rw [resultOf, known.outcomes entry (List.mem_append_left _ member)]
      rfl
    rw [Except.ok.inj answer, reports]
    refine ⟨_, all, rfl, paths_of_order all, ?_⟩
    intro init last more split
    rw [← reports] at split
    obtain ⟨front, rest, cut, first, second⟩ := List.map_eq_append_iff.mp split
    obtain ⟨entry, others, cons, here, after⟩ := List.map_eq_cons_iff.mp second
    have prefixed : init ++ [last] = (front ++ [entry]).map resultOf := by
      rw [List.map_append, first, List.map_singleton, here]
    rw [prefixed]
    rw [cons] at cut
    by_cases end_ : others = []
    · rw [end_] at cut
      have told := known.told (by rw [cut]; simp)
      rwa [cut, going] at told
    · exact known.before front entry others cut end_

theorem executeFiles_two :
    let files := ["orders.csv", "customers.csv"]
    let results := [FileResult.mk "customers.csv" none (some "not found"), ⟨"orders.csv", some 3, none⟩]
    ∃ order : List Future, order.Perm files.zipIdx ∧
      results = order.map (fun future => .ofOutcome future.1 (customersMissing future)) ∧
      (results.map FileResult.path).Perm files ∧
      ∀ init last more, results = init ++ last :: more → thirdCallRaises (init ++ [last]) = none := by
  intro files results
  have finished : Step 2 customersMissing thirdCallRaises
      ⟨[], [("orders.csv", 0)], [], [(("customers.csv", 1), .error "not found")], none⟩
      ⟨[], [], [(("orders.csv", 0), .ok 3)], [(("customers.csv", 1), .error "not found")], none⟩ :=
    .finish (.refl _)
  have collected : Step 2 customersMissing thirdCallRaises
      ⟨[], [], [(("orders.csv", 0), .ok 3)], [(("customers.csv", 1), .error "not found")], none⟩
      ⟨[], [], [], [(("customers.csv", 1), .error "not found"), (("orders.csv", 0), .ok 3)], none⟩ :=
    .collect rfl (.refl _)
  have ended : Ended 2 customersMissing thirdCallRaises
      ⟨[], [], [], [(("customers.csv", 1), .error "not found"), (("orders.csv", 0), .ok 3)], none⟩ := by
    intro next step
    cases step with
    | start waiting => cases waiting
    | finish running => exact List.cons_ne_nil _ _ running.symm.eq_nil
    | collect _ done => exact List.cons_ne_nil _ _ done.symm.eq_nil
  have run : Runs 2 customersMissing thirdCallRaises
      (resolvePaths (fun _ => []) (.list ["orders.csv", "customers.csv"])) _ :=
    .tail (.tail (runs_customers_first []) finished) collected
  have listed : resolvePaths (fun _ => []) (.list ["orders.csv", "customers.csv"]) ≠ [] :=
    List.cons_ne_nil _ _
  exact executeFiles_reports_all
    (.returned listed (show poolSize 8 (some 2) = .ok 2 from rfl) run ended rfl)

end Results

end StatGuardian.Py.Parallel
