import StatGuardian.Core.Streaming

namespace StatGuardian.Core.Streaming

open KeyedValues

inductive TumblingOp where
  | insert (timestamp : SystemTime) (event : String)
  | closeBefore (cutoff : SystemTime)
  deriving DecidableEq, Repr

namespace TumblingWindowExecutor

/-- `get_window_for_event`, and then `add_event` on the window that it borrows. -/
def insertEvent (last : SystemTime) (executor : TumblingWindowExecutor) (timestamp : SystemTime)
    (event : String) : Except TimeFault (Except String Unit × TumblingWindowExecutor) := do
  let (borrowed, executor) ← executor.getWindowForEvent last timestamp
  match borrowed with
  | .error message => pure (.error message, executor)
  | .ok (key, window) =>
    match window.addEvent timestamp event with
    | .error message => pure (.error message, executor)
    | .ok window =>
      pure (.ok (), { executor with currentWindows := executor.currentWindows.insert key window })

def liveEvents (executor : TumblingWindowExecutor) : List (SystemTime × String) :=
  (values executor.currentWindows).flatMap StreamingWindow.events

def liveIds (executor : TumblingWindowExecutor) : List String :=
  (values executor.currentWindows).map StreamingWindow.windowId

end TumblingWindowExecutor

/-- A run so far: the executor, the events of the inserts that succeeded and the windows that
    `close_windows_before` returned. -/
structure TumblingRun where
  executor : TumblingWindowExecutor
  inserted : List (SystemTime × String)
  returned : List StreamingWindow

namespace TumblingRun

def start (windowSize : Duration) : TumblingRun where
  executor := .new windowSize
  inserted := []
  returned := []

def step (last : SystemTime) (run : TumblingRun) : TumblingOp → Except TimeFault TumblingRun
  | .insert timestamp event => do
    let (outcome, executor) ← run.executor.insertEvent last timestamp event
    match outcome with
    | .ok () => pure { run with
        executor := executor, inserted := run.inserted ++ [(timestamp, event)] }
    | .error _ => pure { run with executor := executor }
  | .closeBefore cutoff =>
    let (closed, executor) := run.executor.closeWindowsBefore cutoff
    pure { run with executor := executor, returned := run.returned ++ closed }

def execute (last : SystemTime) (windowSize : Duration) (ops : List TumblingOp) :
    Except TimeFault TumblingRun :=
  ops.foldlM (step last) (start windowSize)

end TumblingRun

section Windows

theorem windowId_inj {n m : Nat}
    (same : TumblingWindowExecutor.windowId n = TumblingWindowExecutor.windowId m) : n = m := by
  have digits : (toString n).toList = (toString m).toList := by
    have texts := congrArg String.toList same
    rw [TumblingWindowExecutor.windowId, TumblingWindowExecutor.windowId, String.toList_append,
      String.toList_append] at texts
    exact List.append_cancel_left texts
  have numbers := congrArg (Nat.ofDigitChars 10 · 0) digits
  simpa using numbers

def windowNumber (secs : Nat) (timestamp : SystemTime) : Nat :=
  Duration.asSecs timestamp.toNat / secs

def windowFinish (secs n : Nat) : SystemTime := Duration.fromSecs ((n + 1) * secs)

theorem lt_windowFinish {secs : Nat} (whole : 1 ≤ secs) {timestamp : SystemTime}
    (fromEpoch : unixEpoch ≤ timestamp) :
    timestamp < windowFinish secs (windowNumber secs timestamp) := by
  have within := Nat.lt_mul_div_succ (Duration.asSecs timestamp.toNat) whole
  rw [Nat.mul_comm] at within
  have bound := Nat.lt_of_lt_of_le (Duration.lt_asSecs_succ timestamp.toNat)
    (Nat.mul_le_mul_right 1000000000 within)
  calc timestamp = timestamp.toNat := (Int.toNat_of_nonneg fromEpoch).symm
    _ < windowFinish secs (windowNumber secs timestamp) := Int.ofNat_lt.mpr bound

theorem windowStart_le (secs : Nat) {timestamp : SystemTime} (fromEpoch : unixEpoch ≤ timestamp) :
    (Duration.fromSecs (windowNumber secs timestamp * secs) : Int) ≤ timestamp := by
  have within := Nat.div_mul_le_self (Duration.asSecs timestamp.toNat) secs
  have bound := Nat.le_trans (Nat.mul_le_mul_right 1000000000 within)
    (Duration.asSecs_le timestamp.toNat)
  calc (Duration.fromSecs (windowNumber secs timestamp * secs) : Int)
      ≤ timestamp.toNat := Int.ofNat_le.mpr bound
    _ = timestamp := Int.toNat_of_nonneg fromEpoch

end Windows

/-- The entry of the window of a number: its id, its range and its key. -/
structure IsTile (last : SystemTime) (secs n : Nat)
    (entry : Sigma fun _ : String => StreamingWindow) : Prop where
  key : entry.1 = TumblingWindowExecutor.windowId n
  id : entry.2.windowId = TumblingWindowExecutor.windowId n
  start : entry.2.startTime = Duration.fromSecs (n * secs)
  finish : entry.2.endTime = windowFinish secs n
  fits : windowFinish secs n ≤ last

structure Tiled (last : SystemTime) (secs : Nat) (executor : TumblingWindowExecutor) : Prop where
  size : executor.windowSize = Duration.fromSecs secs
  tiles : ∀ entry ∈ executor.currentWindows.entries, ∃ n, IsTile last secs n entry

theorem StreamingWindow.addEvent_within (window : StreamingWindow) {timestamp : SystemTime}
    (event : String) (begun : window.startTime ≤ timestamp) (going : timestamp ≤ window.endTime) :
    ∃ added, window.addEvent timestamp event = .ok added ∧ added.windowId = window.windowId ∧
      added.startTime = window.startTime ∧ added.endTime = window.endTime ∧
      added.events = window.events ++ [(timestamp, event)] := by
  have within : ¬ (timestamp < window.startTime ∨ timestamp > window.endTime) := by
    rintro (before | after)
    · exact Int.not_le.mpr before begun
    · exact Int.not_le.mpr after going
  exact ⟨_, if_neg within, rfl, rfl, rfl, rfl⟩

namespace TumblingWindowExecutor

variable {last : SystemTime} {secs : Nat} {executor : TumblingWindowExecutor}
  {timestamp : SystemTime}

theorem tiled_new (last : SystemTime) (secs : Nat) :
    Tiled last secs (new (Duration.fromSecs secs)) where
  size := rfl
  tiles := by
    intro entry member
    cases member

theorem insertEvent_early (event : String) (early : timestamp < unixEpoch) :
    executor.insertEvent last timestamp event =
      .ok (.error "second time provided was later than self", executor) := by
  simp only [insertEvent, getWindowForEvent, SystemTime.durationSince_early early]
  rfl

theorem windowStart_add (secs n : Nat) :
    ((Duration.fromSecs (n * secs) : Nat) : Int) + (Duration.fromSecs secs : Nat) =
      windowFinish secs n := by
  rw [windowFinish, ← Int.natCast_add, Duration.fromSecs, Duration.fromSecs, Duration.fromSecs,
    ← Nat.add_mul, Nat.succ_mul]

theorem ensureWindow_insert (last : SystemTime) (executor : TumblingWindowExecutor) (n : Nat) :
    executor.ensureWindow last n =
      if windowId n ∈ executor.currentWindows then .ok executor.currentWindows
      else if ((Duration.fromSecs (n * executor.windowSize.asSecs) : Nat) : Int) +
          executor.windowSize ≤ last then
        .ok (executor.currentWindows.insert (windowId n) (.new (windowId n)
          (Duration.fromSecs (n * executor.windowSize.asSecs) : Nat)
          ((Duration.fromSecs (n * executor.windowSize.asSecs) : Nat) + executor.windowSize)))
      else .error .timeOverflow := by
  have before : ((Duration.fromSecs (n * executor.windowSize.asSecs) : Nat) : Int) ≤
      (Duration.fromSecs (n * executor.windowSize.asSecs) : Nat) + executor.windowSize :=
    Int.le_add_of_nonneg_right (Int.natCast_nonneg _)
  rw [ensureWindow, SystemTime.plus, unixEpoch, Int.zero_add]
  by_cases fits : ((Duration.fromSecs (n * executor.windowSize.asSecs) : Nat) : Int) +
      executor.windowSize ≤ last
  · simp only [if_pos (Int.le_trans before fits), bind, Except.bind, SystemTime.plus, if_pos fits,
      pure, Except.pure]
  · rw [if_neg fits]
    by_cases first : ((Duration.fromSecs (n * executor.windowSize.asSecs) : Nat) : Int) ≤ last
    · simp only [if_pos first, bind, Except.bind, SystemTime.plus, if_neg fits]
    · simp only [if_neg first, bind, Except.bind]

theorem ensureWindow_eq (size : executor.windowSize = Duration.fromSecs secs) (n : Nat) :
    executor.ensureWindow last n =
      if windowId n ∈ executor.currentWindows then .ok executor.currentWindows
      else if windowFinish secs n ≤ last then
        .ok (executor.currentWindows.insert (windowId n)
          (.new (windowId n) (Duration.fromSecs (n * secs) : Nat) (windowFinish secs n)))
      else .error .timeOverflow := by
  rw [ensureWindow_insert, size, Duration.asSecs_fromSecs, windowStart_add]

theorem liveIds_eq_keys (tiled : Tiled last secs executor) :
    executor.liveIds = executor.currentWindows.keys := by
  rw [liveIds, values, AList.keys, List.keys, List.map_map]
  refine List.map_congr_left fun entry member => ?_
  obtain ⟨n, tile⟩ := tiled.tiles entry member
  exact tile.id.trans tile.key.symm

theorem ensureWindow_ok (tiled : Tiled last secs executor) {n : Nat}
    (fits : windowFinish secs n ≤ last) :
    ∃ windows window, executor.ensureWindow last n = .ok windows ∧
      get windows (windowId n) = some window ∧
      Tiled last secs { executor with currentWindows := windows } ∧
      liveEvents { executor with currentWindows := windows } = executor.liveEvents ∧
      (liveIds { executor with currentWindows := windows } = executor.liveIds ∨
        windowId n ∉ executor.liveIds ∧
        liveIds { executor with currentWindows := windows } = windowId n :: executor.liveIds) := by
  rw [ensureWindow_eq tiled.size]
  by_cases known : windowId n ∈ executor.currentWindows
  · obtain ⟨window, found⟩ := exists_get known
    exact ⟨_, window, if_pos known, found, tiled, rfl, .inl rfl⟩
  · rw [if_neg known, if_pos fits]
    refine ⟨_, _, rfl, get_insert .., ⟨tiled.size, ?_⟩, ?_, .inr ⟨?_, ?_⟩⟩
    · intro entry member
      rcases mem_insert member with rfl | older
      · exact ⟨n, rfl, rfl, rfl, rfl, fits⟩
      · exact tiled.tiles entry older
    · rw [liveEvents, values_insert_new known, List.flatMap_cons]
      rfl
    · rwa [liveIds_eq_keys tiled, ← AList.mem_keys]
    · rw [liveIds, values_insert_new known, List.map_cons]
      rfl

theorem ensureWindow_overflow (tiled : Tiled last secs executor) {n : Nat}
    (past : last < windowFinish secs n) :
    executor.ensureWindow last n = .error .timeOverflow := by
  have unknown : windowId n ∉ executor.currentWindows := by
    intro known
    obtain ⟨entry, member, same⟩ := List.mem_map.mp (AList.mem_keys.mp known)
    obtain ⟨m, tile⟩ := tiled.tiles entry member
    have number : n = m := windowId_inj (same.symm.trans tile.key)
    exact absurd tile.fits (Int.not_le.mpr (number ▸ past))
  rw [ensureWindow_eq tiled.size, if_neg unknown, if_neg (Int.not_le.mpr past)]

theorem getWindowForEvent_eq (nonzero : executor.windowSize.asSecs ≠ 0)
    (fromEpoch : unixEpoch ≤ timestamp) :
    executor.getWindowForEvent last timestamp =
      (executor.ensureWindow last (windowNumber executor.windowSize.asSecs timestamp)).bind
        fun windows =>
          (unwrapWindow
            (get windows (windowId (windowNumber executor.windowSize.asSecs timestamp)))).map
              fun window =>
                (.ok (windowId (windowNumber executor.windowSize.asSecs timestamp), window),
                  { executor with currentWindows := windows }) := by
  rw [getWindowForEvent, SystemTime.durationSince_epoch fromEpoch]
  simp only [if_neg nonzero, windowNumber]
  cases executor.ensureWindow last
      (Duration.asSecs timestamp.toNat / executor.windowSize.asSecs) with
  | error fault => rfl
  | ok windows =>
    simp only [bind, Except.bind]
    cases unwrapWindow (get windows
      (windowId (Duration.asSecs timestamp.toNat / executor.windowSize.asSecs))) <;> rfl

theorem asSecs_size (size : executor.windowSize = Duration.fromSecs secs) :
    executor.windowSize.asSecs = secs := by
  rw [size, Duration.asSecs_fromSecs]

theorem insertEvent_eq (whole : 1 ≤ secs) (size : executor.windowSize = Duration.fromSecs secs)
    (fromEpoch : unixEpoch ≤ timestamp) (event : String) :
    executor.insertEvent last timestamp event =
      (executor.ensureWindow last (windowNumber secs timestamp)).bind fun windows =>
        (unwrapWindow (get windows (windowId (windowNumber secs timestamp)))).bind fun window =>
          match window.addEvent timestamp event with
          | .error message => .ok (.error message, { executor with currentWindows := windows })
          | .ok added => .ok (.ok (), { executor with
              currentWindows := windows.insert (windowId (windowNumber secs timestamp)) added }) := by
  have seconds := asSecs_size size
  have nonzero : executor.windowSize.asSecs ≠ 0 := by
    rw [seconds]
    exact Nat.ne_of_gt whole
  rw [insertEvent, getWindowForEvent_eq nonzero fromEpoch, seconds]
  generalize windowNumber secs timestamp = n
  cases executor.ensureWindow last n with
  | error fault => rfl
  | ok windows =>
    simp only [bind, Except.bind]
    cases unwrapWindow (get windows (windowId n)) with
    | error fault => rfl
    | ok window => simp only [Except.map, pure, Except.pure]

theorem insertEvent_ok (whole : 1 ≤ secs) (tiled : Tiled last secs executor)
    (fromEpoch : unixEpoch ≤ timestamp)
    (fits : windowFinish secs (windowNumber secs timestamp) ≤ last) (event : String) :
    ∃ executor', executor.insertEvent last timestamp event = .ok (.ok (), executor') ∧
      Tiled last secs executor' ∧
      executor'.liveEvents.Perm ((timestamp, event) :: executor.liveEvents) ∧
      (executor'.liveIds.Perm executor.liveIds ∨
        windowId (windowNumber secs timestamp) ∉ executor.liveIds ∧
        executor'.liveIds.Perm (windowId (windowNumber secs timestamp) :: executor.liveIds)) := by
  obtain ⟨windows, window, ensured, found, tiled', events, ids⟩ := ensureWindow_ok tiled fits
  obtain ⟨m, tile⟩ := tiled'.tiles _ (mem_of_get found)
  have number : m = windowNumber secs timestamp := windowId_inj tile.key.symm
  subst number
  have begun : window.startTime ≤ timestamp := tile.start ▸ windowStart_le secs fromEpoch
  have going : timestamp ≤ window.endTime :=
    tile.finish ▸ Int.le_of_lt (lt_windowFinish whole fromEpoch)
  obtain ⟨added, pushed, id, start, finish, more⟩ := window.addEvent_within event begun going
  obtain ⟨rest, old, new⟩ := values_insert_known found added
  refine ⟨{ executor with
    currentWindows := windows.insert (windowId (windowNumber secs timestamp)) added },
    ?_, ⟨tiled.size, ?_⟩, ?_, ?_⟩
  · rw [insertEvent_eq whole tiled.size fromEpoch, ensured, Except.bind, found, unwrapWindow,
      Except.bind, pushed]
  · intro entry member
    rcases mem_insert member with rfl | older
    · exact ⟨_, tile.key, id.trans tile.id, start.trans tile.start, finish.trans tile.finish,
        tile.fits⟩
    · exact tiled'.tiles entry older
  · have before := old.flatMap_right StreamingWindow.events
    have after := new.flatMap_right StreamingWindow.events
    rw [List.flatMap_cons] at before after
    rw [more, List.append_assoc, List.singleton_append] at after
    rw [← events]
    exact (after.trans List.perm_middle).trans (before.symm.cons _)
  · have before := old.map StreamingWindow.windowId
    have after := new.map StreamingWindow.windowId
    rw [List.map_cons] at before after
    have same := after.trans (id ▸ before.symm)
    rcases ids with ids | ⟨fresh, ids⟩
    · exact .inl (ids ▸ same)
    · exact .inr ⟨fresh, ids ▸ same⟩

theorem insertEvent_overflow (whole : 1 ≤ secs) (tiled : Tiled last secs executor)
    (fromEpoch : unixEpoch ≤ timestamp)
    (past : last < windowFinish secs (windowNumber secs timestamp)) (event : String) :
    executor.insertEvent last timestamp event = .error .timeOverflow := by
  rw [insertEvent_eq whole tiled.size fromEpoch, ensureWindow_overflow tiled past]
  rfl

/-- What is closed ended before the cutoff, and no event is lost. -/
theorem closeWindowsBefore_spec (tiled : Tiled last secs executor) (cutoff : SystemTime) :
    Tiled last secs (executor.closeWindowsBefore cutoff).2 ∧
      executor.liveEvents.Perm ((executor.closeWindowsBefore cutoff).2.liveEvents ++
        (executor.closeWindowsBefore cutoff).1.flatMap StreamingWindow.events) ∧
      executor.liveIds.Perm ((executor.closeWindowsBefore cutoff).2.liveIds ++
        (executor.closeWindowsBefore cutoff).1.map StreamingWindow.windowId) ∧
      ∀ window ∈ (executor.closeWindowsBefore cutoff).1, ∃ n,
        window.windowId = windowId n ∧ windowFinish secs n < cutoff := by
  have parts := values_takeEnded executor.currentWindows cutoff
  refine ⟨⟨tiled.size, ?_⟩, ?_, ?_, ?_⟩
  · intro entry member
    exact tiled.tiles entry ((mem_retain _ _ _).mp member).1
  · have events := parts.flatMap_right StreamingWindow.events
    rw [List.flatMap_append] at events
    rw [closeWindowsBefore, takeEnded, List.flatMap_map]
    exact events
  · have ids := parts.map StreamingWindow.windowId
    rw [List.map_append] at ids
    rw [closeWindowsBefore, takeEnded, List.map_map]
    exact ids
  · intro window member
    obtain ⟨open', inside, rfl⟩ := List.mem_map.mp member
    obtain ⟨inside, ended⟩ := List.mem_filter.mp inside
    obtain ⟨entry, held, rfl⟩ := List.mem_map.mp inside
    obtain ⟨n, tile⟩ := tiled.tiles entry held
    exact ⟨n, tile.id, tile.finish ▸ of_decide_eq_true ended⟩

end TumblingWindowExecutor

/-- No event from the epoch on is inserted after a cutoff that is later than it. -/
def InOrder (ops : List TumblingOp) : Prop :=
  ops.Pairwise fun earlier later => ∀ cutoff timestamp event,
    earlier = .closeBefore cutoff → later = .insert timestamp event →
      unixEpoch ≤ timestamp → cutoff ≤ timestamp

def TumblingOp.eventFromEpoch : TumblingOp → Option (SystemTime × String)
  | .insert timestamp event => if unixEpoch ≤ timestamp then some (timestamp, event) else none
  | .closeBefore _ => none

/-- The run returns and has inserted every event from the epoch on; these are the events of the
    live windows and of the returned ones; and no window is returned twice when the events come
    in order. -/
def Conserves (last : SystemTime) (windowSize : Duration) (ops : List TumblingOp) : Prop :=
  ∃ run, TumblingRun.execute last windowSize ops = .ok run ∧
    run.inserted = ops.filterMap TumblingOp.eventFromEpoch ∧
    run.inserted.Perm
      (run.executor.liveEvents ++ run.returned.flatMap StreamingWindow.events) ∧
    (InOrder ops → (run.returned.map StreamingWindow.windowId).Nodup)

/-- The platform can represent the end of the window that the operation may make. -/
def TumblingOp.Fits (last : SystemTime) (secs : Nat) (op : TumblingOp) : Prop :=
  ∀ timestamp event, op = .insert timestamp event → unixEpoch ≤ timestamp →
    windowFinish secs (windowNumber secs timestamp) ≤ last

namespace TumblingRun

variable {last : SystemTime} {secs : Nat}

structure Held (last : SystemTime) (secs : Nat) (before : List TumblingOp) (run : TumblingRun) :
    Prop where
  tiled : Tiled last secs run.executor
  inserted : run.inserted = before.filterMap TumblingOp.eventFromEpoch
  kept : run.inserted.Perm
    (run.executor.liveEvents ++ run.returned.flatMap StreamingWindow.events)
  ended : ∀ window ∈ run.returned, ∃ n cutoff, TumblingOp.closeBefore cutoff ∈ before ∧
    window.windowId = TumblingWindowExecutor.windowId n ∧ windowFinish secs n < cutoff
  distinct : InOrder before →
    (run.executor.liveIds ++ run.returned.map StreamingWindow.windowId).Nodup

theorem held_start (last : SystemTime) (secs : Nat) :
    Held last secs [] (start (Duration.fromSecs secs)) where
  tiled := TumblingWindowExecutor.tiled_new last secs
  inserted := rfl
  kept := .refl _
  ended := by
    intro window member
    cases member
  distinct _ := List.nodup_nil

theorem inOrder_append {before : List TumblingOp} {op : TumblingOp}
    (ordered : InOrder (before ++ [op])) :
    InOrder before ∧ ∀ cutoff timestamp event, .closeBefore cutoff ∈ before →
      op = .insert timestamp event → unixEpoch ≤ timestamp → cutoff ≤ timestamp := by
  obtain ⟨earlier, -, across⟩ := List.pairwise_append.mp ordered
  refine ⟨earlier, fun cutoff timestamp event member is => ?_⟩
  exact across _ member op List.mem_cons_self cutoff timestamp event rfl is

section Steps

variable {before : List TumblingOp} {run : TumblingRun} {timestamp : SystemTime}

theorem step_early (held : Held last secs before run) (early : timestamp < unixEpoch)
    (event : String) :
    ∃ run', run.step last (.insert timestamp event) = .ok run' ∧
      Held last secs (before ++ [.insert timestamp event]) run' := by
  refine ⟨run, ?_, held.tiled, ?_, held.kept, ?_, ?_⟩
  · rw [step, TumblingWindowExecutor.insertEvent_early event early]
    rfl
  · have none : TumblingOp.eventFromEpoch (.insert timestamp event) = none :=
      if_neg (Int.not_le.mpr early)
    rw [List.filterMap_append, List.filterMap_cons_none none, List.filterMap_nil, List.append_nil,
      held.inserted]
  · intro window member
    obtain ⟨n, cutoff, closed, rest⟩ := held.ended window member
    exact ⟨n, cutoff, List.mem_append_left _ closed, rest⟩
  · exact fun ordered => held.distinct (inOrder_append ordered).1

/-- In order, the window of a new event is none of the returned ones: these ended before a
    cutoff, and the event did not come before it. -/
theorem fresh_of_inOrder (whole : 1 ≤ secs) (held : Held last secs before run)
    (fromEpoch : unixEpoch ≤ timestamp) {event : String}
    (ordered : InOrder (before ++ [.insert timestamp event])) :
    TumblingWindowExecutor.windowId (windowNumber secs timestamp) ∉
      run.returned.map StreamingWindow.windowId := by
  intro again
  obtain ⟨window, member, same⟩ := List.mem_map.mp again
  obtain ⟨n, cutoff, closed, id, ended⟩ := held.ended window member
  have number : n = windowNumber secs timestamp := windowId_inj (id.symm.trans same)
  have due := (inOrder_append ordered).2 cutoff timestamp event closed rfl fromEpoch
  have going := lt_windowFinish whole fromEpoch
  rw [number] at ended
  exact absurd (Int.lt_trans going ended) (Int.not_lt.mpr due)

theorem step_insert (whole : 1 ≤ secs) (held : Held last secs before run)
    (fromEpoch : unixEpoch ≤ timestamp)
    (fits : windowFinish secs (windowNumber secs timestamp) ≤ last) (event : String) :
    ∃ run', run.step last (.insert timestamp event) = .ok run' ∧
      Held last secs (before ++ [.insert timestamp event]) run' := by
  obtain ⟨executor, inserted, tiled, events, ids⟩ :=
    TumblingWindowExecutor.insertEvent_ok whole held.tiled fromEpoch fits event
  refine ⟨{ run with executor := executor, inserted := run.inserted ++ [(timestamp, event)] },
    ?_, tiled, ?_, ?_, ?_, ?_⟩
  · rw [step, inserted]
    rfl
  · have some : TumblingOp.eventFromEpoch (.insert timestamp event) = some (timestamp, event) :=
      if_pos fromEpoch
    rw [List.filterMap_append, List.filterMap_cons_some some, List.filterMap_nil, held.inserted]
  · exact (List.perm_append_singleton _ _).trans
      ((held.kept.cons _).trans (events.symm.append_right _))
  · intro window member
    obtain ⟨n, cutoff, closed, rest⟩ := held.ended window member
    exact ⟨n, cutoff, List.mem_append_left _ closed, rest⟩
  · intro ordered
    have distinct := held.distinct (inOrder_append ordered).1
    rcases ids with same | ⟨fresh, more⟩
    · exact ((same.append_right _).nodup_iff).mpr distinct
    · have unseen := fresh_of_inOrder whole held fromEpoch ordered
      refine ((more.append_right _).nodup_iff).mpr (List.nodup_cons.mpr ⟨?_, distinct⟩)
      intro either
      rcases List.mem_append.mp either with live | returned
      · exact fresh live
      · exact unseen returned

theorem step_close (held : Held last secs before run) (cutoff : SystemTime) :
    ∃ run', run.step last (.closeBefore cutoff) = .ok run' ∧
      Held last secs (before ++ [.closeBefore cutoff]) run' := by
  obtain ⟨tiled, events, ids, ended⟩ :=
    TumblingWindowExecutor.closeWindowsBefore_spec held.tiled cutoff
  refine ⟨_, rfl, tiled, ?_, ?_, ?_, ?_⟩
  · rw [List.filterMap_append, held.inserted]
    exact (List.append_nil _).symm
  · rw [List.flatMap_append]
    refine held.kept.trans ((events.append_right _).trans ?_)
    rw [List.append_assoc]
    exact List.perm_append_comm.append_left _
  · intro window member
    rcases List.mem_append.mp member with earlier | now
    · obtain ⟨n, cutoff', closed, rest⟩ := held.ended window earlier
      exact ⟨n, cutoff', List.mem_append_left _ closed, rest⟩
    · obtain ⟨n, id, before⟩ := ended window now
      exact ⟨n, cutoff, List.mem_append_right _ List.mem_cons_self, id, before⟩
  · intro ordered
    have distinct := held.distinct (inOrder_append ordered).1
    rw [List.map_append]
    refine (List.Perm.nodup_iff ?_).mp distinct
    refine (ids.append_right _).trans ?_
    rw [List.append_assoc]
    exact List.perm_append_comm.append_left _

theorem step_ok (whole : 1 ≤ secs) (held : Held last secs before run) (op : TumblingOp)
    (fits : op.Fits last secs) :
    ∃ run', run.step last op = .ok run' ∧ Held last secs (before ++ [op]) run' := by
  cases op with
  | insert timestamp event =>
    rcases Int.lt_or_le timestamp unixEpoch with early | fromEpoch
    · exact step_early held early event
    · exact step_insert whole held fromEpoch (fits timestamp event rfl fromEpoch) event
  | closeBefore cutoff => exact step_close held cutoff

theorem step_overflow (whole : 1 ≤ secs) (held : Held last secs before run) (op : TumblingOp)
    (past : ¬ op.Fits last secs) : run.step last op = .error .timeOverflow := by
  simp only [TumblingOp.Fits, not_forall, Int.not_le] at past
  obtain ⟨timestamp, event, rfl, fromEpoch, past⟩ := past
  rw [step, TumblingWindowExecutor.insertEvent_overflow whole held.tiled fromEpoch past]
  rfl

end Steps

theorem run_ok (whole : 1 ≤ secs) {before : List TumblingOp} {run : TumblingRun}
    (held : Held last secs before run) (ops : List TumblingOp)
    (fits : ∀ op ∈ ops, op.Fits last secs) :
    ∃ run', ops.foldlM (step last) run = .ok run' ∧ Held last secs (before ++ ops) run' := by
  induction ops generalizing before run with
  | nil => exact ⟨run, rfl, by rwa [List.append_nil]⟩
  | cons op ops ih =>
    obtain ⟨next, stepped, held'⟩ := step_ok whole held op (fits op List.mem_cons_self)
    obtain ⟨run', ran, final⟩ := ih held' fun later member =>
      fits later (List.mem_cons_of_mem op member)
    rw [List.append_assoc, List.singleton_append] at final
    exact ⟨run', by rw [List.foldlM_cons, stepped]; exact ran, final⟩

theorem run_overflow (whole : 1 ≤ secs) {before : List TumblingOp} {run : TumblingRun}
    (held : Held last secs before run) (ops : List TumblingOp)
    (past : ¬ ∀ op ∈ ops, op.Fits last secs) :
    ops.foldlM (step last) run = .error .timeOverflow := by
  induction ops generalizing before run with
  | nil => exact absurd (List.forall_mem_nil _) past
  | cons op ops ih =>
    by_cases fits : op.Fits last secs
    · obtain ⟨next, stepped, held'⟩ := step_ok whole held op fits
      rw [List.foldlM_cons, stepped]
      exact ih held' fun later => past (List.forall_mem_cons.mpr ⟨fits, later⟩)
    · rw [List.foldlM_cons, step_overflow whole held op fits]
      rfl

end TumblingRun

/-- A run over tumbling windows of whole seconds conserves the events exactly when the platform
    can represent the end of the window of every event from the epoch on. -/
theorem tumbling_conserves_iff (last : SystemTime) (secs : Nat) (whole : 1 ≤ secs)
    (ops : List TumblingOp) :
    Conserves last (Duration.fromSecs secs) ops ↔
      ∀ timestamp event, .insert timestamp event ∈ ops → unixEpoch ≤ timestamp →
        windowFinish secs (windowNumber secs timestamp) ≤ last := by
  have held := TumblingRun.held_start last secs
  have all : (∀ op ∈ ops, op.Fits last secs) ↔
      ∀ timestamp event, .insert timestamp event ∈ ops → unixEpoch ≤ timestamp →
        windowFinish secs (windowNumber secs timestamp) ≤ last := by
    constructor
    · exact fun fits timestamp event member => fits _ member timestamp event rfl
    · rintro fits op member timestamp event rfl
      exact fits timestamp event member
  rw [← all]
  constructor
  · rintro ⟨run, ran, -⟩
    by_contra past
    rw [TumblingRun.execute, TumblingRun.run_overflow whole held ops past] at ran
    cases ran
  · intro fits
    obtain ⟨run, ran, final⟩ := TumblingRun.run_ok whole held ops fits
    refine ⟨run, ran, final.inserted, final.kept, fun ordered => ?_⟩
    exact (List.nodup_append.mp (final.distinct ordered)).2.1

theorem tumbling_conserves_minutes :
    Conserves unixLast (Duration.fromSecs 60)
      [.insert 5000000000 "a", .insert 65000000000 "b", .closeBefore 61000000000,
        .insert 62000000000 "c"] := by
  refine (tumbling_conserves_iff unixLast 60 (by decide) _).mpr ?_
  intro timestamp event member _
  simp only [List.mem_cons, TumblingOp.insert.injEq, List.not_mem_nil, or_false, reduceCtorEq,
    false_or] at member
  rcases member with ⟨rfl, -⟩ | ⟨rfl, -⟩ | ⟨rfl, -⟩ <;> decide

/-- The window of the last whole second that Unix can represent has no end, so the insert does
    not return. -/
theorem last_second_panics :
    ¬ Conserves unixLast (Duration.fromSecs 1) [.insert (9223372036854775807 * 1000000000) "e"] := by
  rintro ⟨run, ran, -⟩
  have panics : TumblingRun.execute unixLast (Duration.fromSecs 1)
      [.insert (9223372036854775807 * 1000000000) "e"] = .error .timeOverflow := by rfl
  rw [panics] at ran
  cases ran

end StatGuardian.Core.Streaming
