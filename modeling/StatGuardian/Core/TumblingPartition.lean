import StatGuardian.Core.Tumbling

namespace StatGuardian.Core.Streaming

open KeyedValues

section Calls

variable {last timestamp : SystemTime} {secs : Nat} {executor : TumblingWindowExecutor}

theorem TumblingWindowExecutor.getWindowForEvent_tile (whole : 1 ≤ secs)
    (tiled : Tiled last secs executor) (fromEpoch : unixEpoch ≤ timestamp)
    (fits : windowFinish secs (windowNumber secs timestamp) ≤ last) :
    ∃ key window executor', executor.getWindowForEvent last timestamp =
        .ok (.ok (key, window), executor') ∧
      IsTile last secs (windowNumber secs timestamp) ⟨key, window⟩ := by
  obtain ⟨windows, window, ensured, found, tiled', -⟩ := ensureWindow_ok tiled fits
  obtain ⟨m, tile⟩ := tiled'.tiles _ (mem_of_get found)
  obtain rfl : windowNumber secs timestamp = m := windowId_inj tile.key
  have seconds := asSecs_size tiled.size
  have nonzero : executor.windowSize.asSecs ≠ 0 := by
    rw [seconds]
    exact Nat.ne_of_gt whole
  refine ⟨_, window, { executor with currentWindows := windows }, ?_, tile⟩
  rw [getWindowForEvent_eq nonzero fromEpoch, seconds, ensured, Except.bind, found]
  rfl

theorem TumblingWindowExecutor.getWindowForEvent_overflow (whole : 1 ≤ secs)
    (tiled : Tiled last secs executor) (fromEpoch : unixEpoch ≤ timestamp)
    (past : last < windowFinish secs (windowNumber secs timestamp)) :
    executor.getWindowForEvent last timestamp = .error .timeOverflow := by
  have seconds := asSecs_size tiled.size
  have nonzero : executor.windowSize.asSecs ≠ 0 := by
    rw [seconds]
    exact Nat.ne_of_gt whole
  rw [getWindowForEvent_eq nonzero fromEpoch, seconds, ensureWindow_overflow tiled past]
  rfl

theorem StreamingWindow.addEvent_ok_iff (window : StreamingWindow) (timestamp : SystemTime)
    (event : String) :
    (∃ added, window.addEvent timestamp event = .ok added) ↔
      window.startTime ≤ timestamp ∧ timestamp ≤ window.endTime := by
  constructor
  · rintro ⟨added, pushed⟩
    rw [addEvent] at pushed
    split at pushed
    · cases pushed
    · rename_i within
      rw [not_or] at within
      exact ⟨Int.not_lt.mp within.1, Int.not_lt.mp within.2⟩
  · rintro ⟨begun, going⟩
    obtain ⟨added, pushed, -⟩ := window.addEvent_within event begun going
    exact ⟨added, pushed⟩

end Calls

namespace TumblingRun

variable {last : SystemTime} {secs : Nat}

/-- The windows that some run has live. -/
def Creates (last : SystemTime) (windowSize : Duration) (window : StreamingWindow) : Prop :=
  ∃ ops run, execute last windowSize ops = .ok run ∧ window ∈ values run.executor.currentWindows

theorem execute_tiled (whole : 1 ≤ secs) {ops : List TumblingOp} {run : TumblingRun}
    (ran : execute last (Duration.fromSecs secs) ops = .ok run) : Tiled last secs run.executor := by
  have held := held_start last secs
  by_cases fits : ∀ op ∈ ops, op.Fits last secs
  · obtain ⟨run', ran', held'⟩ := run_ok whole held ops fits
    cases Except.ok.inj (ran.symm.trans ran')
    exact held'.tiled
  · rw [execute, run_overflow whole held ops fits] at ran
    cases ran

theorem execute_insert {windowSize : Duration} {timestamp : SystemTime} {event : String}
    {executor : TumblingWindowExecutor}
    (inserted : (TumblingWindowExecutor.new windowSize).insertEvent last timestamp event =
      .ok (.ok (), executor)) :
    execute last windowSize [.insert timestamp event] =
      .ok ⟨executor, [(timestamp, event)], []⟩ := by
  rw [execute, List.foldlM_cons, step, start, inserted]
  rfl

theorem creates_tile (whole : 1 ≤ secs) {window : StreamingWindow}
    (created : Creates last (Duration.fromSecs secs) window) :
    ∃ n key, IsTile last secs n ⟨key, window⟩ := by
  obtain ⟨ops, run, ran, member⟩ := created
  obtain ⟨⟨key, window⟩, inside, rfl⟩ := List.mem_map.mp member
  obtain ⟨n, tile⟩ := (execute_tiled whole ran).tiles _ inside
  exact ⟨n, key, tile⟩

end TumblingRun

/-- An event at the timestamp is accepted by the window that the call returns, and by no other
    that an executor of the size can create. -/
def AcceptedOnce (last : SystemTime) (windowSize : Duration) (timestamp : SystemTime) : Prop :=
  ∀ ops run event, TumblingRun.execute last windowSize ops = .ok run →
    ∃ key window executor, run.executor.getWindowForEvent last timestamp =
        .ok (.ok (key, window), executor) ∧
      (∃ added, window.addEvent timestamp event = .ok added) ∧
      ∀ other, TumblingRun.Creates last windowSize other →
        (∃ added, other.addEvent timestamp event = .ok added) → other.windowId = window.windowId

section Boundaries

variable {last timestamp : SystemTime} {secs : Nat}

theorem windowNumber_eq_iff (whole : 1 ≤ secs) (fromEpoch : unixEpoch ≤ timestamp) (n : Nat) :
    windowNumber secs timestamp = n ↔
      (Duration.fromSecs (n * secs) : Int) ≤ timestamp ∧ timestamp < windowFinish secs n := by
  constructor
  · rintro rfl
    exact ⟨windowStart_le secs fromEpoch, lt_windowFinish whole fromEpoch⟩
  · rintro ⟨begun, going⟩
    obtain ⟨t, rfl⟩ := Int.eq_ofNat_of_zero_le fromEpoch
    have begun : n * secs * 1000000000 ≤ t := Int.ofNat_le.mp begun
    have going : t < (n + 1) * secs * 1000000000 := Int.ofNat_lt.mp going
    rw [windowNumber, Int.toNat_natCast, Duration.asSecs]
    refine Nat.div_eq_of_lt_le ?_ ?_
    · exact (Nat.le_div_iff_mul_le (by decide)).mpr begun
    · exact (Nat.div_lt_iff_lt_mul (by decide)).mpr going

def AtBoundary (secs : Nat) (timestamp : SystemTime) : Prop := ∃ n, timestamp = windowFinish secs n

/-- Away from the ends of windows, only the window of the timestamp's number has it in its range. -/
theorem number_of_within (whole : 1 ≤ secs) (fromEpoch : unixEpoch ≤ timestamp)
    (inside : ¬ AtBoundary secs timestamp) {n : Nat}
    (begun : (Duration.fromSecs (n * secs) : Int) ≤ timestamp)
    (going : timestamp ≤ windowFinish secs n) : windowNumber secs timestamp = n := by
  refine (windowNumber_eq_iff whole fromEpoch n).mpr ⟨begun, ?_⟩
  exact Int.lt_iff_le_and_ne.mpr ⟨going, fun ends => inside ⟨n, ends⟩⟩

theorem TumblingWindowExecutor.insertEvent_holds {executor : TumblingWindowExecutor}
    (whole : 1 ≤ secs) (tiled : Tiled last secs executor) (fromEpoch : unixEpoch ≤ timestamp)
    (fits : windowFinish secs (windowNumber secs timestamp) ≤ last) (event : String) :
    ∃ executor' added, executor.insertEvent last timestamp event = .ok (.ok (), executor') ∧
      get executor'.currentWindows (windowId (windowNumber secs timestamp)) = some added := by
  obtain ⟨key, window, borrowed, returned, tile⟩ :=
    getWindowForEvent_tile whole tiled fromEpoch fits
  obtain rfl : key = windowId (windowNumber secs timestamp) := tile.key
  have begun : window.startTime ≤ timestamp := tile.start ▸ windowStart_le secs fromEpoch
  have going : timestamp ≤ window.endTime :=
    tile.finish ▸ Int.le_of_lt (lt_windowFinish whole fromEpoch)
  obtain ⟨added, pushed, -⟩ := window.addEvent_within event begun going
  refine ⟨⟨borrowed.windowSize,
    borrowed.currentWindows.insert (windowId (windowNumber secs timestamp)) added⟩, added, ?_,
    get_insert ..⟩
  simp only [insertEvent, returned, bind, Except.bind, pushed]
  rfl

theorem creates_of_fits (whole : 1 ≤ secs) {n : Nat} (fits : windowFinish secs n ≤ last) :
    ∃ key window, TumblingRun.Creates last (Duration.fromSecs secs) window ∧
      IsTile last secs n ⟨key, window⟩ := by
  have fromEpoch : unixEpoch ≤ (Duration.fromSecs (n * secs) : Int) := Int.natCast_nonneg _
  have going : (Duration.fromSecs (n * secs) : Int) < windowFinish secs n := by
    rw [← TumblingWindowExecutor.windowStart_add]
    have positive : 0 < Duration.fromSecs secs := Nat.mul_pos whole (by decide)
    exact Int.lt_add_of_pos_right _ (Int.natCast_pos.mpr positive)
  have number : windowNumber secs (Duration.fromSecs (n * secs) : Int) = n :=
    (windowNumber_eq_iff whole fromEpoch n).mpr ⟨Int.le_refl _, going⟩
  obtain ⟨executor, added, inserted, found⟩ := TumblingWindowExecutor.insertEvent_holds whole
    (TumblingWindowExecutor.tiled_new last secs) fromEpoch (number.symm ▸ fits) "e"
  rw [number] at found
  have ran := TumblingRun.execute_insert inserted
  have member := mem_of_get found
  obtain ⟨m, tile⟩ := (TumblingRun.execute_tiled whole ran).tiles _ member
  obtain rfl : n = m := windowId_inj tile.key
  exact ⟨_, added, ⟨_, _, ran, List.mem_map.mpr ⟨_, member, rfl⟩⟩, tile⟩

theorem creates_ending (whole : 1 ≤ secs) {n : Nat} (fits : windowFinish secs n ≤ last)
    (event : String) :
    ∃ window, TumblingRun.Creates last (Duration.fromSecs secs) window ∧
      window.windowId = TumblingWindowExecutor.windowId n ∧
      ∃ added, window.addEvent (windowFinish secs n) event = .ok added := by
  obtain ⟨key, window, created, tile⟩ := creates_of_fits whole fits
  refine ⟨window, created, tile.id, (window.addEvent_ok_iff _ event).mpr ⟨?_, ?_⟩⟩
  · rw [tile.start, ← TumblingWindowExecutor.windowStart_add]
    exact Int.le_add_of_nonneg_right (Int.natCast_nonneg _)
  · exact Int.le_of_eq tile.finish.symm

end Boundaries

/-- Windows of whole seconds accept an event once exactly when the window of its number can be
    represented and no other one ends at the event. -/
theorem accepted_once_iff (last : SystemTime) (secs : Nat) (whole : 1 ≤ secs)
    (timestamp : SystemTime) (fromEpoch : unixEpoch ≤ timestamp) :
    AcceptedOnce last (Duration.fromSecs secs) timestamp ↔
      windowFinish secs (windowNumber secs timestamp) ≤ last ∧ ¬ AtBoundary secs timestamp := by
  have tiled := TumblingWindowExecutor.tiled_new last secs
  constructor
  · intro once
    obtain ⟨key, window, executor, returned, -, only⟩ := once [] (.start _) "e" rfl
    have fits : windowFinish secs (windowNumber secs timestamp) ≤ last := by
      refine Int.not_lt.mp fun past => ?_
      have failed :=
        TumblingWindowExecutor.getWindowForEvent_overflow whole tiled fromEpoch past
      cases failed.symm.trans returned
    obtain ⟨key', window', executor', returned', tile⟩ :=
      TumblingWindowExecutor.getWindowForEvent_tile whole tiled fromEpoch fits
    cases returned.symm.trans returned'
    refine ⟨fits, ?_⟩
    rintro ⟨n, rfl⟩
    -- the window that ends at the timestamp can be represented, since its successor can
    have step : windowFinish secs n < windowFinish secs (windowNumber secs (windowFinish secs n)) :=
      lt_windowFinish whole fromEpoch
    obtain ⟨earlier, created, id, accepts⟩ :=
      creates_ending whole (Int.le_trans (Int.le_of_lt step) fits) "e"
    have same := only earlier created accepts
    rw [id, tile.id] at same
    rw [← windowId_inj same] at step
    exact Int.lt_irrefl _ step
  · rintro ⟨fits, inside⟩ ops run event ran
    obtain ⟨key, window, executor, returned, tile⟩ :=
      TumblingWindowExecutor.getWindowForEvent_tile whole (TumblingRun.execute_tiled whole ran)
        fromEpoch fits
    refine ⟨key, window, executor, returned, (window.addEvent_ok_iff _ event).mpr ⟨?_, ?_⟩, ?_⟩
    · exact tile.start ▸ windowStart_le secs fromEpoch
    · exact tile.finish ▸ Int.le_of_lt (lt_windowFinish whole fromEpoch)
    · intro other created accepts
      obtain ⟨begun, going⟩ := (other.addEvent_ok_iff _ event).mp accepts
      obtain ⟨n, key, tile'⟩ := TumblingRun.creates_tile whole created
      have number := number_of_within whole fromEpoch inside (tile'.start ▸ begun)
        (tile'.finish ▸ going)
      rw [tile'.id, tile.id, number]

theorem accepted_once_iff_minute :
    AcceptedOnce unixLast (Duration.fromSecs 60) 119999999999 := by
  refine (accepted_once_iff unixLast 60 (by decide) 119999999999 (by decide)).mpr ⟨by decide, ?_⟩
  rintro ⟨n, ends⟩
  have ends : (119999999999 : Int) = ((n + 1) * 60 * 1000000000 : Nat) := ends
  omega

/-- The second 60 is in the window of the epoch and in the next one. -/
theorem boundary_accepted_twice :
    ∃ run ended begun, TumblingRun.execute unixLast (Duration.fromSecs 60)
        [.insert 0 "a", .insert 60000000000 "b"] = .ok run ∧
      values run.executor.currentWindows = [begun, ended] ∧
      begun.windowId = "window_1" ∧ ended.windowId = "window_0" ∧
      (∃ added, begun.addEvent 60000000000 "c" = .ok added) ∧
      ∃ added, ended.addEvent 60000000000 "c" = .ok added := by
  exact ⟨_, _, _, rfl, rfl, rfl, rfl, ⟨_, rfl⟩, ⟨_, rfl⟩⟩

end StatGuardian.Core.Streaming
