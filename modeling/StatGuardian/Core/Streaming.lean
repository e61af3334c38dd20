import Mathlib.Algebra.Group.Int.Defs
import StatGuardian.Library.KeyedValues

namespace StatGuardian.Core.Streaming

open KeyedValues

/-- A `Duration`, by its nanoseconds. -/
abbrev Duration := Nat

def Duration.fromSecs (secs : Nat) : Duration := secs * 1000000000

def Duration.asSecs (d : Duration) : Nat := d / 1000000000

/-- A `SystemTime`, by its nanoseconds since the epoch. -/
abbrev SystemTime := Int

def unixEpoch : SystemTime := 0

theorem Duration.asSecs_fromSecs (secs : Nat) : Duration.asSecs (Duration.fromSecs secs) = secs := by
  rw [Duration.asSecs, Duration.fromSecs]
  omega

theorem Duration.asSecs_le (d : Duration) : Duration.asSecs d * 1000000000 ≤ d :=
  Nat.div_mul_le_self d 1000000000

theorem Duration.lt_asSecs_succ (d : Duration) : d < (Duration.asSecs d + 1) * 1000000000 :=
  Nat.lt_mul_of_div_lt (Nat.lt_succ_self _) (by decide)

/-- The ways a call can fail to return. -/
inductive TimeFault where
  | timeOverflow
  | divideByZero
  | unwrapNone
  | divergence
  deriving DecidableEq, Repr

/-- `duration_since`, whose error is the text of a `SystemTimeError`. -/
def SystemTime.durationSince (t earlier : SystemTime) : Except String Duration :=
  if earlier ≤ t then .ok (t - earlier).toNat
  else .error "second time provided was later than self"

theorem SystemTime.durationSince_early {timestamp : SystemTime}
    (early : timestamp < unixEpoch) :
    timestamp.durationSince unixEpoch = .error "second time provided was later than self" :=
  if_neg (Int.not_le.mpr early)

theorem SystemTime.durationSince_epoch {timestamp : SystemTime}
    (fromEpoch : unixEpoch ≤ timestamp) :
    timestamp.durationSince unixEpoch = .ok timestamp.toNat := by
  rw [SystemTime.durationSince, if_pos fromEpoch, unixEpoch, Int.sub_zero]

/-- `t + d`, which panics past the last instant that the platform can represent. -/
def SystemTime.plus (t last : SystemTime) (d : Duration) : Except TimeFault SystemTime :=
  if t + d ≤ last then .ok (t + d) else .error .timeOverflow

/-- The last instant on Unix, where the seconds are an `i64`. -/
def unixLast : SystemTime := 2 ^ 63 * 1000000000 - 1

structure StreamingWindow where
  windowId : String
  startTime : SystemTime
  endTime : SystemTime
  events : List (SystemTime × String)
  isClosed : Bool
  deriving DecidableEq, Repr

namespace StreamingWindow

def new (windowId : String) (start finish : SystemTime) : StreamingWindow where
  windowId := windowId
  startTime := start
  endTime := finish
  events := []
  isClosed := false

def addEvent (window : StreamingWindow) (timestamp : SystemTime) (event : String) :
    Except String StreamingWindow :=
  if timestamp < window.startTime ∨ timestamp > window.endTime then
    .error "Event timestamp outside window bounds"
  else .ok { window with events := window.events ++ [(timestamp, event)] }

def close (window : StreamingWindow) : StreamingWindow := { window with isClosed := true }

end StreamingWindow

/-- The `HashMap` of the windows by id, in an order that no result depends on. -/
abbrev WindowMap := Map String StreamingWindow

/-- The `retain` that takes out, closed, the windows that end before the cutoff. -/
def takeEnded (windows : WindowMap) (cutoff : SystemTime) : List StreamingWindow × WindowMap :=
  (((values windows).filter (fun window => window.endTime < cutoff)).map StreamingWindow.close,
    retain (fun window => !decide (window.endTime < cutoff)) windows)

theorem values_takeEnded (windows : WindowMap) (cutoff : SystemTime) :
    (values windows).Perm (values (takeEnded windows cutoff).2 ++
      (values windows).filter (fun window => window.endTime < cutoff)) := by
  have parts := values_perm (fun window => !decide (window.endTime < cutoff)) windows
  simp only [Bool.not_not] at parts
  exact parts

def unwrapWindow : Option StreamingWindow → Except TimeFault StreamingWindow
  | some window => .ok window
  | none => .error .unwrapNone

structure TumblingWindowExecutor where
  windowSize : Duration
  currentWindows : WindowMap

namespace TumblingWindowExecutor

def new (windowSize : Duration) : TumblingWindowExecutor where
  windowSize := windowSize
  currentWindows := ∅

/-- `format!("window_{}", window_number)` -/
def windowId (windowNumber : Nat) : String := "window_" ++ toString windowNumber

def ensureWindow (last : SystemTime) (executor : TumblingWindowExecutor) (windowNumber : Nat) :
    Except TimeFault WindowMap :=
  let key := windowId windowNumber
  if key ∈ executor.currentWindows then .ok executor.currentWindows
  else do
    let windowStart ← unixEpoch.plus last
      (Duration.fromSecs (windowNumber * executor.windowSize.asSecs))
    let windowEnd ← windowStart.plus last executor.windowSize
    pure (executor.currentWindows.insert key (.new key windowStart windowEnd))

/-- The borrowed window comes with its key, under which the borrower writes it back. -/
def getWindowForEvent (last : SystemTime) (executor : TumblingWindowExecutor)
    (timestamp : SystemTime) :
    Except TimeFault (Except String (String × StreamingWindow) × TumblingWindowExecutor) :=
  match timestamp.durationSince unixEpoch with
  | .error message => .ok (.error message, executor)
  | .ok durationSinceEpoch =>
    if executor.windowSize.asSecs = 0 then .error .divideByZero
    else do
      let windowNumber := durationSinceEpoch.asSecs / executor.windowSize.asSecs
      let windows ← executor.ensureWindow last windowNumber
      let window ← unwrapWindow (get windows (windowId windowNumber))
      pure (.ok (windowId windowNumber, window), { executor with currentWindows := windows })

def closeWindowsBefore (executor : TumblingWindowExecutor) (cutoffTime : SystemTime) :
    List StreamingWindow × TumblingWindowExecutor :=
  let (closed, windows) := takeEnded executor.currentWindows cutoffTime
  (closed, { executor with currentWindows := windows })

end TumblingWindowExecutor

structure SlidingWindowExecutor where
  windowSize : Duration
  slideInterval : Duration
  currentWindows : WindowMap

namespace SlidingWindowExecutor

def new (windowSize slideInterval : Duration) : SlidingWindowExecutor where
  windowSize := windowSize
  slideInterval := slideInterval
  currentWindows := ∅

/-- `format!("sliding_{}_{}", slide_count, slide_start)` -/
def windowId (slideCount slideStart : Nat) : String :=
  "sliding_" ++ toString slideCount ++ "_" ++ toString slideStart

/-- The body of the loop for a window around the timestamp: make it if it is not there, and
    clone it. -/
def visit (windows : WindowMap) (matched : List StreamingWindow) (key : String)
    (windowStart windowEnd : SystemTime) : WindowMap × List StreamingWindow :=
  let windows :=
    if key ∈ windows then windows else windows.insert key (.new key windowStart windowEnd)
  (windows, matched ++ (get windows key).toList)

/-- The loop over the slides. The product of count and interval stays below `2^64`, since the
    sum with the epoch panics before that. -/
def walk (last : SystemTime) (windowSize slideInterval : Duration) (timestamp : SystemTime) :
    Nat → Nat → WindowMap → List StreamingWindow →
      Except TimeFault (WindowMap × List StreamingWindow)
  | 0, _, _, _ => .error .divergence
  | fuel + 1, slideCount, windows, matched => do
    let slideStart := slideCount * slideInterval.asSecs
    let windowStart ← unixEpoch.plus last (Duration.fromSecs slideStart)
    let windowEnd ← windowStart.plus last windowSize
    let (windows, matched) :=
      if timestamp ≥ windowStart ∧ timestamp ≤ windowEnd then
        visit windows matched (windowId slideCount slideStart) windowStart windowEnd
      else (windows, matched)
    if windowEnd > timestamp then pure (windows, matched)
    else walk last windowSize slideInterval timestamp fuel (slideCount + 1) windows matched

/-- Removes the windows that ended before the cutoff and hands them out, closed. -/
def evictExpired (executor : SlidingWindowExecutor) (cutoffTime : SystemTime) :
    List StreamingWindow × SlidingWindowExecutor :=
  let (evicted, windows) := takeEnded executor.currentWindows cutoffTime
  (evicted, { executor with currentWindows := windows })

/-- After so many rounds even a window for each second is past the timestamp, so a loop that
    needs more of them never ends. -/
def rounds (timestamp : SystemTime) : Nat := Duration.asSecs timestamp.toNat + 2

/-- The windows after the loop, and the clones of the ones around the timestamp. -/
def slideOver (last : SystemTime) (executor : SlidingWindowExecutor) (timestamp : SystemTime) :
    Except TimeFault (WindowMap × List StreamingWindow) :=
  walk last executor.windowSize executor.slideInterval timestamp (rounds timestamp) 0
    executor.currentWindows []

def getWindowsForEvent (last : SystemTime) (executor : SlidingWindowExecutor)
    (timestamp : SystemTime) :
    Except TimeFault (Except String (List StreamingWindow) × SlidingWindowExecutor) :=
  match timestamp.durationSince unixEpoch with
  | .error message => .ok (.error message, executor)
  | .ok _ => do
    let (windows, matched) ← executor.slideOver last timestamp
    -- what the eviction hands out is not used
    let (_, executor) := evictExpired { executor with currentWindows := windows } timestamp
    pure (.ok matched, executor)

end SlidingWindowExecutor

end StatGuardian.Core.Streaming
