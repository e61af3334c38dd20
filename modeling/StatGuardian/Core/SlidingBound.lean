import StatGuardian.Core.Sliding
import Mathlib.Data.List.Nodup

namespace StatGuardian.Core.Streaming

open KeyedValues

theorem multiples_length_le {counts : List Nat} (distinct : counts.Nodup) {step size t : Nat}
    (positive : 0 < step) (inside : ∀ c ∈ counts, c * step ≤ t ∧ t ≤ c * step + size) :
    counts.length ≤ size / step + 1 := by
  have range : counts ⊆ List.range' (t / step - size / step) (size / step + 1) := by
    intro c member
    obtain ⟨lower, upper⟩ := inside c member
    have most : c ≤ t / step := (Nat.le_div_iff_mul_le positive).mpr lower
    have least : t / step ≤ c + size / step := by
      calc t / step ≤ (c * step + size) / step := Nat.div_le_div_right upper
        _ = c + size / step := by rw [Nat.add_comm, Nat.add_mul_div_right _ _ positive, Nat.add_comm]
    exact List.mem_range'_1.mpr (by omega)
  have fewer := (List.subperm_of_subset distinct range).length_le
  rwa [List.length_range'] at fewer

section Counting

variable {last timestamp : SystemTime} {windowSize : Duration} {secs : Nat}
  {executor : SlidingWindowExecutor}

theorem slideStart_fromSecs (secs count : Nat) :
    slideStart (Duration.fromSecs secs) count = (count * Duration.fromSecs secs : Nat) := by
  rw [slideStart, Duration.asSecs_fromSecs, Duration.fromSecs, Duration.fromSecs, Nat.mul_assoc]

def countOf (secs : Nat) (entry : Sigma fun _ : String => StreamingWindow) : Nat :=
  entry.2.startTime.toNat / Duration.fromSecs secs

theorem fromSecs_pos (whole : 1 ≤ secs) : 0 < Duration.fromSecs secs :=
  Nat.mul_pos whole (by decide)

theorem countOf_eq (whole : 1 ≤ secs) {entry : Sigma fun _ : String => StreamingWindow} {count : Nat}
    (slide : IsSlide windowSize (Duration.fromSecs secs) entry count) : countOf secs entry = count := by
  rw [countOf, slide.start, slideStart_fromSecs, Int.toNat_natCast,
    Nat.mul_div_cancel _ (fromSecs_pos whole)]

theorem countOf_distinct (whole : 1 ≤ secs)
    (slides : Slides windowSize (Duration.fromSecs secs) executor) :
    (executor.currentWindows.entries.map (countOf secs)).Nodup := by
  refine List.Nodup.map_on ?_ executor.currentWindows.nodupKeys.nodup
  intro entry member entry' member' same
  obtain ⟨count, slide⟩ := slides.slides entry member
  obtain ⟨count', slide'⟩ := slides.slides entry' member'
  rw [countOf_eq whole slide, countOf_eq whole slide'] at same
  have key : entry.1 = entry'.1 := by rw [slide.key, slide'.key, same]
  exact executor.currentWindows.nodupKeys.eq_of_fst_eq member member' key

/-- Windows around one timestamp start at different multiples of the interval, none further back
    than the size. -/
theorem length_le_of_around (whole : 1 ≤ secs)
    (slides : Slides windowSize (Duration.fromSecs secs) executor) (fromEpoch : unixEpoch ≤ timestamp)
    (around : ∀ entry ∈ executor.currentWindows.entries, Around timestamp entry) :
    executor.currentWindows.entries.length ≤ windowSize / Duration.fromSecs secs + 1 := by
  rw [← List.length_map (f := countOf secs)]
  refine multiples_length_le (countOf_distinct whole slides) (fromSecs_pos whole)
    (t := timestamp.toNat) fun count member => ?_
  obtain ⟨entry, held, rfl⟩ := List.mem_map.mp member
  obtain ⟨count, slide⟩ := slides.slides entry held
  obtain ⟨begun, going⟩ := around entry held
  rw [slide.start, slideStart_fromSecs] at begun
  rw [slide.finish, slideStart_fromSecs, ← Int.natCast_add] at going
  rw [countOf_eq whole slide]
  exact ⟨(Int.le_toNat fromEpoch).mpr begun, Int.toNat_le.mpr going⟩

end Counting

section Walking

variable {last timestamp : SystemTime} {windowSize : Duration} {secs : Nat}

theorem count_le_asSecs (whole : 1 ≤ secs) {count t : Nat}
    (begun : count * Duration.fromSecs secs ≤ t) : count ≤ Duration.asSecs t := by
  refine (Nat.le_div_iff_mul_le (by decide)).mpr (Nat.le_trans ?_ begun)
  exact Nat.mul_le_mul_left count (Nat.le_mul_of_pos_left _ whole)

/-- With a slide of a second or more the loop ends, unless a window is past what the platform
    can represent. -/
theorem walk_error (whole : 1 ≤ secs) (fromEpoch : unixEpoch ≤ timestamp) {fuel count : Nat}
    {windows : WindowMap} {matched : List StreamingWindow} {fault : TimeFault}
    (enough : count + fuel = SlidingWindowExecutor.rounds timestamp) (some : 0 < fuel)
    (near : slideStart (Duration.fromSecs secs) count ≤ timestamp + (Duration.fromSecs secs : Nat))
    (failed : SlidingWindowExecutor.walk last windowSize (Duration.fromSecs secs) timestamp fuel
      count windows matched = .error fault) :
    fault = .timeOverflow ∧ last < timestamp + (Duration.fromSecs secs : Nat) + windowSize := by
  induction fuel generalizing count windows matched with
  | zero => exact absurd some (Nat.lt_irrefl 0)
  | succ fuel ih =>
    rw [walk_succ] at failed
    split at failed
    · split at failed
      · cases failed
      · rename_i _ ended
        have begun : slideStart (Duration.fromSecs secs) count ≤ timestamp :=
          Int.le_trans (Int.le_add_of_nonneg_right (Int.natCast_nonneg _)) (Int.not_lt.mp ended)
        rw [slideStart_fromSecs] at begun
        have within : count ≤ Duration.asSecs timestamp.toNat :=
          count_le_asSecs whole ((Int.le_toNat fromEpoch).mpr begun)
        rw [SlidingWindowExecutor.rounds] at enough ih
        refine ih (by omega) (by omega) ?_ failed
        rw [slideStart_fromSecs, Nat.succ_mul, Int.natCast_add]
        exact Int.add_le_add_right begun _
    · rename_i past
      cases failed
      refine ⟨rfl, Int.lt_of_lt_of_le (Int.not_le.mp past) ?_⟩
      exact Int.add_le_add_right near _

theorem event_around (last : SystemTime) (whole : 1 ≤ secs) {run : SlidingRun}
    (slides : Slides windowSize (Duration.fromSecs secs) run.executor)
    (fromEpoch : unixEpoch ≤ timestamp)
    (begun : ∀ entry ∈ run.executor.currentWindows.entries, entry.2.startTime ≤ timestamp) :
    (∃ next, run.step last (.event timestamp) = .ok next ∧
      Slides windowSize (Duration.fromSecs secs) next.executor ∧
      ∀ entry ∈ next.executor.currentWindows.entries, Around timestamp entry) ∨
    (run.step last (.event timestamp) = .error .timeOverflow ∧
      last < timestamp + (Duration.fromSecs secs : Nat) + windowSize) := by
  cases stepped : run.step last (.event timestamp) with
  | ok next =>
    obtain ⟨outcome, effect, -, -⟩ := SlidingRun.event_spec slides fromEpoch stepped
    obtain ⟨fresh, -, entries, around⟩ := effect.fresh
    refine .inl ⟨next, rfl, effect.slides, fun entry member => ?_⟩
    rw [entries] at member
    rcases List.mem_append.mp member with new | old
    · exact (around entry new).2
    · obtain ⟨held, stays⟩ := List.mem_filter.mp old
      rw [Bool.not_eq_true', decide_eq_false_iff_not, Int.not_lt] at stays
      exact ⟨begun entry held, stays⟩
  | error fault =>
    right
    rw [SlidingRun.step, SlidingWindowExecutor.getWindowsForEvent_eq fromEpoch] at stepped
    cases walked : run.executor.slideOver last timestamp with
    | ok result =>
      rw [walked] at stepped
      cases stepped
    | error fault' =>
      rw [walked] at stepped
      cases stepped
      rw [SlidingWindowExecutor.slideOver, slides.size, slides.interval] at walked
      obtain ⟨rfl, past⟩ := walk_error whole fromEpoch (Nat.zero_add _) (Nat.succ_pos _)
        (by
          rw [slideStart_fromSecs, Nat.zero_mul]
          exact Int.add_nonneg fromEpoch (Int.natCast_nonneg _)) walked
      exact ⟨rfl, past⟩

theorem run_around (whole : 1 ≤ secs) {run : SlidingRun}
    (slides : Slides windowSize (Duration.fromSecs secs) run.executor)
    (short : run.executor.currentWindows.entries.length ≤ windowSize / Duration.fromSecs secs + 1)
    {timestamps : List SystemTime} (ordered : timestamps.Pairwise (· ≤ ·))
    (fromEpoch : ∀ timestamp ∈ timestamps, unixEpoch ≤ timestamp)
    (begun : ∀ timestamp ∈ timestamps, ∀ entry ∈ run.executor.currentWindows.entries,
      entry.2.startTime ≤ timestamp) :
    (∃ next, (timestamps.map .event).foldlM (SlidingRun.step last) run = .ok next ∧
      next.executor.currentWindows.entries.length ≤ windowSize / Duration.fromSecs secs + 1) ∨
    ((timestamps.map .event).foldlM (SlidingRun.step last) run = .error .timeOverflow ∧
      ∃ timestamp ∈ timestamps, last < timestamp + (Duration.fromSecs secs : Nat) + windowSize) := by
  induction timestamps generalizing run with
  | nil => exact .inl ⟨run, rfl, short⟩
  | cons timestamp timestamps ih =>
    obtain ⟨later, ordered⟩ := List.pairwise_cons.mp ordered
    have epoch := fromEpoch timestamp List.mem_cons_self
    rw [List.map_cons, List.foldlM_cons]
    rcases event_around last whole slides epoch (begun timestamp List.mem_cons_self) with
      ⟨next, stepped, slides', around⟩ | ⟨stepped, past⟩
    · rw [stepped]
      have short' := length_le_of_around whole slides' epoch around
      rcases ih slides' short' ordered
          (fun t member => fromEpoch t (List.mem_cons_of_mem _ member))
          (fun t member entry held => Int.le_trans (around entry held).1 (later t member)) with
        found | ⟨failed, t, member, past⟩
      · exact .inl found
      · exact .inr ⟨failed, t, List.mem_cons_of_mem _ member, past⟩
    · rw [stepped]
      exact .inr ⟨rfl, timestamp, List.mem_cons_self, past⟩

end Walking

/-- Over events in order the windows stay within the size by the slide, and one more, after every
    call. A call returns unless the platform cannot represent a window near its event. -/
theorem sliding_windows_bounded (last : SystemTime) (windowSize : Duration) (secs : Nat)
    (whole : 1 ≤ secs) (timestamps : List SystemTime) (ordered : timestamps.Pairwise (· ≤ ·))
    (fromEpoch : ∀ timestamp ∈ timestamps, unixEpoch ≤ timestamp) :
    (∃ run, SlidingRun.execute last windowSize (Duration.fromSecs secs) (timestamps.map .event) =
        .ok run ∧
      run.executor.currentWindows.entries.length ≤ windowSize / Duration.fromSecs secs + 1) ∨
    (SlidingRun.execute last windowSize (Duration.fromSecs secs) (timestamps.map .event) =
        .error .timeOverflow ∧
      ∃ timestamp ∈ timestamps, last < timestamp + (Duration.fromSecs secs : Nat) + windowSize) :=
  run_around whole (SlidingWindowExecutor.slides_new windowSize (Duration.fromSecs secs))
    (Nat.zero_le _) ordered fromEpoch fun _ _ => List.forall_mem_nil _

theorem sliding_windows_bounded_minute :
    ∃ run, SlidingRun.execute unixLast (Duration.fromSecs 60) (Duration.fromSecs 25)
        [.event 30000000000, .event 50000000000] = .ok run ∧
      run.executor.currentWindows.entries.length ≤ 3 := by
  rcases sliding_windows_bounded unixLast (Duration.fromSecs 60) 25 (by decide)
      [30000000000, 50000000000] (by decide) (by decide) with found | ⟨-, t, member, past⟩
  · exact found
  · have within : ∀ t ∈ [30000000000, 50000000000], ¬ unixLast < t +
        (Duration.fromSecs 25 : Nat) + (Duration.fromSecs 60 : Nat) := by decide
    exact absurd past (within t member)

end StatGuardian.Core.Streaming
