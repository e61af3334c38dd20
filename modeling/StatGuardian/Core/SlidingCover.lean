import Mathlib.Data.List.Basic
import StatGuardian.Core.SlidingBound

namespace StatGuardian.Core.Streaming

open KeyedValues

section Ending

variable {last timestamp : SystemTime} {windowSize slideInterval : Duration}

theorem slideStart_mono (slideInterval : Duration) {j k : Nat} (le : j ≤ k) :
    slideStart slideInterval j ≤ slideStart slideInterval k :=
  Int.ofNat_le.mpr (Nat.mul_le_mul_right _ (Nat.mul_le_mul_right _ le))

/-- The loop goes on for as long as the windows have ended. One that the platform cannot represent
    ends after the timestamp. -/
theorem walk_divergence_iff (representable : timestamp ≤ last) (fuel count : Nat)
    (windows : WindowMap) (matched : List StreamingWindow) :
    SlidingWindowExecutor.walk last windowSize slideInterval timestamp fuel count windows matched =
        .error .divergence ↔
      ∀ k, count ≤ k → k < count + fuel → slideStart slideInterval k + windowSize ≤ timestamp := by
  induction fuel generalizing count windows matched with
  | zero => exact iff_of_true rfl fun k least most => absurd most (Nat.not_lt.mpr least)
  | succ fuel ih =>
    have start : count < count + (fuel + 1) := Nat.lt_add_of_pos_right (Nat.succ_pos fuel)
    rw [walk_succ]
    split
    · split
      · rename_i _ going
        refine iff_of_false (by simp) fun ended => ?_
        exact Int.not_le.mpr going (ended count (Nat.le_refl count) start)
      · rename_i _ ended
        rw [ih]
        constructor
        · intro later k least most
          rcases Nat.eq_or_lt_of_le least with rfl | after
          · exact Int.not_lt.mp ended
          · exact later k after (by omega)
        · intro all k least most
          exact all k (by omega) (by omega)
    · rename_i past
      refine iff_of_false (by simp) fun ended => past ?_
      exact Int.le_trans (ended count (Nat.le_refl count) start) representable

namespace SlidingWindowExecutor

/-- The loop is over after so many candidate windows: it returned, or a window could not be
    represented. -/
def EndsWithin (last : SystemTime) (executor : SlidingWindowExecutor) (timestamp : SystemTime)
    (candidates : Nat) : Prop :=
  walk last executor.windowSize executor.slideInterval timestamp candidates 0
    executor.currentWindows [] ≠ .error .divergence

theorem endsWithin_iff (executor : SlidingWindowExecutor) (representable : timestamp ≤ last)
    (candidates : Nat) : executor.EndsWithin last timestamp candidates ↔
      ∃ k < candidates, timestamp < slideStart executor.slideInterval k + executor.windowSize := by
  rw [EndsWithin, ne_eq, walk_divergence_iff representable]
  simp only [Nat.zero_le, true_implies, Nat.zero_add, not_forall, Int.not_le, exists_prop]

/-- The search is over after as many candidates as slides fit before the timestamp, and one more,
    exactly when the last of these windows ends after it. -/
theorem search_ends_iff (last : SystemTime) (executor : SlidingWindowExecutor)
    (timestamp : SystemTime) (representable : timestamp ≤ last) :
    executor.EndsWithin last timestamp (timestamp.toNat / executor.slideInterval + 1) ↔
      timestamp < slideStart executor.slideInterval (timestamp.toNat / executor.slideInterval) +
        executor.windowSize := by
  rw [endsWithin_iff executor representable]
  constructor
  · rintro ⟨k, within, going⟩
    have later := slideStart_mono executor.slideInterval (Nat.le_of_lt_succ within)
    exact Int.lt_of_lt_of_le going (Int.add_le_add_right later _)
  · intro going
    exact ⟨_, Nat.lt_succ_self _, going⟩

theorem search_ends_some_time_iff (last : SystemTime) (executor : SlidingWindowExecutor)
    (timestamp : SystemTime) (fromEpoch : unixEpoch ≤ timestamp) (representable : timestamp ≤ last) :
    (∃ candidates, executor.EndsWithin last timestamp candidates) ↔
      executor.getWindowsForEvent last timestamp ≠ .error .divergence := by
  have call : executor.getWindowsForEvent last timestamp ≠ .error .divergence ↔
      executor.EndsWithin last timestamp (rounds timestamp) := by
    rw [getWindowsForEvent_eq fromEpoch, EndsWithin, slideOver]
    cases walk last executor.windowSize executor.slideInterval timestamp (rounds timestamp) 0
      executor.currentWindows [] with
    | ok result => simp [Except.map]
    | error fault => simp [Except.map]
  rw [call]
  refine ⟨?_, fun ends => ⟨_, ends⟩⟩
  simp only [endsWithin_iff executor representable]
  rintro ⟨-, k, -, going⟩
  by_cases whole : executor.slideInterval.asSecs = 0
  · -- every window starts at the epoch
    have same : ∀ j, slideStart executor.slideInterval j = 0 := by
      intro j
      rw [slideStart, whole, Nat.mul_zero]
      rfl
    refine ⟨0, Nat.succ_pos _, ?_⟩
    rwa [same 0, ← same k]
  · refine ⟨Duration.asSecs timestamp.toNat + 1, Nat.lt_succ_self _, ?_⟩
    have begun :
        timestamp < slideStart executor.slideInterval (Duration.asSecs timestamp.toNat + 1) := by
      have bound := Duration.lt_asSecs_succ timestamp.toNat
      have scaled := Nat.mul_le_mul_right 1000000000
        (Nat.le_mul_of_pos_right (Duration.asSecs timestamp.toNat + 1) (Nat.pos_of_ne_zero whole))
      calc timestamp = timestamp.toNat := (Int.toNat_of_nonneg fromEpoch).symm
        _ < _ := Int.ofNat_lt.mpr (Nat.lt_of_lt_of_le bound scaled)
    exact Int.lt_of_lt_of_le begun (Int.le_add_of_nonneg_right (Int.natCast_nonneg _))

end SlidingWindowExecutor

end Ending

/-- Windows of a minute every two and a half seconds: the search for the second 90 is over after
    at most 37 candidates. -/
theorem search_ends_iff_minute : (SlidingWindowExecutor.new 60000000000 2500000000).EndsWithin unixLast
    90000000000 37 :=
  (SlidingWindowExecutor.search_ends_iff unixLast (.new 60000000000 2500000000) 90000000000
    (by decide)).mpr (by decide)

/-- Every half of a second there is to be a window of a minute, but all candidates start at the
    epoch, so that the search for the second 60 goes on forever. -/
theorem half_second_slides_forever :
    (∀ candidates, ¬ (SlidingWindowExecutor.new 60000000000 500000000).EndsWithin unixLast
      60000000000 candidates) ∧
    (SlidingWindowExecutor.new 60000000000 500000000).getWindowsForEvent unixLast 60000000000 =
      .error .divergence := by
  have never : ∀ candidates, ¬ (SlidingWindowExecutor.new 60000000000 500000000).EndsWithin
      unixLast 60000000000 candidates := by
    intro candidates ends
    obtain ⟨k, -, going⟩ := (SlidingWindowExecutor.endsWithin_iff _ (by decide) candidates).mp ends
    have start : slideStart 500000000 k = 0 := by
      rw [slideStart, show Duration.asSecs 500000000 = 0 from rfl, Nat.mul_zero]
      rfl
    have going : (60000000000 : Int) < slideStart 500000000 k + (60000000000 : Nat) := going
    rw [start] at going
    exact absurd going (by decide)
  refine ⟨never, ?_⟩
  by_contra returns
  obtain ⟨candidates, ends⟩ := (SlidingWindowExecutor.search_ends_some_time_iff unixLast _ _
    (by decide) (by decide)).mpr returns
  exact never candidates ends

section Covering

variable {last timestamp : SystemTime} {windowSize slideInterval : Duration} {count : Nat}

theorem slidingId_inj {n m start start' : Nat}
    (same : SlidingWindowExecutor.windowId n start = SlidingWindowExecutor.windowId m start') :
    n = m := by
  have digits : ∀ k : Nat, '_' ∉ (toString k).toList := by
    intro k
    simp
  have texts : (toString n).toList ++ '_' :: (toString start).toList =
      (toString m).toList ++ '_' :: (toString start').toList := by
    have whole := congrArg String.toList same
    simp only [SlidingWindowExecutor.windowId, String.toList_append, List.append_assoc] at whole
    exact List.append_cancel_left whole
  have numbers := ((List.append_cons_inj_of_notMem (digits n) (digits start)).mp texts).1
  have values := congrArg (Nat.ofDigitChars 10 · 0) numbers
  simpa using values

def AllSlides (windowSize slideInterval : Duration) (windows : WindowMap) : Prop :=
  ∀ entry ∈ windows.entries, ∃ count, IsSlide windowSize slideInterval entry count

def range (window : StreamingWindow) : SystemTime × SystemTime := (window.startTime, window.endTime)

def slideRange (windowSize slideInterval : Duration) (count : Nat) : SystemTime × SystemTime :=
  (slideStart slideInterval count, slideStart slideInterval count + windowSize)

def Covers (windowSize slideInterval : Duration) (timestamp : SystemTime) (count : Nat) : Prop :=
  slideStart slideInterval count ≤ timestamp ∧
    timestamp ≤ slideStart slideInterval count + windowSize

instance (windowSize slideInterval : Duration) (timestamp : SystemTime) (count : Nat) :
    Decidable (Covers windowSize slideInterval timestamp count) :=
  inferInstanceAs (Decidable (_ ∧ _))

theorem SlidingWindowExecutor.visit_clones (windows : WindowMap) (matched : List StreamingWindow)
    (key : String) (windowStart windowEnd : SystemTime) :
    ∃ window, get (visit windows matched key windowStart windowEnd).1 key = some window ∧
      (visit windows matched key windowStart windowEnd).2 = matched ++ [window] := by
  obtain ⟨window, found⟩ : ∃ window,
      get (visit windows matched key windowStart windowEnd).1 key = some window := by
    rw [visit]
    split
    · exact exists_get ‹_›
    · exact ⟨_, get_insert ..⟩
  refine ⟨window, found, ?_⟩
  rw [visit] at found ⊢
  rw [found, Option.toList_some]

theorem visited_clones (timestamp : SystemTime) (count : Nat) {windows : WindowMap}
    (matched : List StreamingWindow) (slides : AllSlides windowSize slideInterval windows) :
    AllSlides windowSize slideInterval
        (visited windowSize slideInterval timestamp count windows matched).1 ∧
      (visited windowSize slideInterval timestamp count windows matched).2.map range =
        matched.map range ++ if Covers windowSize slideInterval timestamp count then
          [slideRange windowSize slideInterval count] else [] := by
  obtain ⟨fresh, entries, new, -⟩ :=
    visited_spec windowSize slideInterval timestamp count windows matched
  have all : AllSlides windowSize slideInterval
      (visited windowSize slideInterval timestamp count windows matched).1 := by
    intro entry member
    rw [entries] at member
    rcases List.mem_append.mp member with added | old
    · exact ⟨count, (new entry added).1⟩
    · exact slides entry old
  refine ⟨all, ?_⟩
  by_cases covers : slideStart slideInterval count ≤ timestamp ∧
      timestamp ≤ slideStart slideInterval count + windowSize
  · have own : Covers windowSize slideInterval timestamp count := covers
    rw [if_pos own]
    rw [visited, if_pos covers] at all ⊢
    obtain ⟨window, found, cloned⟩ := SlidingWindowExecutor.visit_clones windows matched
      (SlidingWindowExecutor.windowId count (count * slideInterval.asSecs))
      (slideStart slideInterval count) (slideStart slideInterval count + windowSize)
    obtain ⟨m, slide⟩ := all _ (mem_of_get found)
    obtain rfl : count = m := slidingId_inj slide.key
    rw [cloned, List.map_append, List.map_singleton]
    exact congrArg (fun cut => _ ++ [cut]) (Prod.ext slide.start slide.finish)
  · have other : ¬ Covers windowSize slideInterval timestamp count := covers
    rw [if_neg other, visited, if_neg covers, List.append_nil]

theorem walk_ok_stop {fuel : Nat} {windows windows' : WindowMap}
    {matched matched' : List StreamingWindow} (slides : AllSlides windowSize slideInterval windows)
    (walked : SlidingWindowExecutor.walk last windowSize slideInterval timestamp fuel count windows
      matched = .ok (windows', matched')) :
    ∃ stop, count ≤ stop ∧
      (∀ j, count ≤ j → j < stop → slideStart slideInterval j + windowSize ≤ timestamp) ∧
      timestamp < slideStart slideInterval stop + windowSize ∧
      slideStart slideInterval stop + windowSize ≤ last ∧
      matched'.map range = matched.map range ++
        ((List.range' count (stop + 1 - count)).filter
          (Covers windowSize slideInterval timestamp)).map (slideRange windowSize slideInterval) := by
  induction fuel generalizing count windows matched with
  | zero => cases walked
  | succ fuel ih =>
    obtain ⟨slides', clones⟩ := visited_clones timestamp count matched slides
    have one : (if Covers windowSize slideInterval timestamp count then
        [slideRange windowSize slideInterval count] else []) =
        ([count].filter (Covers windowSize slideInterval timestamp)).map
          (slideRange windowSize slideInterval) := by
      by_cases covers : Covers windowSize slideInterval timestamp count
      · rw [if_pos covers, List.filter_cons_of_pos (by simpa using covers)]
        rfl
      · rw [if_neg covers, List.filter_cons_of_neg (by simpa using covers)]
        rfl
    rw [walk_succ] at walked
    split at walked
    · rename_i fits
      split at walked
      · rename_i going
        rw [Except.ok.inj walked] at clones
        refine ⟨count, Nat.le_refl _, fun j least most => ?_, going, fits, ?_⟩
        · exact absurd most (Nat.not_lt.mpr least)
        · rw [clones, one, Nat.add_sub_cancel_left]
          rfl
      · rename_i ended
        obtain ⟨stop, least, before, going, fits', more⟩ := ih slides' walked
        refine ⟨stop, Nat.le_of_succ_le least, fun j after most => ?_, going, fits', ?_⟩
        · rcases Nat.eq_or_lt_of_le after with rfl | later
          · exact Int.not_lt.mp ended
          · exact before j later most
        · have counts : List.range' count (stop + 1 - count) =
              [count] ++ List.range' (count + 1) (stop + 1 - (count + 1)) := by
            rw [show stop + 1 - count = (stop + 1 - (count + 1)) + 1 by omega, List.range'_succ]
            rfl
          rw [more, clones, one, counts, List.filter_append, List.map_append, List.append_assoc]
    · cases walked

theorem walk_returns {fuel stop : Nat} {windows : WindowMap} {matched : List StreamingWindow}
    (least : count ≤ stop) (most : stop < count + fuel)
    (going : timestamp < slideStart slideInterval stop + windowSize)
    (fits : slideStart slideInterval stop + windowSize ≤ last) :
    ∃ result, SlidingWindowExecutor.walk last windowSize slideInterval timestamp fuel count windows
      matched = .ok result := by
  induction fuel generalizing count windows matched with
  | zero => exact absurd most (Nat.not_lt.mpr least)
  | succ fuel ih =>
    have here : slideStart slideInterval count + windowSize ≤ last :=
      Int.le_trans (Int.add_le_add_right (slideStart_mono slideInterval least) _) fits
    rw [walk_succ, if_pos here]
    split
    · exact ⟨_, rfl⟩
    · rename_i ended
      have later : count < stop := by
        refine Nat.lt_of_le_of_ne least fun same => ended ?_
        rwa [same]
      exact ih later (by omega)

end Covering

section Exact

variable {last timestamp : SystemTime} {windowSize : Duration} {secs : Nat}

def SlidingWindowExecutor.ReturnsCovering (last : SystemTime) (executor : SlidingWindowExecutor)
    (timestamp : SystemTime) : Prop :=
  ∃ matched executor', executor.getWindowsForEvent last timestamp = .ok (.ok matched, executor') ∧
    ∃ counts : List Nat, counts.Pairwise (· < ·) ∧
      (∀ count, count ∈ counts ↔
        Covers executor.windowSize executor.slideInterval timestamp count) ∧
      matched.map range = counts.map (slideRange executor.windowSize executor.slideInterval)

def firstOpen (windowSize slideInterval : Duration) (timestamp : SystemTime) : Nat :=
  if timestamp < windowSize then 0 else (timestamp.toNat - windowSize) / slideInterval + 1

theorem lt_firstOpen_iff (whole : 1 ≤ secs) (fromEpoch : unixEpoch ≤ timestamp) (count : Nat) :
    count < firstOpen windowSize (Duration.fromSecs secs) timestamp ↔
      slideStart (Duration.fromSecs secs) count + windowSize ≤ timestamp := by
  obtain ⟨t, rfl⟩ := Int.eq_ofNat_of_zero_le fromEpoch
  rw [slideStart_fromSecs, ← Int.natCast_add, Int.ofNat_le, firstOpen]
  split
  · rename_i short
    refine iff_of_false (Nat.not_lt_zero count) fun ended => ?_
    exact Nat.not_le.mpr (Int.ofNat_lt.mp short) (Nat.le_trans (Nat.le_add_left _ _) ended)
  · rename_i long
    rw [Int.toNat_natCast, Nat.lt_succ_iff, Nat.le_div_iff_mul_le (fromSecs_pos whole),
      Nat.le_sub_iff_add_le (Int.ofNat_le.mp (Int.not_lt.mp long))]

theorem firstOpen_ends (whole : 1 ≤ secs) (fromEpoch : unixEpoch ≤ timestamp) :
    timestamp < slideStart (Duration.fromSecs secs)
      (firstOpen windowSize (Duration.fromSecs secs) timestamp) + windowSize := by
  refine Int.not_le.mp fun ended => ?_
  exact Nat.lt_irrefl _ ((lt_firstOpen_iff whole fromEpoch _).mpr ended)

theorem firstOpen_lt_rounds (whole : 1 ≤ secs) (fromEpoch : unixEpoch ≤ timestamp) :
    firstOpen windowSize (Duration.fromSecs secs) timestamp <
      SlidingWindowExecutor.rounds timestamp := by
  rw [SlidingWindowExecutor.rounds]
  cases first : firstOpen windowSize (Duration.fromSecs secs) timestamp with
  | zero => exact Nat.succ_pos _
  | succ count =>
    have ended := (lt_firstOpen_iff whole fromEpoch count).mp
      (Nat.lt_of_lt_of_eq (Nat.lt_succ_self count) first.symm)
    have begun : slideStart (Duration.fromSecs secs) count ≤ timestamp :=
      Int.le_trans (Int.le_add_of_nonneg_right (Int.natCast_nonneg _)) ended
    rw [slideStart_fromSecs] at begun
    exact Nat.succ_lt_succ (Nat.lt_succ_of_le
      (count_le_asSecs whole ((Int.le_toNat fromEpoch).mpr begun)))

theorem slideRange_injective (whole : 1 ≤ secs) :
    Function.Injective (slideRange windowSize (Duration.fromSecs secs)) := by
  intro j k same
  have starts := congrArg Prod.fst same
  simp only [slideRange, slideStart_fromSecs] at starts
  exact Nat.eq_of_mul_eq_mul_right (fromSecs_pos whole) (Int.ofNat.inj starts)

theorem covers_le (slideInterval : Duration) {stop count : Nat}
    (covers : Covers windowSize slideInterval timestamp count)
    (later : timestamp < slideStart slideInterval (stop + 1)) : count ≤ stop := by
  refine Nat.le_of_not_lt fun after => ?_
  have start := slideStart_mono slideInterval (Nat.succ_le_of_lt after)
  exact Int.not_le.mpr later (Int.le_trans start covers.1)

section Search

variable {executor : SlidingWindowExecutor}

theorem SlidingWindowExecutor.slideOver_ok (whole : 1 ≤ secs)
    (slides : Slides windowSize (Duration.fromSecs secs) executor) (fromEpoch : unixEpoch ≤ timestamp)
    {windows : WindowMap} {matched : List StreamingWindow}
    (walked : executor.slideOver last timestamp = .ok (windows, matched)) :
    slideStart (Duration.fromSecs secs)
        (firstOpen windowSize (Duration.fromSecs secs) timestamp) + windowSize ≤ last ∧
      matched.map range =
        ((List.range' 0 (firstOpen windowSize (Duration.fromSecs secs) timestamp + 1)).filter
          (Covers windowSize (Duration.fromSecs secs) timestamp)).map
            (slideRange windowSize (Duration.fromSecs secs)) := by
  rw [slideOver, slides.size, slides.interval] at walked
  obtain ⟨stop, -, before, going, fits, clones⟩ := walk_ok_stop slides.slides walked
  have stopped : stop = firstOpen windowSize (Duration.fromSecs secs) timestamp := by
    apply Nat.le_antisymm
    · refine Nat.le_of_not_lt fun after => ?_
      exact Nat.lt_irrefl _ ((lt_firstOpen_iff whole fromEpoch _).mpr
        (before _ (Nat.zero_le _) after))
    · refine Nat.le_of_not_lt fun early => ?_
      exact Int.not_le.mpr going ((lt_firstOpen_iff whole fromEpoch stop).mp early)
  rw [← stopped]
  exact ⟨fits, clones⟩

theorem SlidingWindowExecutor.slideOver_returns (whole : 1 ≤ secs)
    (slides : Slides windowSize (Duration.fromSecs secs) executor) (fromEpoch : unixEpoch ≤ timestamp)
    (fits : slideStart (Duration.fromSecs secs)
      (firstOpen windowSize (Duration.fromSecs secs) timestamp) + windowSize ≤ last) :
    ∃ windows matched, executor.slideOver last timestamp = .ok (windows, matched) := by
  have enough : firstOpen windowSize (Duration.fromSecs secs) timestamp < 0 + rounds timestamp :=
    (Nat.zero_add _).symm ▸ firstOpen_lt_rounds whole fromEpoch
  rw [slideOver, slides.size, slides.interval]
  obtain ⟨⟨windows, matched⟩, walked⟩ :=
    walk_returns (Nat.zero_le _) enough (firstOpen_ends whole fromEpoch) fits
  exact ⟨windows, matched, walked⟩

/-- The call returns exactly the windows that cover the timestamp if the first one that ends after
    it can be represented and is the last one that starts before it. -/
theorem covering_iff_of_slides (whole : 1 ≤ secs)
    (slides : Slides windowSize (Duration.fromSecs secs) executor)
    (fromEpoch : unixEpoch ≤ timestamp) :
    executor.ReturnsCovering last timestamp ↔
      slideStart (Duration.fromSecs secs)
          (firstOpen windowSize (Duration.fromSecs secs) timestamp) + windowSize ≤ last ∧
        timestamp < slideStart (Duration.fromSecs secs)
          (firstOpen windowSize (Duration.fromSecs secs) timestamp + 1) := by
  rw [SlidingWindowExecutor.ReturnsCovering, slides.size, slides.interval,
    SlidingWindowExecutor.getWindowsForEvent_eq fromEpoch]
  constructor
  · rintro ⟨matched, executor', returned, counts, -, covering, same⟩
    obtain ⟨⟨windows, found⟩, walked, result⟩ := (Results.map_ok_iff ..).mp returned
    cases result
    obtain ⟨fits, clones⟩ :=
      SlidingWindowExecutor.slideOver_ok whole slides fromEpoch walked
    refine ⟨fits, Int.not_le.mp fun begun => ?_⟩
    -- otherwise the next window covers the timestamp as well, but the loop never came to it
    have covers : Covers windowSize (Duration.fromSecs secs) timestamp
        (firstOpen windowSize (Duration.fromSecs secs) timestamp + 1) :=
      ⟨begun, Int.le_trans (Int.le_of_lt (firstOpen_ends whole fromEpoch))
        (Int.add_le_add_right (slideStart_mono _ (Nat.le_succ _)) _)⟩
    have listed := (covering _).mpr covers
    rw [List.map_injective_iff.mpr (slideRange_injective whole) (same.symm.trans clones),
      List.mem_filter, List.mem_range'_1] at listed
    omega
  · rintro ⟨fits, later⟩
    obtain ⟨windows, matched, walked⟩ :=
      SlidingWindowExecutor.slideOver_returns whole slides fromEpoch fits
    obtain ⟨-, clones⟩ := SlidingWindowExecutor.slideOver_ok whole slides fromEpoch walked
    refine ⟨matched, _, by rw [walked]; rfl, _, ?_, fun count => ?_, clones⟩
    · exact List.Pairwise.filter _ List.pairwise_lt_range'
    · rw [List.mem_filter, List.mem_range'_1, decide_eq_true_iff]
      refine ⟨And.right, fun covers => ⟨⟨Nat.zero_le _, ?_⟩, covers⟩⟩
      have within := covers_le _ covers later
      omega

end Search

theorem SlidingRun.run_slides {slideInterval : Duration} {run next : SlidingRun}
    (slides : Slides windowSize slideInterval run.executor) (ops : List SlidingOp)
    (ran : ops.foldlM (step last) run = .ok next) :
    Slides windowSize slideInterval next.executor := by
  induction ops generalizing run with
  | nil =>
    cases ran
    exact slides
  | cons op ops ih =>
    rw [List.foldlM_cons] at ran
    obtain ⟨mid, stepped, rest⟩ := (Results.bind_ok_iff ..).mp ran
    exact ih (step_slides slides stepped) rest

end Exact

/-- After any run, an event gets the windows that cover it exactly when the first window that ends
    after it can be represented and the next one starts after it. -/
theorem returns_covering_iff (last : SystemTime) (windowSize : Duration) (secs : Nat)
    (whole : 1 ≤ secs) (timestamp : SystemTime) (fromEpoch : unixEpoch ≤ timestamp)
    (ops : List SlidingOp) (run : SlidingRun)
    (ran : SlidingRun.execute last windowSize (Duration.fromSecs secs) ops = .ok run) :
    run.executor.ReturnsCovering last timestamp ↔
      slideStart (Duration.fromSecs secs)
          (firstOpen windowSize (Duration.fromSecs secs) timestamp) + windowSize ≤ last ∧
        timestamp < slideStart (Duration.fromSecs secs)
          (firstOpen windowSize (Duration.fromSecs secs) timestamp + 1) :=
  covering_iff_of_slides whole (SlidingRun.run_slides (SlidingWindowExecutor.slides_new ..) ops ran)
    fromEpoch

/-- At the second 15 one window of 15 seconds ends and the next has begun. -/
theorem returns_covering_iff_shared :
    ∃ run, SlidingRun.execute unixLast 15000000000 (Duration.fromSecs 10)
        [.event 5000000000, .evict 16000000000] = .ok run ∧
      run.executor.ReturnsCovering unixLast 15000000000 := by
  obtain ⟨run, ran, -⟩ := Results.ok_of_any (SlidingRun.execute unixLast 15000000000
    (Duration.fromSecs 10) [.event 5000000000, .evict 16000000000]) (fun _ => true) (by decide)
  exact ⟨run, ran, (returns_covering_iff unixLast 15000000000 10 (by decide) 15000000000
    (by decide) _ run ran).mpr (by decide)⟩

/-- The loop stops at the window of the epoch, while those of the seconds 10, 20 and 30 cover the
    second 30 as well. -/
theorem later_windows_missed :
    ¬ (SlidingWindowExecutor.new 60000000000 (Duration.fromSecs 10)).ReturnsCovering unixLast
      30000000000 := by
  have slides := SlidingWindowExecutor.slides_new 60000000000 (Duration.fromSecs 10)
  rw [covering_iff_of_slides (by decide) slides (by decide)]
  decide

end StatGuardian.Core.Streaming
