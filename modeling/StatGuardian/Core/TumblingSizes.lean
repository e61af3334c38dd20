import StatGuardian.Core.TumblingPartition

namespace StatGuardian.Core.Streaming

open KeyedValues

namespace StreamingWindow

/-- Two windows that share no more than an endpoint. -/
def Apart (window other : StreamingWindow) : Prop :=
  window.endTime ≤ other.startTime ∨ other.endTime ≤ window.startTime

instance (window other : StreamingWindow) : Decidable (window.Apart other) :=
  inferInstanceAs (Decidable (_ ∨ _))

theorem Apart.symm {window other : StreamingWindow} (apart : window.Apart other) :
    other.Apart window :=
  Or.symm apart

end StreamingWindow

namespace TumblingWindowExecutor

/-- One call of `get_window_for_event` after the other. -/
def getWindowsForEvents (last : SystemTime) (executor : TumblingWindowExecutor) :
    List SystemTime →
      Except TimeFault (List (Except String (String × StreamingWindow)) × TumblingWindowExecutor)
  | [] => .ok ([], executor)
  | timestamp :: timestamps => do
    let (outcome, executor) ← executor.getWindowForEvent last timestamp
    let (outcomes, executor) ← getWindowsForEvents last executor timestamps
    pure (outcome :: outcomes, executor)

def Serves (windowSize : Duration) (timestamp : SystemTime)
    (outcome : Except String (String × StreamingWindow)) : Prop :=
  ∃ key window, outcome = .ok (key, window) ∧
    window.startTime ≤ timestamp ∧ timestamp ≤ window.endTime ∧
    window.endTime = window.startTime + windowSize

/-- Every call of the sequence returns such a window, and what the executor creates does not
    overlap. -/
def ServesAll (last : SystemTime) (windowSize : Duration) (timestamps : List SystemTime) : Prop :=
  ∃ outcomes executor,
    (new windowSize).getWindowsForEvents last timestamps = .ok (outcomes, executor) ∧
    List.Forall₂ (Serves windowSize) timestamps outcomes ∧
    (values executor.currentWindows).Pairwise StreamingWindow.Apart

end TumblingWindowExecutor

section Spans

variable {last timestamp : SystemTime} {windowSize : Duration}

def numberOf (windowSize : Duration) (timestamp : SystemTime) : Nat :=
  windowNumber windowSize.asSecs timestamp

def spanStart (windowSize : Duration) (n : Nat) : SystemTime :=
  Duration.fromSecs (n * windowSize.asSecs)

/-- The entry of the window of a number, for a size of any length. -/
structure IsSpan (windowSize : Duration) (n : Nat)
    (entry : Sigma fun _ : String => StreamingWindow) : Prop where
  key : entry.1 = TumblingWindowExecutor.windowId n
  start : entry.2.startTime = spanStart windowSize n
  finish : entry.2.endTime = spanStart windowSize n + windowSize

def SpanFits (last : SystemTime) (windowSize : Duration) (timestamp : SystemTime) : Prop :=
  spanStart windowSize (numberOf windowSize timestamp) + windowSize ≤ last

instance (last : SystemTime) (windowSize : Duration) (timestamp : SystemTime) :
    Decidable (SpanFits last windowSize timestamp) :=
  inferInstanceAs (Decidable (_ ≤ _))

theorem asSecs_le_size (windowSize : Duration) : Duration.fromSecs windowSize.asSecs ≤ windowSize :=
  Duration.asSecs_le windowSize

theorem spanStart_eq (windowSize : Duration) (n : Nat) :
    spanStart windowSize n = (n * Duration.fromSecs windowSize.asSecs : Nat) := by
  rw [spanStart, Duration.fromSecs, Duration.fromSecs, Nat.mul_assoc]

theorem within_span (nonzero : windowSize.asSecs ≠ 0) (fromEpoch : unixEpoch ≤ timestamp) :
    spanStart windowSize (numberOf windowSize timestamp) ≤ timestamp ∧
      timestamp ≤ spanStart windowSize (numberOf windowSize timestamp) + windowSize := by
  have whole : 1 ≤ windowSize.asSecs := Nat.pos_of_ne_zero nonzero
  refine ⟨windowStart_le windowSize.asSecs fromEpoch, ?_⟩
  have going := lt_windowFinish whole fromEpoch
  rw [← TumblingWindowExecutor.windowStart_add] at going
  exact Int.le_trans (Int.le_of_lt going)
    (Int.add_le_add_left (Int.ofNat_le.mpr (asSecs_le_size windowSize)) _)

/-- A size between one step and two fits between different multiples of the step, unless these
    are neighbours and it is longer than the step. -/
theorem multiples_apart_iff {size step n m : Nat} (before : n < m)
    (least : step ≤ size) (most : size < 2 * step) :
    (n * step + size ≤ m * step ∨ m * step + size ≤ n * step) ↔ size = step ∨ n + 1 < m := by
  obtain ⟨gap, rfl⟩ := Nat.exists_eq_add_of_lt before
  rw [Nat.add_mul, Nat.add_mul, Nat.one_mul]
  cases gap with
  | zero => omega
  | succ gap =>
    rw [Nat.succ_mul]
    omega

theorem apart_iff (nonzero : windowSize.asSecs ≠ 0) {n m : Nat} (before : n < m)
    {entry other : Sigma fun _ : String => StreamingWindow} (span : IsSpan windowSize n entry)
    (span' : IsSpan windowSize m other) :
    entry.2.Apart other.2 ↔
      windowSize = Duration.fromSecs windowSize.asSecs ∨ n + 1 < m := by
  have most : windowSize < 2 * Duration.fromSecs windowSize.asSecs := by
    have second : 1000000000 ≤ Duration.fromSecs windowSize.asSecs :=
      Nat.le_mul_of_pos_left _ (Nat.pos_of_ne_zero nonzero)
    calc windowSize
        < Duration.fromSecs windowSize.asSecs + 1 * 1000000000 := by
          rw [Duration.fromSecs, ← Nat.add_mul]
          exact Duration.lt_asSecs_succ windowSize
      _ ≤ 2 * Duration.fromSecs windowSize.asSecs := by
          rw [Nat.two_mul, Nat.one_mul]
          exact Nat.add_le_add_left second _
  rw [← multiples_apart_iff before (asSecs_le_size windowSize) most,
    StreamingWindow.Apart, span.start, span.finish, span'.start, span'.finish, spanStart_eq,
    spanStart_eq, ← Int.natCast_add, ← Int.natCast_add, Int.ofNat_le, Int.ofNat_le]

structure Assigned (last : SystemTime) (windowSize : Duration) (seen : List SystemTime)
    (executor : TumblingWindowExecutor) : Prop where
  size : executor.windowSize = windowSize
  spans : ∀ entry ∈ executor.currentWindows.entries, ∃ timestamp ∈ seen,
    IsSpan windowSize (numberOf windowSize timestamp) entry
  made : ∀ timestamp ∈ seen, TumblingWindowExecutor.windowId (numberOf windowSize timestamp) ∈
    executor.currentWindows
  fits : ∀ timestamp ∈ seen, SpanFits last windowSize timestamp

theorem assigned_new (last : SystemTime) (windowSize : Duration) :
    Assigned last windowSize [] (.new windowSize) where
  size := rfl
  spans := List.forall_mem_nil _
  made := List.forall_mem_nil _
  fits := List.forall_mem_nil _

theorem Assigned.exists_entry {seen : List SystemTime} {executor : TumblingWindowExecutor}
    (assigned : Assigned last windowSize seen executor) (known : timestamp ∈ seen) :
    ∃ entry ∈ executor.currentWindows.entries,
      IsSpan windowSize (numberOf windowSize timestamp) entry := by
  obtain ⟨window, found⟩ := exists_get (assigned.made timestamp known)
  have member := mem_of_get found
  obtain ⟨t, -, span⟩ := assigned.spans _ member
  rw [← windowId_inj span.key] at span
  exact ⟨_, member, span⟩

/-- Different windows of the executor have different numbers, so that they are apart unless a
    fraction of a second puts two neighbours over each other. -/
theorem pairwise_apart_iff (nonzero : windowSize.asSecs ≠ 0) {seen : List SystemTime}
    {executor : TumblingWindowExecutor} (assigned : Assigned last windowSize seen executor) :
    (values executor.currentWindows).Pairwise StreamingWindow.Apart ↔
      windowSize = Duration.fromSecs windowSize.asSecs ∨
        ∀ earlier ∈ seen, ∀ later ∈ seen,
          numberOf windowSize later ≠ numberOf windowSize earlier + 1 := by
  rw [values, List.pairwise_map]
  constructor
  · intro apart
    refine or_iff_not_imp_left.mpr fun fraction earlier known later known' next => ?_
    obtain ⟨entry, member, span⟩ := assigned.exists_entry known
    obtain ⟨other, member', span'⟩ := assigned.exists_entry known'
    rw [next] at span'
    have symm : Std.Symm fun entry other : Sigma fun _ : String => StreamingWindow =>
        entry.2.Apart other.2 := ⟨fun _ _ => StreamingWindow.Apart.symm⟩
    have different : entry ≠ other := by
      rintro rfl
      exact Nat.succ_ne_self _ (windowId_inj (span'.key.symm.trans span.key))
    have either := (apart_iff nonzero (Nat.lt_succ_self _) span span').mp
      (apart.forall member member' different)
    rcases either with whole | far
    · exact fraction whole
    · exact Nat.lt_irrefl _ far
  · intro either
    refine List.Pairwise.imp_of_mem ?_ executor.currentWindows.nodupKeys.pairwise_ne
    intro entry other member member' different
    obtain ⟨earlier, known, span⟩ := assigned.spans entry member
    obtain ⟨later, known', span'⟩ := assigned.spans other member'
    rw [span.key, span'.key] at different
    have numbers : numberOf windowSize earlier ≠ numberOf windowSize later :=
      fun same => different (congrArg _ same)
    rcases Nat.lt_or_gt_of_ne numbers with before | after
    · refine (apart_iff nonzero before span span').mpr (either.imp_right fun none => ?_)
      exact Nat.lt_of_le_of_ne before (none earlier known later known').symm
    · refine ((apart_iff nonzero after span' span).mpr (either.imp_right fun none => ?_)).symm
      exact Nat.lt_of_le_of_ne after (none later known' earlier known).symm

end Spans

namespace TumblingWindowExecutor

variable {last timestamp : SystemTime} {windowSize : Duration} {seen : List SystemTime}
  {executor : TumblingWindowExecutor}

theorem ensureWindow_assigned (assigned : Assigned last windowSize seen executor)
    (fits : SpanFits last windowSize timestamp) :
    ∃ windows, executor.ensureWindow last (numberOf windowSize timestamp) = .ok windows ∧
      Assigned last windowSize (seen ++ [timestamp]) { executor with currentWindows := windows } := by
  have fits' : ∀ t ∈ seen ++ [timestamp], SpanFits last windowSize t := by
    rw [List.forall_mem_append, List.forall_mem_singleton]
    exact ⟨assigned.fits, fits⟩
  rw [ensureWindow_insert, assigned.size]
  by_cases known : windowId (numberOf windowSize timestamp) ∈ executor.currentWindows
  · refine ⟨_, if_pos known, rfl, fun entry member => ?_, ?_, fits'⟩
    · obtain ⟨t, old, span⟩ := assigned.spans entry member
      exact ⟨t, List.mem_append_left _ old, span⟩
    · rw [List.forall_mem_append, List.forall_mem_singleton]
      exact ⟨assigned.made, known⟩
  · rw [if_neg known]
    refine ⟨_, if_pos fits, rfl, fun entry member => ?_, fun t member => ?_, fits'⟩
    · rcases mem_insert member with rfl | older
      · exact ⟨timestamp, List.mem_append_right _ List.mem_cons_self, rfl, rfl, rfl⟩
      · obtain ⟨t, old, span⟩ := assigned.spans entry older
        exact ⟨t, List.mem_append_left _ old, span⟩
    · rcases List.mem_append.mp member with old | new
      · exact (AList.mem_insert _).mpr (.inr (assigned.made t old))
      · obtain rfl := List.mem_singleton.mp new
        exact (AList.mem_insert _).mpr (.inl rfl)

theorem getWindowForEvent_serves (nonzero : windowSize.asSecs ≠ 0)
    (assigned : Assigned last windowSize seen executor) (fromEpoch : unixEpoch ≤ timestamp)
    (fits : SpanFits last windowSize timestamp) :
    ∃ outcome executor', executor.getWindowForEvent last timestamp = .ok (outcome, executor') ∧
      Serves windowSize timestamp outcome ∧
      Assigned last windowSize (seen ++ [timestamp]) executor' := by
  obtain ⟨windows, ensured, assigned'⟩ := ensureWindow_assigned assigned fits
  obtain ⟨window, found⟩ := exists_get
    (assigned'.made timestamp (List.mem_append_right _ List.mem_cons_self))
  obtain ⟨t, -, span⟩ := assigned'.spans _ (mem_of_get found)
  rw [← windowId_inj span.key] at span
  obtain ⟨begun, going⟩ := within_span nonzero fromEpoch
  refine ⟨.ok (windowId (numberOf windowSize timestamp), window),
    { executor with currentWindows := windows }, ?_, ⟨_, window, rfl, ?_, ?_, ?_⟩, assigned'⟩
  · rw [getWindowForEvent_eq (assigned.size.symm ▸ nonzero) fromEpoch, assigned.size]
    rw [numberOf] at ensured found
    rw [ensured, Except.bind, found]
    rfl
  · exact span.start ▸ begun
  · exact span.finish ▸ going
  · rw [span.finish, span.start]

theorem getWindowForEvent_fails (assigned : Assigned last windowSize seen executor)
    (fromEpoch : unixEpoch ≤ timestamp)
    (bad : ¬ (windowSize.asSecs ≠ 0 ∧ SpanFits last windowSize timestamp)) :
    ∃ fault, executor.getWindowForEvent last timestamp = .error fault := by
  by_cases nonzero : windowSize.asSecs = 0
  · refine ⟨.divideByZero, ?_⟩
    rw [getWindowForEvent, SystemTime.durationSince_epoch fromEpoch]
    exact if_pos (assigned.size.symm ▸ nonzero)
  · have past : ¬ SpanFits last windowSize timestamp := fun fits => bad ⟨nonzero, fits⟩
    have unknown : windowId (numberOf windowSize timestamp) ∉ executor.currentWindows := by
      intro known
      obtain ⟨window, found⟩ := exists_get known
      obtain ⟨t, old, span⟩ := assigned.spans _ (mem_of_get found)
      have fits := assigned.fits t old
      rw [SpanFits, ← windowId_inj span.key] at fits
      exact past fits
    refine ⟨.timeOverflow, ?_⟩
    rw [numberOf] at unknown
    rw [SpanFits, spanStart, numberOf] at past
    rw [getWindowForEvent_eq (assigned.size.symm ▸ nonzero) fromEpoch, ensureWindow_insert,
      assigned.size, if_neg unknown, if_neg past]
    rfl

theorem getWindowsForEvents_serves (nonzero : windowSize.asSecs ≠ 0)
    (assigned : Assigned last windowSize seen executor) {timestamps : List SystemTime}
    (fromEpoch : ∀ timestamp ∈ timestamps, unixEpoch ≤ timestamp)
    (fits : ∀ timestamp ∈ timestamps, SpanFits last windowSize timestamp) :
    ∃ outcomes executor', executor.getWindowsForEvents last timestamps = .ok (outcomes, executor') ∧
      List.Forall₂ (Serves windowSize) timestamps outcomes ∧
      Assigned last windowSize (seen ++ timestamps) executor' := by
  induction timestamps generalizing seen executor with
  | nil => exact ⟨[], executor, rfl, .nil, by rwa [List.append_nil]⟩
  | cons timestamp timestamps ih =>
    obtain ⟨outcome, mid, called, serves, assigned'⟩ := getWindowForEvent_serves nonzero assigned
      (fromEpoch _ List.mem_cons_self) (fits _ List.mem_cons_self)
    obtain ⟨outcomes, executor', rest, servesAll, final⟩ := ih assigned'
      (fun t member => fromEpoch t (List.mem_cons_of_mem _ member))
      (fun t member => fits t (List.mem_cons_of_mem _ member))
    rw [List.append_assoc, List.singleton_append] at final
    refine ⟨outcome :: outcomes, executor', ?_, .cons serves servesAll, final⟩
    rw [getWindowsForEvents, called]
    simp only [bind, Except.bind, rest]
    rfl

theorem getWindowsForEvents_fails (assigned : Assigned last windowSize seen executor)
    {timestamps : List SystemTime} (fromEpoch : ∀ timestamp ∈ timestamps, unixEpoch ≤ timestamp)
    (bad : ¬ ∀ timestamp ∈ timestamps,
      windowSize.asSecs ≠ 0 ∧ SpanFits last windowSize timestamp) :
    ∃ fault, executor.getWindowsForEvents last timestamps = .error fault := by
  induction timestamps generalizing seen executor with
  | nil => exact absurd (List.forall_mem_nil _) bad
  | cons timestamp timestamps ih =>
    have epoch := fromEpoch timestamp List.mem_cons_self
    by_cases good : windowSize.asSecs ≠ 0 ∧ SpanFits last windowSize timestamp
    · obtain ⟨outcome, mid, called, -, assigned'⟩ :=
        getWindowForEvent_serves good.1 assigned epoch good.2
      obtain ⟨fault, failed⟩ := ih assigned'
        (fun t member => fromEpoch t (List.mem_cons_of_mem _ member))
        (fun later => bad (List.forall_mem_cons.mpr ⟨good, later⟩))
      refine ⟨fault, ?_⟩
      rw [getWindowsForEvents, called]
      simp only [bind, Except.bind, failed]
    · obtain ⟨fault, failed⟩ := getWindowForEvent_fails assigned epoch good
      refine ⟨fault, ?_⟩
      rw [getWindowsForEvents, failed]
      rfl

/-- A sequence of calls is served without overlaps exactly when the size has whole seconds and
    the windows can be represented, and it has no fraction of a second or no two timestamps lie in
    neighbouring windows. -/
theorem serves_all_iff (last : SystemTime) (windowSize : Duration) (timestamps : List SystemTime)
    (fromEpoch : ∀ timestamp ∈ timestamps, unixEpoch ≤ timestamp) :
    ServesAll last windowSize timestamps ↔
      (∀ timestamp ∈ timestamps, windowSize.asSecs ≠ 0 ∧ SpanFits last windowSize timestamp) ∧
        (windowSize = Duration.fromSecs windowSize.asSecs ∨
          ∀ earlier ∈ timestamps, ∀ later ∈ timestamps,
            numberOf windowSize later ≠ numberOf windowSize earlier + 1) := by
  have assigned := assigned_new last windowSize
  by_cases good : ∀ timestamp ∈ timestamps,
      windowSize.asSecs ≠ 0 ∧ SpanFits last windowSize timestamp
  · rw [and_iff_right good]
    cases timestamps with
    | nil =>
      exact iff_of_true ⟨[], _, rfl, .nil, .nil⟩ (.inr (List.forall_mem_nil _))
    | cons timestamp timestamps =>
      have nonzero := (good timestamp List.mem_cons_self).1
      obtain ⟨outcomes, executor, ran, serves, final⟩ := getWindowsForEvents_serves nonzero assigned
        fromEpoch fun t member => (good t member).2
      rw [List.nil_append] at final
      rw [← pairwise_apart_iff nonzero final]
      constructor
      · rintro ⟨outcomes', executor', ran', -, apart⟩
        cases ran.symm.trans ran'
        exact apart
      · exact fun apart => ⟨outcomes, executor, ran, serves, apart⟩
  · refine iff_of_false ?_ fun both => good both.1
    rintro ⟨outcomes, executor, ran, -⟩
    obtain ⟨fault, failed⟩ := getWindowsForEvents_fails assigned fromEpoch good
    cases failed.symm.trans ran

end TumblingWindowExecutor

/-- The numbers of these seconds are 0, 2 and 0 again. -/
theorem serves_all_iff_fraction :
    TumblingWindowExecutor.ServesAll unixLast 2500000000 [0, 5000000000, 1000000000] :=
  (TumblingWindowExecutor.serves_all_iff unixLast 2500000000 [0, 5000000000, 1000000000]
    (by decide)).mpr (by decide)

/-- Half of a second is no divisor, and windows of a second and a half for the seconds 0 and 1
    share half of one. -/
theorem fractions_not_served :
    (TumblingWindowExecutor.new 500000000).getWindowForEvent unixLast 0 = .error .divideByZero ∧
    ∃ outcomes executor earlier later,
      (TumblingWindowExecutor.new 1500000000).getWindowsForEvents unixLast [0, 1000000000] =
        .ok (outcomes, executor) ∧
      values executor.currentWindows = [later, earlier] ∧ ¬ later.Apart earlier :=
  ⟨rfl, _, _, _, _, rfl, rfl, by decide⟩

end StatGuardian.Core.Streaming
