import StatGuardian.Core.Streaming
import StatGuardian.Library.Results

namespace StatGuardian.Core.Streaming

open KeyedValues

inductive SlidingOp where
  | event (timestamp : SystemTime)
  | evict (cutoff : SystemTime)
  deriving DecidableEq, Repr

namespace SlidingWindowExecutor

def live (executor : SlidingWindowExecutor) : List StreamingWindow :=
  values executor.currentWindows

def insertedBy (last : SystemTime) (executor : SlidingWindowExecutor) (timestamp : SystemTime) :
    List StreamingWindow :=
  match executor.slideOver last timestamp with
  | .ok (windows, _) =>
    (windows.entries.filter (fun entry => entry.1 ∉ executor.currentWindows)).map Sigma.snd
  | .error _ => []

end SlidingWindowExecutor

/-- A run so far: the executor, the windows inserted into it and the closed windows that a call
    returned. -/
structure SlidingRun where
  executor : SlidingWindowExecutor
  created : List StreamingWindow
  delivered : List StreamingWindow

namespace SlidingRun

def start (windowSize slideInterval : Duration) : SlidingRun where
  executor := .new windowSize slideInterval
  created := []
  delivered := []

def step (last : SystemTime) (run : SlidingRun) : SlidingOp → Except TimeFault SlidingRun
  | .event timestamp => do
    let (outcome, executor) ← run.executor.getWindowsForEvent last timestamp
    match outcome with
    | .ok matched => pure {
        executor := executor
        created := run.created ++ run.executor.insertedBy last timestamp
        delivered := run.delivered ++ matched.filter StreamingWindow.isClosed }
    | .error _ => pure { run with executor := executor }
  | .evict cutoff =>
    let (evicted, executor) := run.executor.evictExpired cutoff
    pure { run with
      executor := executor
      delivered := run.delivered ++ evicted.filter StreamingWindow.isClosed }

def execute (last : SystemTime) (windowSize slideInterval : Duration) (ops : List SlidingOp) :
    Except TimeFault SlidingRun :=
  ops.foldlM (step last) (start windowSize slideInterval)

end SlidingRun

section Walking

variable {last timestamp : SystemTime} {windowSize slideInterval : Duration}

def slideStart (slideInterval : Duration) (count : Nat) : SystemTime :=
  Duration.fromSecs (count * slideInterval.asSecs)

/-- The entry of the window of a count, to which nothing has been done. -/
structure IsSlide (windowSize slideInterval : Duration)
    (entry : Sigma fun _ : String => StreamingWindow) (count : Nat) : Prop where
  key : entry.1 = SlidingWindowExecutor.windowId count (count * slideInterval.asSecs)
  start : entry.2.startTime = slideStart slideInterval count
  finish : entry.2.endTime = slideStart slideInterval count + windowSize
  isOpen : entry.2.isClosed = false

def Around (timestamp : SystemTime) (entry : Sigma fun _ : String => StreamingWindow) : Prop :=
  entry.2.startTime ≤ timestamp ∧ timestamp ≤ entry.2.endTime

def visited (windowSize slideInterval : Duration) (timestamp : SystemTime) (count : Nat)
    (windows : WindowMap) (matched : List StreamingWindow) : WindowMap × List StreamingWindow :=
  if slideStart slideInterval count ≤ timestamp ∧
      timestamp ≤ slideStart slideInterval count + windowSize then
    SlidingWindowExecutor.visit windows matched
      (SlidingWindowExecutor.windowId count (count * slideInterval.asSecs))
      (slideStart slideInterval count) (slideStart slideInterval count + windowSize)
  else (windows, matched)

theorem walk_succ (fuel count : Nat) (windows : WindowMap) (matched : List StreamingWindow) :
    SlidingWindowExecutor.walk last windowSize slideInterval timestamp (fuel + 1) count windows
        matched =
      if slideStart slideInterval count + windowSize ≤ last then
        if timestamp < slideStart slideInterval count + windowSize then
          .ok (visited windowSize slideInterval timestamp count windows matched)
        else
          SlidingWindowExecutor.walk last windowSize slideInterval timestamp fuel (count + 1)
            (visited windowSize slideInterval timestamp count windows matched).1
            (visited windowSize slideInterval timestamp count windows matched).2
      else .error .timeOverflow := by
  have before : slideStart slideInterval count ≤ slideStart slideInterval count + windowSize :=
    Int.le_add_of_nonneg_right (Int.natCast_nonneg _)
  have epoch : unixEpoch + (Duration.fromSecs (count * slideInterval.asSecs) : Nat) =
      slideStart slideInterval count := Int.zero_add _
  rw [SlidingWindowExecutor.walk]
  simp only [SystemTime.plus, epoch]
  by_cases fits : slideStart slideInterval count + windowSize ≤ last
  · simp only [if_pos (Int.le_trans before fits), if_pos fits, bind, Except.bind, visited]
    rfl
  · rw [if_neg fits]
    by_cases first : slideStart slideInterval count ≤ last
    · simp only [if_pos first, if_neg fits, bind, Except.bind]
    · simp only [if_neg first, bind, Except.bind]

theorem visited_spec (windowSize slideInterval : Duration) (timestamp : SystemTime) (count : Nat)
    (windows : WindowMap) (matched : List StreamingWindow) :
    ∃ fresh, (visited windowSize slideInterval timestamp count windows matched).1.entries =
        fresh ++ windows.entries ∧
      (∀ entry ∈ fresh, IsSlide windowSize slideInterval entry count ∧ Around timestamp entry) ∧
      ∀ window ∈ (visited windowSize slideInterval timestamp count windows matched).2,
        window ∈ matched ∨
          window ∈ values (visited windowSize slideInterval timestamp count windows matched).1 := by
  by_cases around : slideStart slideInterval count ≤ timestamp ∧
      timestamp ≤ slideStart slideInterval count + windowSize
  · rw [visited, if_pos around, SlidingWindowExecutor.visit]
    have clones : ∀ (windows : WindowMap) (key : String),
        ∀ window ∈ matched ++ (get windows key).toList, window ∈ matched ∨ window ∈ values windows := by
      intro windows key window member
      rcases List.mem_append.mp member with earlier | clone
      · exact .inl earlier
      · exact .inr (List.mem_map.mpr ⟨_, mem_of_get (Option.mem_toList.mp clone), rfl⟩)
    by_cases known : SlidingWindowExecutor.windowId count (count * slideInterval.asSecs) ∈ windows
    · simp only [if_pos known]
      exact ⟨[], rfl, List.forall_mem_nil _, clones _ _⟩
    · simp only [if_neg known]
      refine ⟨[⟨_, .new _ _ _⟩], AList.entries_insert_of_notMem known, ?_, clones _ _⟩
      intro entry member
      rw [List.mem_singleton.mp member]
      exact ⟨⟨rfl, rfl, rfl, rfl⟩, around⟩
  · rw [visited, if_neg around]
    exact ⟨[], rfl, List.forall_mem_nil _, fun window => .inl⟩

/-- The loop only puts windows around the timestamp before the ones that were there. -/
theorem walk_ok {fuel count : Nat} {windows windows' : WindowMap}
    {matched matched' : List StreamingWindow}
    (walked : SlidingWindowExecutor.walk last windowSize slideInterval timestamp fuel count windows
      matched = .ok (windows', matched')) :
    ∃ fresh, windows'.entries = fresh ++ windows.entries ∧
      (∀ entry ∈ fresh, (∃ count, IsSlide windowSize slideInterval entry count) ∧
        Around timestamp entry) ∧
      ∀ window ∈ matched', window ∈ matched ∨ window ∈ values windows' := by
  induction fuel generalizing count windows matched with
  | zero => cases walked
  | succ fuel ih =>
    obtain ⟨fresh, entries, slides, clones⟩ :=
      visited_spec windowSize slideInterval timestamp count windows matched
    rw [walk_succ] at walked
    split at walked
    · split at walked
      · rw [Except.ok.inj walked] at entries clones
        exact ⟨fresh, entries, fun entry member =>
          ⟨⟨count, (slides entry member).1⟩, (slides entry member).2⟩, clones⟩
      · obtain ⟨more, entries', slides', clones'⟩ := ih walked
        refine ⟨more ++ fresh, ?_, ?_, ?_⟩
        · rw [entries', entries, List.append_assoc]
        · intro entry member
          rcases List.mem_append.mp member with later | earlier
          · exact slides' entry later
          · exact ⟨⟨count, (slides entry earlier).1⟩, (slides entry earlier).2⟩
        · intro window member
          rcases clones' window member with earlier | there
          · rcases clones window earlier with before | there
            · exact .inl before
            · right
              rw [values, entries', List.map_append]
              exact List.mem_append_right _ there
          · exact .inr there
    · cases walked

end Walking

/-- Every entry of the executor is the window of some count. -/
structure Slides (windowSize slideInterval : Duration) (executor : SlidingWindowExecutor) : Prop where
  size : executor.windowSize = windowSize
  interval : executor.slideInterval = slideInterval
  slides : ∀ entry ∈ executor.currentWindows.entries,
    ∃ count, IsSlide windowSize slideInterval entry count

namespace SlidingWindowExecutor

variable {last timestamp : SystemTime} {windowSize slideInterval : Duration}
  {executor : SlidingWindowExecutor}

theorem slides_new (windowSize slideInterval : Duration) :
    Slides windowSize slideInterval (new windowSize slideInterval) where
  size := rfl
  interval := rfl
  slides := by
    intro entry member
    cases member

theorem getWindowsForEvent_early (early : timestamp < unixEpoch) :
    executor.getWindowsForEvent last timestamp =
      .ok (.error "second time provided was later than self", executor) := by
  rw [getWindowsForEvent, SystemTime.durationSince_early early]

theorem getWindowsForEvent_eq (fromEpoch : unixEpoch ≤ timestamp) :
    executor.getWindowsForEvent last timestamp =
      (executor.slideOver last timestamp).map fun (windows, matched) =>
        (.ok matched, (evictExpired { executor with currentWindows := windows } timestamp).2) := by
  rw [getWindowsForEvent, SystemTime.durationSince_epoch fromEpoch]
  cases executor.slideOver last timestamp <;> rfl

/-- An event puts windows around it before the ones that have not ended, and the clones that it
    returns are of open windows. -/
structure EventEffect (last : SystemTime) (windowSize slideInterval : Duration)
    (executor : SlidingWindowExecutor) (timestamp : SystemTime)
    (outcome : Except String (List StreamingWindow)) (executor' : SlidingWindowExecutor) : Prop where
  matched : ∃ matched, outcome = .ok matched ∧ matched.filter StreamingWindow.isClosed = []
  fresh : ∃ fresh, executor.insertedBy last timestamp = fresh.map Sigma.snd ∧
    executor'.currentWindows.entries = fresh ++
      executor.currentWindows.entries.filter (fun entry => !decide (entry.2.endTime < timestamp)) ∧
    ∀ entry ∈ fresh, (∃ count, IsSlide windowSize slideInterval entry count) ∧
      Around timestamp entry
  slides : Slides windowSize slideInterval executor'

theorem insertedBy_eq {windows : WindowMap} {matched : List StreamingWindow}
    {fresh : List (Sigma fun _ : String => StreamingWindow)}
    (walked : executor.slideOver last timestamp = .ok (windows, matched))
    (entries : windows.entries = fresh ++ executor.currentWindows.entries) :
    executor.insertedBy last timestamp = fresh.map Sigma.snd := by
  have distinct := windows.nodupKeys
  rw [List.NodupKeys, List.keys, entries, List.map_append] at distinct
  have new : fresh.filter (fun entry => entry.1 ∉ executor.currentWindows) = fresh := by
    refine List.filter_eq_self.mpr fun entry member => decide_eq_true fun known => ?_
    exact (List.nodup_append.mp distinct).2.2 _ (List.mem_map.mpr ⟨entry, member, rfl⟩) _
      (AList.mem_keys.mp known) rfl
  have old : executor.currentWindows.entries.filter
      (fun entry => entry.1 ∉ executor.currentWindows) = [] := by
    refine List.filter_eq_nil_iff.mpr fun entry member absent => ?_
    exact of_decide_eq_true absent (AList.mem_keys.mpr (List.mem_map.mpr ⟨entry, member, rfl⟩))
  rw [insertedBy, walked]
  simp only
  rw [entries, List.filter_append, new, old, List.append_nil]

theorem getWindowsForEvent_ok {executor' : SlidingWindowExecutor}
    {outcome : Except String (List StreamingWindow)}
    (slides : Slides windowSize slideInterval executor) (fromEpoch : unixEpoch ≤ timestamp)
    (ran : executor.getWindowsForEvent last timestamp = .ok (outcome, executor')) :
    EventEffect last windowSize slideInterval executor timestamp outcome executor' := by
  rw [getWindowsForEvent_eq fromEpoch] at ran
  obtain ⟨⟨windows, matched⟩, walked, same⟩ := (Results.map_ok_iff ..).mp ran
  cases same
  have looped := walked
  rw [slideOver, slides.size, slides.interval] at looped
  obtain ⟨fresh, entries, around, clones⟩ := walk_ok looped
  have all : ∀ entry ∈ windows.entries, ∃ count, IsSlide windowSize slideInterval entry count := by
    intro entry member
    rw [entries] at member
    rcases List.mem_append.mp member with new | old
    · exact (around entry new).1
    · exact slides.slides entry old
  have stay : fresh.filter (fun entry => !decide (entry.2.endTime < timestamp)) = fresh := by
    refine List.filter_eq_self.mpr fun entry member => ?_
    rw [Bool.not_eq_true', decide_eq_false_iff_not, Int.not_lt]
    exact (around entry member).2.2
  refine ⟨⟨matched, rfl, ?_⟩, ⟨fresh, insertedBy_eq walked entries, ?_, around⟩,
    slides.size, slides.interval, ?_⟩
  · refine List.filter_eq_nil_iff.mpr fun window member closed => ?_
    rcases clones window member with none | held
    · cases none
    · obtain ⟨entry, inside, rfl⟩ := List.mem_map.mp held
      obtain ⟨count, slide⟩ := all entry inside
      rw [slide.isOpen] at closed
      cases closed
  · rw [← stay, ← List.filter_append, ← entries]
    rfl
  · intro entry member
    exact all entry ((mem_retain _ _ _).mp member).1

theorem evictExpired_slides (slides : Slides windowSize slideInterval executor)
    (cutoff : SystemTime) : Slides windowSize slideInterval (executor.evictExpired cutoff).2 where
  size := slides.size
  interval := slides.interval
  slides entry member := slides.slides entry ((mem_retain _ _ _).mp member).1

end SlidingWindowExecutor

namespace SlidingWindowExecutor

def NothingEnded (executor : SlidingWindowExecutor) : SlidingOp → Prop
  | .event timestamp => unixEpoch ≤ timestamp →
      ∀ window ∈ executor.live, timestamp ≤ window.endTime
  | .evict _ => True

/-- The windows that the eviction inside of an event takes out, which no call returns. -/
def lostBy (executor : SlidingWindowExecutor) : SlidingOp → List StreamingWindow
  | .event timestamp =>
    if unixEpoch ≤ timestamp then
      executor.live.filter (fun window => window.endTime < timestamp)
    else []
  | .evict _ => []

instance (executor : SlidingWindowExecutor) (op : SlidingOp) :
    Decidable (executor.NothingEnded op) :=
  match op with
  | .event timestamp => inferInstanceAs (Decidable (unixEpoch ≤ timestamp →
      ∀ window ∈ executor.live, timestamp ≤ window.endTime))
  | .evict _ => isTrue trivial

theorem lostBy_eq_nil_iff (executor : SlidingWindowExecutor) (op : SlidingOp) :
    executor.lostBy op = [] ↔ executor.NothingEnded op := by
  cases op with
  | event timestamp =>
    by_cases fromEpoch : unixEpoch ≤ timestamp
    · simp [lostBy, NothingEnded, fromEpoch, List.filter_eq_nil_iff]
    · simp [lostBy, NothingEnded, fromEpoch]
  | evict cutoff => simp [lostBy, NothingEnded]

end SlidingWindowExecutor

namespace SlidingRun

/-- Every window that was inserted is live or was delivered, once. -/
def Accounted (run : SlidingRun) : Prop :=
  (run.created.map StreamingWindow.close).Perm
    (run.executor.live.map StreamingWindow.close ++ run.delivered)

/-- At every event of the rest of a run, no live window has ended before it. -/
def KeepsUp (last : SystemTime) : SlidingRun → List SlidingOp → Prop
  | _, [] => True
  | run, op :: ops =>
    run.executor.NothingEnded op ∧
      match run.step last op with
      | .ok next => KeepsUp last next ops
      | .error _ => True

instance (run : SlidingRun) : Decidable run.Accounted :=
  inferInstanceAs (Decidable (List.Perm _ _))

instance decidableKeepsUp (last : SystemTime) : (run : SlidingRun) → (ops : List SlidingOp) →
    Decidable (KeepsUp last run ops)
  | _, [] => isTrue trivial
  | run, op :: ops =>
    have : Decidable (match run.step last op with
        | .ok next => KeepsUp last next ops
        | .error _ => True) :=
      match run.step last op with
      | .ok next => decidableKeepsUp last next ops
      | .error _ => isTrue trivial
    inferInstanceAs (Decidable (_ ∧ _))

section Accounting

variable {last : SystemTime} {windowSize slideInterval : Duration} {run next : SlidingRun}
  {lost : List StreamingWindow}

/-- The windows that were inserted are live, were delivered or are lost. -/
def Balanced (run : SlidingRun) (lost : List StreamingWindow) : Prop :=
  (run.created.map StreamingWindow.close).Perm
    (run.executor.live.map StreamingWindow.close ++ run.delivered ++
      lost.map StreamingWindow.close)

theorem accounted_iff_of_balanced (balanced : Balanced run lost) : Accounted run ↔ lost = [] := by
  constructor
  · intro accounted
    have sizes := (balanced.symm.trans accounted).length_eq
    rw [List.length_append, List.length_map] at sizes
    exact List.length_eq_zero_iff.mp (by omega)
  · rintro rfl
    rwa [Balanced, List.map_nil, List.append_nil] at balanced

theorem event_early {timestamp : SystemTime} (early : timestamp < unixEpoch)
    (stepped : run.step last (.event timestamp) = .ok next) : next = run := by
  rw [step, SlidingWindowExecutor.getWindowsForEvent_early early] at stepped
  cases stepped
  rfl

theorem event_spec (slides : Slides windowSize slideInterval run.executor)
    {timestamp : SystemTime} (fromEpoch : unixEpoch ≤ timestamp)
    (stepped : run.step last (.event timestamp) = .ok next) :
    ∃ outcome, SlidingWindowExecutor.EventEffect last windowSize slideInterval run.executor
        timestamp outcome next.executor ∧
      next.created = run.created ++ run.executor.insertedBy last timestamp ∧
      next.delivered = run.delivered := by
  obtain ⟨⟨outcome, executor⟩, ran, same⟩ := (Results.bind_ok_iff ..).mp stepped
  have effect := SlidingWindowExecutor.getWindowsForEvent_ok slides fromEpoch ran
  obtain ⟨matched, rfl, noneClosed⟩ := effect.matched
  cases same
  refine ⟨_, effect, rfl, ?_⟩
  rw [noneClosed, List.append_nil]

theorem step_slides (slides : Slides windowSize slideInterval run.executor) {op : SlidingOp}
    (stepped : run.step last op = .ok next) : Slides windowSize slideInterval next.executor := by
  cases op with
  | event timestamp =>
    rcases Int.lt_or_le timestamp unixEpoch with early | fromEpoch
    · rwa [event_early early stepped]
    · obtain ⟨outcome, effect, -, -⟩ := event_spec slides fromEpoch stepped
      exact effect.slides
  | evict cutoff =>
    cases stepped
    exact SlidingWindowExecutor.evictExpired_slides slides cutoff

theorem event_balanced (slides : Slides windowSize slideInterval run.executor)
    {timestamp : SystemTime} (fromEpoch : unixEpoch ≤ timestamp)
    (stepped : run.step last (.event timestamp) = .ok next) (balanced : Balanced run lost) :
    Balanced next (lost ++ run.executor.lostBy (.event timestamp)) := by
  obtain ⟨outcome, effect, created, delivered⟩ := event_spec slides fromEpoch stepped
  obtain ⟨fresh, inserted, entries, -⟩ := effect.fresh
  have live : next.executor.live = fresh.map Sigma.snd ++
      values (takeEnded run.executor.currentWindows timestamp).2 := by
    rw [SlidingWindowExecutor.live, values, entries, List.map_append]
    rfl
  have parts := (values_takeEnded run.executor.currentWindows timestamp).map StreamingWindow.close
  rw [Balanced, created, delivered, inserted, live, SlidingWindowExecutor.lostBy,
    if_pos fromEpoch]
  refine List.perm_iff_count.mpr fun window => ?_
  have before := balanced.count_eq window
  have split := parts.count_eq window
  simp only [List.map_append, List.count_append, SlidingWindowExecutor.live] at before split ⊢
  omega

theorem evict_balanced {cutoff : SystemTime}
    (stepped : run.step last (.evict cutoff) = .ok next) (balanced : Balanced run lost) :
    Balanced next lost := by
  cases stepped
  have parts := (values_takeEnded run.executor.currentWindows cutoff).map StreamingWindow.close
  have all : ∀ windows : List StreamingWindow,
      (windows.map StreamingWindow.close).filter StreamingWindow.isClosed =
        windows.map StreamingWindow.close := by
    intro windows
    refine List.filter_eq_self.mpr fun window member => ?_
    obtain ⟨_, -, rfl⟩ := List.mem_map.mp member
    rfl
  refine List.perm_iff_count.mpr fun window => ?_
  have before := balanced.count_eq window
  have split := parts.count_eq window
  simp only [takeEnded, all, List.map_append, List.count_append, SlidingWindowExecutor.live]
    at before split ⊢
  omega

theorem step_balanced (slides : Slides windowSize slideInterval run.executor) (op : SlidingOp)
    (stepped : run.step last op = .ok next) (balanced : Balanced run lost) :
    Balanced next (lost ++ run.executor.lostBy op) := by
  cases op with
  | event timestamp =>
    rcases Int.lt_or_le timestamp unixEpoch with early | fromEpoch
    · rw [SlidingWindowExecutor.lostBy, if_neg (Int.not_le.mpr early), List.append_nil]
      rwa [event_early early stepped]
    · exact event_balanced slides fromEpoch stepped balanced
  | evict cutoff =>
    rw [SlidingWindowExecutor.lostBy, List.append_nil]
    exact evict_balanced stepped balanced

/-- A run loses windows exactly when one of its events does. -/
theorem run_balanced (slides : Slides windowSize slideInterval run.executor)
    (balanced : Balanced run lost) (ops : List SlidingOp)
    (ran : ops.foldlM (step last) run = .ok next) :
    ∃ more, Balanced next (lost ++ more) ∧ (more = [] ↔ KeepsUp last run ops) := by
  induction ops generalizing run lost with
  | nil =>
    cases ran
    exact ⟨[], by rwa [List.append_nil], by simp [KeepsUp]⟩
  | cons op ops ih =>
    rw [List.foldlM_cons] at ran
    obtain ⟨mid, stepped, rest⟩ := (Results.bind_ok_iff ..).mp ran
    obtain ⟨more, final, keeps⟩ :=
      ih (step_slides slides stepped) (step_balanced slides op stepped balanced) rest
    refine ⟨run.executor.lostBy op ++ more, by rwa [← List.append_assoc], ?_⟩
    rw [List.append_eq_nil_iff, keeps, SlidingWindowExecutor.lostBy_eq_nil_iff, KeepsUp, stepped]

end Accounting

end SlidingRun

/-- In a run that returns every inserted window is live or was handed out, exactly when no event
    comes after the end of a live window: what has ended by then vanishes inside of the call. -/
theorem sliding_accounted_iff (last : SystemTime) (windowSize slideInterval : Duration)
    (ops : List SlidingOp) (run : SlidingRun)
    (ran : SlidingRun.execute last windowSize slideInterval ops = .ok run) :
    run.Accounted ↔ SlidingRun.KeepsUp last (.start windowSize slideInterval) ops := by
  have slides := SlidingWindowExecutor.slides_new windowSize slideInterval
  have balanced : SlidingRun.Balanced (.start windowSize slideInterval) [] := .refl _
  obtain ⟨lost, final, keeps⟩ := SlidingRun.run_balanced slides balanced ops ran
  rw [← keeps]
  exact SlidingRun.accounted_iff_of_balanced final

theorem sliding_accounted_evicting :
    ∃ run, SlidingRun.execute unixLast (Duration.fromSecs 60) (Duration.fromSecs 60)
        [.event 5000000000, .evict 70000000000, .event 70000000000] = .ok run ∧
      run.Accounted := by
  obtain ⟨run, ran, -⟩ := Results.ok_of_any (SlidingRun.execute unixLast (Duration.fromSecs 60)
    (Duration.fromSecs 60) [.event 5000000000, .evict 70000000000, .event 70000000000])
    (fun _ => true) (by decide)
  exact ⟨run, ran, (sliding_accounted_iff unixLast _ _ _ run ran).mpr (by decide)⟩

/-- The window of the first event has ended by the second one, and nobody gets it. -/
theorem ended_window_vanishes :
    ∃ run, SlidingRun.execute unixLast (Duration.fromSecs 60) (Duration.fromSecs 60)
        [.event 5000000000, .event 70000000000] = .ok run ∧
      ¬ run.Accounted := by
  obtain ⟨run, ran, lost⟩ := Results.ok_of_any (SlidingRun.execute unixLast (Duration.fromSecs 60)
    (Duration.fromSecs 60) [.event 5000000000, .event 70000000000])
    (fun run => decide (¬ run.Accounted)) (by decide)
  exact ⟨run, ran, of_decide_eq_true lost⟩

end StatGuardian.Core.Streaming
