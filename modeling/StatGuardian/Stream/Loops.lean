import StatGuardian.Library.Interleaving
import StatGuardian.Library.Windows
import StatGuardian.Runtime.ExtRat
import StatGuardian.Stream.Agent

namespace StatGuardian.Stream

open Windows

variable {F : Type}

def calls (events : List (AgentEvent F)) : List String := events.filterMap AgentEvent.callSignature

def signatures (loops : List LoopFinding) : List String := loops.map LoopFinding.signature

theorem signatures_recordLoop (found : LoopFinding) (loops : List LoopFinding) (sig : String) :
    sig ∈ signatures (recordLoop found loops) ↔ sig ∈ signatures loops ∨ sig = found.signature := by
  induction loops with
  | nil => simp [signatures, recordLoop]
  | cons existing rest ih =>
    unfold recordLoop
    split
    · rename_i same
      simp only [signatures, List.map_cons, List.mem_cons, same]
      constructor
      · exact Or.inl
      · rintro (known | rfl)
        · exact known
        · exact .inl rfl
    · simp only [signatures, List.map_cons, List.mem_cons] at ih ⊢
      rw [ih, or_assoc]

namespace LoopScan

/-- After some calls the window holds the last ones, and the loops found are the signatures that
    crowd some window of these calls. -/
structure Scanned (window threshold : Nat) (seen : List String) (scan : LoopScan) : Prop where
  recent : scan.recent.map Prod.fst = seen.rtake window
  loops : ∀ sig, sig ∈ signatures scan.loops ↔ Crowded window threshold seen sig

theorem push_recent {window : Nat} (positive : 0 < window) (recent : List (String × Nat))
    (seen : List String) (sig : String) (seq : Nat)
    (held : recent.map Prod.fst = seen.rtake window) :
    (if window < (recent ++ [(sig, seq)]).length then (recent ++ [(sig, seq)]).tail
      else recent ++ [(sig, seq)]).map Prod.fst = (seen ++ [sig]).rtake window := by
  have names : (recent ++ [(sig, seq)]).map Prod.fst = seen.rtake window ++ [sig] := by
    rw [List.map_append, held, List.map_singleton]
  rw [apply_ite (List.map Prod.fst), List.map_tail, names, ← List.length_map Prod.fst, names]
  exact push_rtake positive seen sig

theorem Scanned.visit {window threshold : Nat} {seen : List String} {scan : LoopScan}
    (scanned : Scanned window threshold seen scan) (wide : 0 < window) (often : 0 < threshold)
    (e : AgentEvent F) :
    Scanned window threshold (seen ++ e.callSignature.toList) (scan.visit window threshold e) := by
  unfold LoopScan.visit
  cases called : e.callSignature with
  | none => simpa [called] using scanned
  | some sig =>
    have recent := push_recent wide scan.recent seen sig e.seq scanned.recent
    simp only [Option.toList_some]
    generalize (if window < (scan.recent ++ [(sig, e.seq)]).length
      then (scan.recent ++ [(sig, e.seq)]).tail else scan.recent ++ [(sig, e.seq)]) = window' at *
    have repeated : (window'.filter (fun call => call.1 == sig)).length =
        ((seen ++ [sig]).rtake window).count sig := by
      rw [← recent, List.count_eq_countP, List.countP_map, List.countP_eq_length_filter]
      rfl
    split
    · rename_i enough
      rw [repeated] at enough
      refine ⟨recent, fun other => ?_⟩
      rw [signatures_recordLoop, scanned.loops, crowded_concat_iff _ _ _ _ _ often]
      simp only [enough, and_true]
    · rename_i few
      rw [repeated] at few
      refine ⟨recent, fun other => ?_⟩
      rw [scanned.loops, crowded_concat_iff _ _ _ _ _ often]
      simp only [few, and_false, or_false]

theorem scanned_foldl (window threshold : Nat) (wide : 0 < window) (often : 0 < threshold)
    (events : List (AgentEvent F)) :
    Scanned window threshold (calls events)
      (events.foldl (LoopScan.visit window threshold) ⟨[], []⟩) := by
  induction events using List.reverseRecOn with
  | nil =>
    refine ⟨by simp [calls], fun sig => ?_⟩
    exact iff_of_false List.not_mem_nil (not_crowded_nil window threshold sig often)
  | append_singleton events e ih =>
    rw [List.foldl_concat]
    have next := ih.visit wide often e
    have more : calls (events ++ [e]) = calls events ++ e.callSignature.toList := by
      cases called : e.callSignature <;> simp [calls, called]
    rwa [more]

end LoopScan

/-- The signatures of the loops that are found are those that crowd a window of the calls. -/
theorem mem_detectLoops_iff (events : List (AgentEvent F)) (window threshold : Nat)
    (sig : String) :
    sig ∈ signatures (detectLoops events window threshold) ↔
      0 < threshold ∧ Crowded window threshold (calls events) sig := by
  unfold detectLoops
  split
  · rename_i off
    simp only [signatures, List.map_nil, List.not_mem_nil, false_iff]
    rintro ⟨positive, stretch, _, short, often⟩
    simp only [Bool.or_eq_true, decide_eq_true_eq] at off
    have bound := List.count_le_length (a := sig) (l := stretch)
    omega
  · rename_i on
    simp only [Bool.or_eq_true, decide_eq_true_eq, not_or] at on
    have often : 0 < threshold := Nat.pos_of_ne_zero on.2
    rw [(LoopScan.scanned_foldl window threshold (Nat.pos_of_ne_zero on.1) often events).loops]
    exact (and_iff_right often).symm

section Interleaved

variable [Float64 F] (fixed : Nat → F → String) (policy : AgentPolicy F)

def reported (events : List (AgentEvent F)) : List String :=
  signatures (AgentGuard.evaluate fixed policy events).loops

/-- Loops are looked for among the calls of all executions together: a signature is reported where
    some `loop_window` of these calls in a row have it `loop_repeat_threshold` times. Executions
    that share no signature give each other no loop, and hide none where the window takes all
    calls. -/
structure PooledLoops (first second events : List (AgentEvent F)) : Prop where
  crowded : ∀ sig, sig ∈ reported fixed policy events ↔ 0 < policy.loopRepeatThreshold ∧
    Crowded policy.loopWindow policy.loopRepeatThreshold (calls events) sig
  none_invented : (∀ sig ∈ calls first, sig ∉ calls second) →
    ∀ sig ∈ reported fixed policy events,
      sig ∈ reported fixed policy first ∨ sig ∈ reported fixed policy second
  none_hidden : (calls events).length ≤ policy.loopWindow → ∀ sig,
    sig ∈ reported fixed policy first ∨ sig ∈ reported fixed policy second →
      sig ∈ reported fixed policy events

end Interleaved

def callOf (execution sig : String) : AgentEvent ExtRat where
  executionId := execution
  seq := 0
  timestampMs := none
  kind := .toolCall
  tool := none
  callSignature := some sig
  tokensIn := none
  tokensOut := none
  costUsd := none
  durationMs := none
  retryOf := none
  error := none
  metadata := []

end StatGuardian.Stream
