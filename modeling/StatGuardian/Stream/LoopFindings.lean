import StatGuardian.Stream.Loops

namespace StatGuardian.Stream

open Windows

variable {F : Type}

def signed (events : List (AgentEvent F)) : List (String × Nat) :=
  events.filterMap fun e => e.callSignature.map fun sig => (sig, e.seq)

/-- The calls of the signature in the window that ends at a call. -/
def occurrencesAt (window : Nat) (calls : List (String × Nat)) (sig : String) (i : Nat) :
    List (String × Nat) := (windowAt window calls i).filter (·.1 == sig)

structure Reached (window threshold : Nat) (calls : List (String × Nat)) (sig : String) (i : Nat) :
    Prop where
  own : (calls[i]?).map Prod.fst = some sig
  often : threshold ≤ (occurrencesAt window calls sig i).length

def FirstReached (window threshold : Nat) (calls : List (String × Nat)) (sig : String) (i : Nat) :
    Prop := Reached window threshold calls sig i ∧ ∀ j < i, ¬ Reached window threshold calls sig j

def LastReached (window threshold : Nat) (calls : List (String × Nat)) (sig : String) (i : Nat) :
    Prop := Reached window threshold calls sig i ∧ ∀ j, i < j → ¬ Reached window threshold calls sig j

/-- What a finding says of the calls: where its signature first reached the threshold, and what
    there was when it last did. -/
structure Describes (window threshold : Nat) (calls : List (String × Nat)) (found : LoopFinding) :
    Prop where
  first : ∃ i, FirstReached window threshold calls found.signature i ∧
    (occurrencesAt window calls found.signature i).head? = some (found.signature, found.firstSeq)
  last : ∃ i, LastReached window threshold calls found.signature i ∧
    found.occurrences = (occurrencesAt window calls found.signature i).length ∧
    calls[i]? = some (found.signature, found.lastSeq)

/-- The signature of one finding reached the threshold before that of another. -/
def Earlier (window threshold : Nat) (calls : List (String × Nat)) (a b : LoopFinding) : Prop :=
  ∃ i j, FirstReached window threshold calls a.signature i ∧
    FirstReached window threshold calls b.signature j ∧ i < j

section Growing

variable {window threshold : Nat} {calls : List (String × Nat)} {last : String × Nat} {sig : String}
  {i : Nat}

theorem Reached.inside (reached : Reached window threshold calls sig i) : i < calls.length := by
  obtain ⟨call, here, -⟩ := Option.map_eq_some_iff.mp reached.own
  exact (List.getElem?_eq_some_iff.mp here).1

theorem occurrencesAt_append (inside : i < calls.length) :
    occurrencesAt window (calls ++ [last]) sig i = occurrencesAt window calls sig i := by
  rw [occurrencesAt, occurrencesAt, windowAt_append window calls [last] inside]

theorem reached_append_iff (inside : i < calls.length) :
    Reached window threshold (calls ++ [last]) sig i ↔ Reached window threshold calls sig i := by
  have own : (calls ++ [last])[i]? = calls[i]? := List.getElem?_append_left inside
  have same : occurrencesAt window (calls ++ [last]) sig i = occurrencesAt window calls sig i :=
    occurrencesAt_append inside
  constructor
  · intro reached
    exact ⟨own ▸ reached.own, same ▸ reached.often⟩
  · intro reached
    exact ⟨own.symm ▸ reached.own, same.symm ▸ reached.often⟩

theorem reached_last_iff :
    Reached window threshold (calls ++ [last]) sig calls.length ↔ last.1 = sig ∧
      threshold ≤ (((calls ++ [last]).rtake window).filter (·.1 == sig)).length := by
  have own : (calls ++ [last])[calls.length]? = some last := List.getElem?_concat_length
  have whole : occurrencesAt window (calls ++ [last]) sig calls.length =
      ((calls ++ [last]).rtake window).filter (·.1 == sig) := by rw [occurrencesAt, windowAt_last]
  constructor
  · intro reached
    have here := reached.own
    rw [own, Option.map_some] at here
    exact ⟨Option.some.inj here, whole ▸ reached.often⟩
  · rintro ⟨here, often⟩
    exact ⟨by rw [own, Option.map_some, here], whole.symm ▸ often⟩

theorem FirstReached.append (first : FirstReached window threshold calls sig i) :
    FirstReached window threshold (calls ++ [last]) sig i := by
  have inside := first.1.inside
  refine ⟨(reached_append_iff inside).mpr first.1, fun j before reached => ?_⟩
  exact first.2 j before ((reached_append_iff (Nat.lt_trans before inside)).mp reached)

theorem LastReached.append (reached : LastReached window threshold calls sig i)
    (still : ¬ Reached window threshold (calls ++ [last]) sig calls.length) :
    LastReached window threshold (calls ++ [last]) sig i := by
  refine ⟨(reached_append_iff reached.1.inside).mpr reached.1, fun j after again => ?_⟩
  have bound := again.inside
  rw [List.length_append, List.length_singleton] at bound
  rcases Nat.lt_succ_iff_lt_or_eq.mp bound with inside | rfl
  · exact reached.2 j after ((reached_append_iff inside).mp again)
  · exact still again

theorem lastReached_last (reached : Reached window threshold (calls ++ [last]) sig calls.length) :
    LastReached window threshold (calls ++ [last]) sig calls.length := by
  refine ⟨reached, fun j after again => ?_⟩
  have bound := again.inside
  rw [List.length_append, List.length_singleton] at bound
  omega

theorem Earlier.append {a b : LoopFinding} (earlier : Earlier window threshold calls a b) :
    Earlier window threshold (calls ++ [last]) a b := by
  obtain ⟨i, j, first, second, before⟩ := earlier
  exact ⟨i, j, first.append, second.append, before⟩

theorem Describes.append {found : LoopFinding} (describes : Describes window threshold calls found)
    (still : ¬ Reached window threshold (calls ++ [last]) found.signature calls.length) :
    Describes window threshold (calls ++ [last]) found := by
  obtain ⟨i, first, head⟩ := describes.first
  obtain ⟨j, reached, count, call⟩ := describes.last
  refine ⟨⟨i, first.append, ?_⟩, ⟨j, reached.append still, ?_, ?_⟩⟩
  · rw [occurrencesAt_append first.1.inside, head]
  · rw [occurrencesAt_append reached.1.inside, count]
  · rw [List.getElem?_append_left reached.1.inside, call]

end Growing

section Recording

theorem recordLoop_new {found : LoopFinding} {loops : List LoopFinding}
    (fresh : found.signature ∉ signatures loops) : recordLoop found loops = loops ++ [found] := by
  induction loops with
  | nil => rfl
  | cons existing rest ih =>
    rw [signatures, List.map_cons, List.mem_cons, not_or] at fresh
    rw [recordLoop, if_neg (Ne.symm fresh.1), ih fresh.2, List.cons_append]

/-- The finding of a known signature gets the new count and number. -/
def LoopFinding.renewed (found existing : LoopFinding) : LoopFinding :=
  if existing.signature = found.signature then
    { existing with occurrences := found.occurrences, lastSeq := found.lastSeq }
  else existing

theorem recordLoop_known {found : LoopFinding} {loops : List LoopFinding}
    (once : (signatures loops).Nodup) (known : found.signature ∈ signatures loops) :
    recordLoop found loops = loops.map found.renewed := by
  induction loops with
  | nil => cases known
  | cons existing rest ih =>
    rw [signatures, List.map_cons, List.nodup_cons] at once
    rw [recordLoop, List.map_cons, LoopFinding.renewed]
    split
    · rename_i same
      have kept : ∀ other ∈ rest, found.renewed other = other := by
        intro other member
        have apart : other.signature ≠ found.signature := by
          intro again
          rw [same, ← again] at once
          exact once.1 (List.mem_map_of_mem member)
        exact if_neg apart
      rw [List.map_congr_left kept, List.map_id']
    · rename_i other
      rcases List.mem_cons.mp known with here | later
      · exact absurd here.symm other
      · rw [ih once.2 later]

end Recording

/-- The findings are right about the calls, and none is missing. -/
structure Findings (window threshold : Nat) (calls : List (String × Nat)) (loops : List LoopFinding) :
    Prop where
  complete : ∀ sig i, Reached window threshold calls sig i → sig ∈ signatures loops
  ordered : loops.Pairwise (Earlier window threshold calls)
  described : ∀ found ∈ loops, Describes window threshold calls found

namespace Findings

variable {window threshold : Nat} {calls : List (String × Nat)} {loops : List LoopFinding}
  {sig : String} {seq : Nat}

theorem once (findings : Findings window threshold calls loops) : (signatures loops).Nodup := by
  refine List.Pairwise.map _ (fun a b earlier same => ?_) findings.ordered
  obtain ⟨i, j, first, second, before⟩ := earlier
  exact second.2 i before (same ▸ first.1)

theorem few (findings : Findings window threshold calls loops)
    (few : ((calls ++ [(sig, seq)]).rtake window |>.filter (·.1 == sig)).length < threshold) :
    Findings window threshold (calls ++ [(sig, seq)]) loops := by
  have still : ∀ other, ¬ Reached window threshold (calls ++ [(sig, seq)]) other calls.length := by
    intro other reached
    obtain ⟨rfl, often⟩ := reached_last_iff.mp reached
    exact absurd often (Nat.not_le.mpr few)
  refine ⟨fun other i reached => ?_, findings.ordered.imp Earlier.append, fun found member => ?_⟩
  · have bound := reached.inside
    rw [List.length_append, List.length_singleton] at bound
    rcases Nat.lt_succ_iff_lt_or_eq.mp bound with inside | rfl
    · exact findings.complete other i ((reached_append_iff inside).mp reached)
    · exact absurd reached (still other)
  · exact (findings.described found member).append (still _)

structure AtLast (window threshold : Nat) (calls : List (String × Nat)) (last : String × Nat)
    (found : LoopFinding) : Prop where
  reached : Reached window threshold (calls ++ [last]) found.signature calls.length
  count : found.occurrences =
    (occurrencesAt window (calls ++ [last]) found.signature calls.length).length
  call : (calls ++ [last])[calls.length]? = some (found.signature, found.lastSeq)
  oldest : (occurrencesAt window (calls ++ [last]) found.signature calls.length).head? =
    some (found.signature, found.firstSeq)

section Last

variable {last : String × Nat} {found : LoopFinding}

theorem AtLast.describes_renewed (atLast : AtLast window threshold calls last found)
    {old : LoopFinding} (describes : Describes window threshold calls old)
    (same : old.signature = found.signature) :
    Describes window threshold (calls ++ [last]) (found.renewed old) := by
  obtain ⟨i, first, head⟩ := describes.first
  rw [LoopFinding.renewed, if_pos same]
  refine ⟨⟨i, first.append, ?_⟩, ⟨calls.length, ?_, ?_, ?_⟩⟩
  · rw [occurrencesAt_append first.1.inside, head]
  · show LastReached window threshold _ old.signature calls.length
    rw [same]
    exact lastReached_last atLast.reached
  · rw [atLast.count, same]
  · rw [atLast.call, same]

theorem AtLast.firstReached (atLast : AtLast window threshold calls last found)
    (never : ∀ i, ¬ Reached window threshold calls found.signature i) :
    FirstReached window threshold (calls ++ [last]) found.signature calls.length := by
  refine ⟨atLast.reached, fun j before again => ?_⟩
  exact never j ((reached_append_iff before).mp again)

theorem AtLast.describes_new (atLast : AtLast window threshold calls last found)
    (never : ∀ i, ¬ Reached window threshold calls found.signature i) :
    Describes window threshold (calls ++ [last]) found where
  first := ⟨calls.length, atLast.firstReached never, atLast.oldest⟩
  last := ⟨calls.length, lastReached_last atLast.reached, atLast.count, atLast.call⟩

theorem others (findings : Findings window threshold calls loops)
    (atLast : AtLast window threshold calls last found) {other : LoopFinding}
    (member : other ∈ loops) (apart : other.signature ≠ found.signature) :
    Describes window threshold (calls ++ [last]) other := by
  refine (findings.described other member).append fun again => apart ?_
  rw [← (reached_last_iff.mp again).1, (reached_last_iff.mp atLast.reached).1]

theorem complete_last (findings : Findings window threshold calls loops)
    (atLast : AtLast window threshold calls last found) {other : String} {i : Nat}
    (again : Reached window threshold (calls ++ [last]) other i) :
    other ∈ signatures (recordLoop found loops) := by
  rw [signatures_recordLoop]
  have bound := again.inside
  rw [List.length_append, List.length_singleton] at bound
  rcases Nat.lt_succ_iff_lt_or_eq.mp bound with inside | rfl
  · exact .inl (findings.complete other i ((reached_append_iff inside).mp again))
  · right
    rw [← (reached_last_iff.mp again).1, (reached_last_iff.mp atLast.reached).1]

theorem renew (findings : Findings window threshold calls loops)
    (atLast : AtLast window threshold calls last found)
    (known : found.signature ∈ signatures loops) :
    Findings window threshold (calls ++ [last]) (recordLoop found loops) := by
  have renewed : ∀ other : LoopFinding, (found.renewed other).signature = other.signature := by
    intro other
    unfold LoopFinding.renewed
    split <;> rfl
  refine ⟨fun _ _ => findings.complete_last atLast, ?_, ?_⟩
  · rw [recordLoop_known findings.once known]
    refine List.Pairwise.map _ (fun a b earlier => ?_) findings.ordered
    rw [Earlier, renewed, renewed]
    exact earlier.append
  · rw [recordLoop_known findings.once known]
    intro other member
    obtain ⟨old, held, rfl⟩ := List.mem_map.mp member
    by_cases same : old.signature = found.signature
    · exact atLast.describes_renewed (findings.described old held) same
    · rw [LoopFinding.renewed, if_neg same]
      exact findings.others atLast held same

theorem extend (findings : Findings window threshold calls loops)
    (atLast : AtLast window threshold calls last found)
    (fresh : found.signature ∉ signatures loops) :
    Findings window threshold (calls ++ [last]) (recordLoop found loops) := by
  have never : ∀ i, ¬ Reached window threshold calls found.signature i :=
    fun i again => fresh (findings.complete _ i again)
  refine ⟨fun _ _ => findings.complete_last atLast, ?_, ?_⟩
  · rw [recordLoop_new fresh]
    refine List.pairwise_append.mpr
      ⟨findings.ordered.imp Earlier.append, List.pairwise_singleton _ _, ?_⟩
    intro earlier member other new
    rw [List.mem_singleton.mp new]
    obtain ⟨i, reached, -⟩ := (findings.described earlier member).first
    exact ⟨i, calls.length, reached.append, atLast.firstReached never, reached.1.inside⟩
  · rw [recordLoop_new fresh]
    intro other member
    rcases List.mem_append.mp member with old | new
    · have apart : other.signature ≠ found.signature := fun same =>
        fresh (same ▸ List.mem_map_of_mem old)
      exact findings.others atLast old apart
    · rw [List.mem_singleton.mp new]
      exact atLast.describes_new never

end Last

theorem enough (findings : Findings window threshold calls loops) {found : LoopFinding}
    (own : found.signature = sig)
    (often : threshold ≤ ((calls ++ [(sig, seq)]).rtake window |>.filter (·.1 == sig)).length)
    (count : found.occurrences = ((calls ++ [(sig, seq)]).rtake window |>.filter (·.1 == sig)).length)
    (newest : found.lastSeq = seq)
    (oldest : ((calls ++ [(sig, seq)]).rtake window |>.filter (·.1 == sig)).head? =
      some (sig, found.firstSeq)) :
    Findings window threshold (calls ++ [(sig, seq)]) (recordLoop found loops) := by
  subst own
  have whole : occurrencesAt window (calls ++ [(found.signature, seq)]) found.signature calls.length =
      ((calls ++ [(found.signature, seq)]).rtake window).filter (·.1 == found.signature) := by
    rw [occurrencesAt, windowAt_last]
  have atLast : AtLast window threshold calls (found.signature, seq) found := by
    refine ⟨reached_last_iff.mpr ⟨rfl, often⟩, ?_, ?_, ?_⟩
    · rw [whole, count]
    · rw [newest]
      exact List.getElem?_concat_length
    · rw [whole, oldest]
  by_cases known : found.signature ∈ signatures loops
  · exact findings.renew atLast known
  · exact findings.extend atLast known

end Findings

section Scanning

variable {window threshold : Nat} {calls : List (String × Nat)} {scan : LoopScan}

theorem visit_call {e : AgentEvent F} {sig : String} (wide : 0 < window)
    (held : scan.recent = calls.rtake window) (called : e.callSignature = some sig) :
    (scan.visit window threshold e).recent = (calls ++ [(sig, e.seq)]).rtake window := by
  have pushed := push_rtake wide calls (sig, e.seq)
  rw [LoopScan.visit, called, held]
  simp only [pushed]
  split <;> rfl

/-- One round of the loop keeps the findings right. -/
theorem visit_findings (wide : 0 < window) (often : 0 < threshold) (e : AgentEvent F)
    (held : scan.recent = calls.rtake window)
    (findings : Findings window threshold calls scan.loops) :
    Findings window threshold
      (calls ++ (e.callSignature.map fun sig => (sig, e.seq)).toList)
      (scan.visit window threshold e).loops := by
  cases called : e.callSignature with
  | none => simpa [LoopScan.visit, called] using findings
  | some sig =>
    have pushed := push_rtake wide calls (sig, e.seq)
    rw [LoopScan.visit, called, held]
    simp only [pushed, Option.map_some, Option.toList_some]
    have newest : (((calls ++ [(sig, e.seq)]).rtake window).filter (·.1 == sig)).getLast? =
        some (sig, e.seq) := by
      obtain ⟨n, rfl⟩ := Nat.exists_eq_succ_of_ne_zero (Nat.ne_of_gt wide)
      rw [List.rtake_concat_succ, List.filter_append, List.filter_cons_of_pos (by simp),
        List.filter_nil, List.getLast?_concat]
    split
    · rename_i enough
      cases oldest : (((calls ++ [(sig, e.seq)]).rtake window).filter (·.1 == sig)).head? with
      | none =>
        rw [List.head?_eq_none_iff.mp oldest, List.length_nil] at enough
        omega
      | some call =>
        have own : call.1 = sig :=
          eq_of_beq (List.mem_filter.mp (List.mem_of_mem_head? oldest)).2
        refine findings.enough rfl enough rfl ?_ ?_
        · rw [newest]
          rfl
        · rw [oldest, Option.map_some, Option.getD_some, ← own]
    · rename_i few
      exact findings.few (Nat.not_le.mp few)

theorem foldl_findings (wide : 0 < window) (often : 0 < threshold) (events : List (AgentEvent F)) :
    (events.foldl (LoopScan.visit window threshold) ⟨[], []⟩).recent = (signed events).rtake window ∧
      Findings window threshold (signed events)
        (events.foldl (LoopScan.visit window threshold) ⟨[], []⟩).loops := by
  induction events using List.reverseRecOn with
  | nil =>
    refine ⟨by simp [signed], fun sig i reached => ?_, .nil, List.forall_mem_nil _⟩
    exact absurd reached.inside (Nat.not_lt_zero i)
  | append_singleton events e ih =>
    have more : signed (events ++ [e]) =
        signed events ++ (e.callSignature.map fun sig => (sig, e.seq)).toList := by
      cases called : e.callSignature <;> simp [signed, called]
    rw [List.foldl_concat, more]
    refine ⟨?_, visit_findings wide often e ih.1 ih.2⟩
    cases called : e.callSignature with
    | none => simpa [LoopScan.visit, called] using ih.1
    | some sig => exact visit_call wide ih.1 called

end Scanning

/-- The windows that repeat a signature are found, each signature once and in the order in which
    they were, with what is told of it. -/
structure FindsRepeats (window threshold : Nat) (calls : List (String × Nat))
    (loops : List LoopFinding) : Prop where
  reported : ∀ sig, sig ∈ signatures loops ↔
    ∃ i < calls.length, threshold ≤ (occurrencesAt window calls sig i).length
  once : (signatures loops).Nodup
  ordered : loops.Pairwise (Earlier window threshold calls)
  described : ∀ found ∈ loops, Describes window threshold calls found ∧ threshold ≤ found.occurrences

theorem detectLoops_finds (events : List (AgentEvent F)) (window threshold : Nat) (wide : 1 ≤ window)
    (often : 1 ≤ threshold) :
    FindsRepeats window threshold (signed events) (detectLoops events window threshold) := by
  have findings := (foldl_findings wide often events).2
  have on : detectLoops events window threshold =
      (events.foldl (LoopScan.visit window threshold) ⟨[], []⟩).loops := by
    rw [detectLoops, if_neg (by simp; omega)]
  have names : calls events = (signed events).map Prod.fst := by
    rw [calls, signed, List.map_filterMap]
    refine List.filterMap_congr fun e _ => ?_
    cases e.callSignature <;> rfl
  have counted : ∀ sig (stretch : List (String × Nat)),
      (stretch.filter (·.1 == sig)).length = (stretch.map Prod.fst).count sig := by
    intro sig stretch
    rw [List.count_eq_countP, List.countP_map, List.countP_eq_length_filter]
    rfl
  refine ⟨fun sig => ?_, on ▸ findings.once, on ▸ findings.ordered, fun found member => ?_⟩
  · constructor
    · intro known
      obtain ⟨found, member, rfl⟩ := List.mem_map.mp known
      obtain ⟨i, first, -⟩ := (findings.described found (on ▸ member)).first
      exact ⟨i, first.1.inside, first.1.often⟩
    · rintro ⟨i, -, enough⟩
      rw [mem_detectLoops_iff, names]
      rw [occurrencesAt, counted] at enough
      have front := List.take_prefix (i + 1) (signed events)
      refine ⟨often, _, ?_, ?_, enough⟩
      · exact ((List.drop_suffix _ _).isInfix.trans front.isInfix).map _
      · rw [List.length_map]
        exact rtake_length_le _ _
  · have describes := findings.described found (on ▸ member)
    obtain ⟨i, reached, count, -⟩ := describes.last
    exact ⟨describes, count ▸ reached.1.often⟩

/-- Two searches with a fetch between them, in a window of three. -/
theorem detectLoops_finds_searches :
    FindsRepeats 3 2 [("search", 0), ("fetch", 0), ("search", 0)]
      (detectLoops [callOf "a" "search", callOf "a" "fetch", callOf "b" "search"] 3 2) :=
  detectLoops_finds [callOf "a" "search", callOf "a" "fetch", callOf "b" "search"] 3 2 (by decide)
    (by decide)

end StatGuardian.Stream
