import StatGuardian.Stream.Reference

namespace StatGuardian.Stream.NdjsonSource

def linesOf (input : List UInt8) : List (List UInt8) := Pieces.splitAfter (· == newline) input

def isTerminated (line : List UInt8) : Bool := line.getLast? == some newline

def contentOf (line : List UInt8) : List UInt8 := if isTerminated line then line.dropLast else line

/-- Some call returns the line that ends there, flagged as exceeded. -/
def Flags (src : NdjsonSource) (finish : Nat) : Prop :=
  ∃ calls readings, src.readings calls = .ok readings ∧ ∃ reading ∈ readings,
    reading.bytesConsumed = finish ∧ ∃ line, reading.line = some line ∧ line.exceeded = true

def CapsContent (cap : Nat) (input : List UInt8) (src : NdjsonSource) : Prop :=
  ∀ before line after, linesOf input = before ++ line :: after →
    (src.Flags (before ++ [line]).flatten.length ↔ cap < (contentOf line).length)

def acceptedRecord (line : RawLine) : Option (Nat × String) :=
  if line.exceeded || !line.utf8 then none else some (line.record, line.content)

def accepted (readings : List Reading) : List (Nat × String) :=
  readings.filterMap fun reading => reading.line.bind acceptedRecord

/-- However many calls are made, both sources hand out the same records for parsing. -/
def SameAccepted (src other : NdjsonSource) : Prop :=
  ∀ calls, (src.readings calls).map accepted = (other.readings calls).map accepted

/-- A line of exactly the cap is the last one, without a newline, and nothing that is accepted. -/
def ClearOfCap (cap : Nat) (input : List UInt8) : Prop :=
  ∀ line ∈ linesOf input, (contentOf line).length = cap →
    isTerminated line = false ∧ (Text.fromUtf8 line = none ∨ isBlank line = true)

section Flagging

theorem lineOf_exceeded (cap record : Nat) (piece : List UInt8) :
    (lineOf cap record piece).exceeded = decide (cap < piece.length) := by
  unfold lineOf
  split
  · rename_i beyond
    exact (decide_eq_true beyond).symm
  · rename_i within
    split <;> exact (decide_eq_false within).symm

theorem exists_cut_cons {α : Type} (P : List α → α → Prop) (first : α) (rest : List α) :
    (∃ before piece after, first :: rest = before ++ piece :: after ∧ P before piece) ↔
      P [] first ∨ ∃ before piece after, rest = before ++ piece :: after ∧ P (first :: before) piece := by
  constructor
  · rintro ⟨before, piece, after, cut, holds⟩
    cases before with
    | nil =>
      obtain ⟨rfl, -⟩ := List.cons.inj cut
      exact .inl holds
    | cons head before =>
      obtain ⟨rfl, later⟩ := List.cons.inj cut
      exact .inr ⟨before, piece, after, later, holds⟩
  · rintro (holds | ⟨before, piece, after, cut, holds⟩)
    · exact ⟨[], first, rest, rfl, holds⟩
    · exact ⟨first :: before, piece, after, by rw [cut, List.cons_append], holds⟩

theorem exceeded_mem_iff (cap : Nat) (pieces : List (List UInt8)) (records bytes finish : Nat) :
    (∃ reading ∈ specReadings cap pieces records bytes, reading.bytesConsumed = finish ∧
        ∃ line, reading.line = some line ∧ line.exceeded = true) ↔
      ∃ before piece after, pieces = before ++ piece :: after ∧ cap < piece.length ∧
        finish = bytes + (before ++ [piece]).flatten.length := by
  induction pieces generalizing records bytes with
  | nil =>
    constructor
    · rintro ⟨_, member, -⟩
      cases member
    · rintro ⟨before, piece, after, cut, -⟩
      exact absurd cut.symm (List.append_ne_nil_of_right_ne_nil _ (List.cons_ne_nil _ _))
  | cons piece pieces ih =>
    have sums : ∀ (before : List (List UInt8)) (last : List UInt8),
        bytes + (piece :: before ++ [last]).flatten.length =
          bytes + piece.length + (before ++ [last]).flatten.length := by
      intro before last
      rw [List.cons_append, List.flatten_cons, List.length_append, Nat.add_assoc]
    have cuts := exists_cut_cons (fun before last => cap < last.length ∧
      finish = bytes + (before ++ [last]).flatten.length) piece pieces
    simp only [sums, List.nil_append, List.flatten_singleton] at cuts
    rw [cuts]
    cases out : handedOut cap piece with
    | false =>
      have within : ¬ cap < piece.length := of_decide_eq_false (Bool.or_eq_false_iff.mp out).1
      have silent := specReadings_silent cap [piece] pieces records bytes (by simpa using out)
      rw [List.singleton_append, List.flatten_singleton] at silent
      rw [silent, ih]
      exact ⟨.inr, fun found => found.resolve_left fun here => within here.1⟩
    | true =>
      rw [specReadings_line _ _ _ _ _ out, List.exists_mem_cons_iff, ih]
      refine or_congr ?_ Iff.rfl
      simp only [Option.some.injEq, exists_eq_left', lineOf_exceeded, decide_eq_true_eq]
      exact ⟨fun ⟨here, beyond⟩ => ⟨beyond, here.symm⟩, fun ⟨beyond, here⟩ => ⟨here.symm, beyond⟩⟩

variable {cap : Nat} {input : List UInt8} {reader : Reader}

theorem flags_iff (some : 1 ≤ cap) (delivers : reader.Delivers input) (finish : Nat) :
    (new reader cap).Flags finish ↔ ∃ before piece after,
      linesOf input = before ++ piece :: after ∧ cap < piece.length ∧
        finish = (before ++ [piece]).flatten.length := by
  have listed := exceeded_mem_iff cap (linesOf input) 0 0 finish
  simp only [Nat.zero_add] at listed
  rw [← listed, Flags]
  have reads : ∀ calls, (new reader cap).readings calls =
      .ok ((List.range calls).map (reference cap input)) := by
    intro calls
    have whole := (readings_eq_reference input reader delivers cap calls).1
    rwa [Nat.max_eq_left some] at whole
  constructor
  · rintro ⟨calls, readings, ran, reading, member, consumed, line, here, beyond⟩
    rw [reads] at ran
    obtain rfl := Except.ok.inj ran
    obtain ⟨call, -, rfl⟩ := List.mem_map.mp member
    cases found : (specReadings cap (linesOf input) 0 0)[call]? with
    | none =>
      rw [reference, ← linesOf, found] at here
      cases here
    | some reading =>
      have same : reference cap input call = reading := by rw [reference, ← linesOf, found]; rfl
      rw [same] at consumed here
      exact ⟨reading, List.mem_of_getElem? found, consumed, line, here, beyond⟩
  · rintro ⟨reading, member, consumed, line, here, beyond⟩
    obtain ⟨call, found⟩ := List.mem_iff_getElem?.mp member
    have same : reference cap input call = reading := by rw [reference, ← linesOf, found]; rfl
    refine ⟨call + 1, _, reads _, reading, ?_, consumed, line, here, beyond⟩
    exact List.mem_map.mpr ⟨call, List.mem_range.mpr (Nat.lt_succ_self call), same⟩

/-- The code counts the newline of a line as well. -/
theorem flags_line (some : 1 ≤ cap) (delivers : reader.Delivers input) {before after : List (List UInt8)}
    {line : List UInt8} (cut : linesOf input = before ++ line :: after) :
    (new reader cap).Flags (before ++ [line]).flatten.length ↔ cap < line.length := by
  rw [flags_iff some delivers]
  constructor
  · rintro ⟨before', line', after', cut', beyond, finish⟩
    have filled : ∀ piece ∈ (before ++ [line]) ++ after, piece ≠ [] := by
      intro piece member
      rw [List.append_assoc, List.singleton_append, ← cut] at member
      exact Pieces.ne_nil_of_mem_splitAfter _ member
    have joined : (before ++ [line]) ++ after = (before' ++ [line']) ++ after' := by
      rw [List.append_assoc, List.append_assoc, List.singleton_append, List.singleton_append, ← cut,
        cut']
    have same := Pieces.eq_of_flatten_length filled joined finish
    obtain ⟨-, last⟩ := List.append_inj' same rfl
    rwa [List.singleton_inj.mp last]
  · intro beyond
    exact ⟨before, line, after, cut, beyond, rfl⟩

theorem contentOf_length {line : List UInt8} (filled : line ≠ []) :
    line.length = (contentOf line).length + (if isTerminated line then 1 else 0) := by
  unfold contentOf
  split
  · have positive : 0 < line.length := List.length_pos_iff.mpr filled
    rw [List.length_dropLast, Nat.sub_add_cancel positive]
  · rfl

theorem capsContent_iff (some : 1 ≤ cap) (delivers : reader.Delivers input) :
    CapsContent cap input (new reader cap) ↔
      ∀ line ∈ linesOf input, (contentOf line).length = cap → isTerminated line = false := by
  constructor
  · intro caps line member full
    obtain ⟨before, after, cut⟩ := List.append_of_mem member
    have flagged := (flags_line some delivers cut).symm.trans (caps before line after cut)
    have length := contentOf_length (Pieces.ne_nil_of_mem_splitAfter _ member)
    cases ended : isTerminated line with
    | false => rfl
    | true =>
      rw [ended, if_pos rfl, full] at length
      rw [length, full] at flagged
      exact absurd (flagged.mp (Nat.lt_succ_self cap)) (Nat.lt_irrefl cap)
  · intro clear before line after cut
    have member : line ∈ linesOf input := cut ▸ List.mem_append_right _ List.mem_cons_self
    have length := contentOf_length (Pieces.ne_nil_of_mem_splitAfter _ member)
    rw [flags_line some delivers cut]
    cases ended : isTerminated line with
    | false =>
      rw [ended, if_neg Bool.false_ne_true, Nat.add_zero] at length
      rw [length]
    | true =>
      rw [ended, if_pos rfl] at length
      have other : (contentOf line).length ≠ cap := by
        intro full
        exact absurd ((clear line member full).symm.trans ended) Bool.false_ne_true
      omega

end Flagging

section Accepting

def acceptedPiece (cap : Nat) (piece : List UInt8) : Option String :=
  if cap < piece.length then none
  else
    (Text.fromUtf8 piece).bind fun s =>
      if s.toList.all Text.isWhitespace then none else some (Text.trimEndMatches isLineEnd s)

theorem acceptedPiece_eq_none_iff (piece : List UInt8) (cap : Nat) (fits : piece.length ≤ cap) :
    acceptedPiece cap piece = none ↔ Text.fromUtf8 piece = none ∨ isBlank piece = true := by
  rw [acceptedPiece, if_neg (Nat.not_lt.mpr fits), isBlank]
  cases Text.fromUtf8 piece with
  | none => simp
  | some s =>
    simp only [Option.bind_some, reduceCtorEq, false_or, trim_trimEnd_isEmpty]
    cases s.toList.all Text.isWhitespace with
    | true => exact iff_of_true rfl rfl
    | false => exact iff_of_false (Option.some_ne_none _) Bool.false_ne_true

theorem accepted_one (cap : Nat) (piece : List UInt8) (records bytes : Nat) :
    accepted (specReadings cap [piece] records bytes) =
      ((acceptedPiece cap piece).map fun content => (records, content)).toList := by
  rw [specReadings, specLine, acceptedPiece]
  by_cases beyond : cap < piece.length
  · rw [if_pos beyond, if_pos beyond]
    rfl
  · rw [if_neg beyond, if_neg beyond]
    cases Text.fromUtf8 piece with
    | none => rfl
    | some s =>
      simp only [Option.bind_some]
      cases s.toList.all Text.isWhitespace <;> rfl

theorem acceptedPiece_append_newline (cap : Nat) (piece : List UInt8) :
    acceptedPiece cap (piece ++ [newline]) =
      if piece.length = cap then none else acceptedPiece cap piece := by
  have blank : ∀ s : String,
      (s ++ "\n").toList.all Text.isWhitespace = s.toList.all Text.isWhitespace := by
    intro s
    have space : Text.isWhitespace '\n' = true := rfl
    rw [String.toList_append, List.all_append]
    simp [space]
  have trimmed : ∀ s : String,
      Text.trimEndMatches isLineEnd (s ++ "\n") = Text.trimEndMatches isLineEnd s := by
    intro s
    have line : isLineEnd '\n' = true := rfl
    rw [Text.trimEndMatches, String.toList_append, List.reverse_append]
    simp [line, Text.trimEndMatches]
  unfold acceptedPiece
  rw [List.length_append, List.length_singleton, newline, Text.fromUtf8_append_newline,
    Option.bind_map]
  by_cases beyond : cap < piece.length
  · rw [if_pos (Nat.lt_succ_of_lt beyond), if_pos beyond, ite_self]
  · by_cases full : piece.length = cap
    · rw [if_pos full, full, if_pos (Nat.lt_succ_self cap)]
    · rw [if_neg full, if_neg beyond, if_neg (by omega)]
      simp only [Function.comp_def, blank, trimmed]

theorem specReadings_append (cap : Nat) (front back : List (List UInt8)) (records bytes : Nat) :
    specReadings cap (front ++ back) records bytes = specReadings cap front records bytes ++
      specReadings cap back (records + (specReadings cap front records bytes).length)
        (bytes + front.flatten.length) := by
  induction front generalizing records bytes with
  | nil => rfl
  | cons piece front ih =>
    rw [List.cons_append, specReadings, specReadings, List.flatten_cons, List.length_append,
      ← Nat.add_assoc]
    cases specLine cap piece with
    | none => exact ih _ _
    | some line =>
      simp only [ih, List.cons_append, List.length_cons, Nat.add_assoc, Nat.add_comm 1]

theorem specReadings_one_length (cap : Nat) (piece : List UInt8) (records bytes : Nat) :
    (specReadings cap [piece] records bytes).length ≤ 1 := by
  rw [specReadings]
  split
  · exact Nat.zero_le 1
  · exact Nat.le_refl 1

theorem accepted_reference (cap : Nat) (input : List UInt8) (calls : Nat) :
    accepted ((List.range calls).map (reference cap input)) =
      accepted ((specReadings cap (linesOf input) 0 0).take calls) := by
  induction calls with
  | zero => rfl
  | succ calls ih =>
    have one : accepted [reference cap input calls] =
        accepted ((specReadings cap (linesOf input) 0 0)[calls]?).toList := by
      rw [reference, ← linesOf]
      cases (specReadings cap (linesOf input) 0 0)[calls]? with
      | none => rfl
      | some reading => rfl
    rw [List.range_succ, List.map_append, List.take_add_one, accepted, List.filterMap_append,
      ← accepted, ih, List.map_singleton, ← accepted, one, accepted, accepted, accepted,
      List.filterMap_append]

theorem accepted_readings {cap : Nat} {input : List UInt8} {reader : Reader} (some : 1 ≤ cap)
    (delivers : reader.Delivers input) (calls : Nat) :
    ((new reader cap).readings calls).map accepted =
      .ok (accepted ((specReadings cap (linesOf input) 0 0).take calls)) := by
  rw [(readings_eq_reference input reader delivers cap calls).1, Nat.max_eq_left some, Except.map,
    accepted_reference]

/-- Lists that go on from one list with at most one more item give the same at every length
    exactly when the items do. -/
theorem accepted_take_iff (front back back' : List Reading) (one : back.length ≤ 1)
    (one' : back'.length ≤ 1) :
    (∀ calls, accepted ((front ++ back).take calls) = accepted ((front ++ back').take calls)) ↔
      accepted back = accepted back' := by
  have cut : ∀ calls (back : List Reading), accepted ((front ++ back).take calls) =
      accepted (front.take calls) ++ accepted (back.take (calls - front.length)) := by
    intro calls back
    rw [List.take_append, accepted, List.filterMap_append]
    rfl
  simp only [cut, List.append_cancel_left_eq]
  constructor
  · intro same
    have all := same (front.length + 1)
    rwa [Nat.add_sub_cancel_left, List.take_of_length_le one, List.take_of_length_le one'] at all
  · intro same calls
    cases calls - front.length with
    | zero => rfl
    | succ more =>
      have some : 1 ≤ more + 1 := Nat.le_add_left 1 more
      rw [List.take_of_length_le (Nat.le_trans one some),
        List.take_of_length_le (Nat.le_trans one' some), same]

end Accepting

section Main

variable {cap : Nat} {input : List UInt8} {reader reader' : Reader}

section Cutting

variable {pieces : List (List UInt8)} {tail : List UInt8}

theorem isTerminated_whole {piece : List UInt8} (whole : Pieces.IsWhole (· == newline) piece) :
    isTerminated piece = true := by
  obtain ⟨body, last, rfl, final, -⟩ := whole
  obtain rfl : last = newline := eq_of_beq final
  simp [isTerminated]

theorem isTerminated_inner (inner : ∀ byte ∈ tail, (byte == newline) = false) :
    isTerminated tail = false := by
  cases last : isTerminated tail with
  | false => rfl
  | true =>
    have member := List.mem_of_getLast? (eq_of_beq last)
    exact absurd (inner newline member) (by simp)

theorem linesOf_append_newline (each : ∀ piece ∈ pieces, Pieces.IsWhole (· == newline) piece)
    (inner : ∀ byte ∈ tail, (byte == newline) = false) :
    linesOf (pieces.flatten ++ tail ++ [newline]) = pieces ++ [tail ++ [newline]] := by
  have final : Pieces.IsWhole (· == newline) (tail ++ [newline]) := ⟨tail, newline, rfl, rfl, inner⟩
  have cut := Pieces.splitAfter_flatten_append (· == newline) pieces each (tail ++ [newline])
  have last := Pieces.splitAfter_flatten (· == newline) [tail ++ [newline]] (by simpa using final)
  rw [List.flatten_singleton] at last
  rw [linesOf, List.append_assoc, cut, last]

/-- Both readings agree on the lines before the last one: only what is accepted of it counts. -/
theorem sameAccepted_iff_last (some : 1 ≤ cap)
    (each : ∀ piece ∈ pieces, Pieces.IsWhole (· == newline) piece)
    (inner : ∀ byte ∈ tail, (byte == newline) = false) (delivers : reader.Delivers (pieces.flatten ++ tail))
    (delivers' : reader'.Delivers (pieces.flatten ++ tail ++ [newline])) :
    SameAccepted (new reader cap) (new reader' cap) ↔
      accepted (specReadings cap (Pieces.splitAfter (· == newline) tail)
          (specReadings cap pieces 0 0).length pieces.flatten.length) =
        ((if tail.length = cap then none else acceptedPiece cap tail).map
          fun content => ((specReadings cap pieces 0 0).length, content)).toList := by
  have lines : linesOf (pieces.flatten ++ tail) = pieces ++ Pieces.splitAfter (· == newline) tail :=
    Pieces.splitAfter_flatten_append _ pieces each tail
  rw [← acceptedPiece_append_newline, ← accepted_one cap _ _ pieces.flatten.length,
    ← accepted_take_iff (specReadings cap pieces 0 0)]
  · simp only [SameAccepted, accepted_readings some delivers, accepted_readings some delivers',
      lines, linesOf_append_newline each inner, specReadings_append, Nat.zero_add, Except.ok.injEq]
  · by_cases empty : tail = []
    · rw [empty]
      exact Nat.zero_le 1
    · rw [Pieces.splitAfter_tail _ inner empty]
      exact specReadings_one_length ..
  · exact specReadings_one_length ..

end Cutting

theorem sameAccepted_iff (some : 1 ≤ cap) (delivers : reader.Delivers input)
    (delivers' : reader'.Delivers (input ++ [newline])) :
    SameAccepted (new reader cap) (new reader' cap) ↔
      ∀ line ∈ linesOf input, isTerminated line = false → line.length = cap →
        Text.fromUtf8 line = none ∨ isBlank line = true := by
  obtain ⟨pieces, tail, rfl, each, inner⟩ := Pieces.exists_whole (· == newline) input
  have lines : linesOf (pieces.flatten ++ tail) = pieces ++ Pieces.splitAfter (· == newline) tail :=
    Pieces.splitAfter_flatten_append _ pieces each tail
  have ended : ∀ piece ∈ pieces, isTerminated piece = true := fun piece member =>
    isTerminated_whole (each piece member)
  rw [sameAccepted_iff_last some each inner delivers delivers', lines]
  by_cases empty : tail = []
  · subst empty
    have short : ¬ 0 = cap := Nat.ne_of_lt some
    rw [List.length_nil, if_neg short, Pieces.splitAfter, List.append_nil]
    refine iff_of_true ?_ fun line member open_ => ?_
    · rw [(acceptedPiece_eq_none_iff [] cap (Nat.zero_le cap)).mpr (.inr rfl)]
      rfl
    · exact absurd ((ended line member).symm.trans open_) Bool.false_ne_true.symm
  · rw [Pieces.splitAfter_tail _ inner empty, accepted_one]
    constructor
    · intro same line member open_ full
      rcases List.mem_append.mp member with earlier | last
      · exact absurd ((ended line earlier).symm.trans open_) Bool.false_ne_true.symm
      · obtain rfl := List.mem_singleton.mp last
        rw [if_pos full, Option.map_none, Option.toList_none, Option.toList_eq_nil_iff,
          Option.map_eq_none_iff] at same
        exact (acceptedPiece_eq_none_iff line cap (Nat.le_of_eq full)).mp same
    · intro clear
      by_cases full : tail.length = cap
      · have last := clear tail (List.mem_append_right _ List.mem_cons_self) (isTerminated_inner inner) full
        rw [if_pos full, (acceptedPiece_eq_none_iff tail cap (Nat.le_of_eq full)).mpr last]
      · rw [if_neg full]

/-- Lines are capped by their content and a last newline goes unnoticed exactly when a line of
    exactly the cap is a last one without a newline that is not accepted anyway. -/
theorem cap_before_newline_iff (cap : Nat) (some : 1 ≤ cap) (input : List UInt8)
    (reader reader' : Reader) (delivers : reader.Delivers input)
    (delivers' : reader'.Delivers (input ++ [newline])) :
    (CapsContent cap input (new reader cap) ∧ SameAccepted (new reader cap) (new reader' cap)) ↔
      ClearOfCap cap input := by
  rw [capsContent_iff some delivers, sameAccepted_iff some delivers delivers']
  have whole : ∀ line, isTerminated line = false → contentOf line = line := by
    intro line open_
    rw [contentOf, open_, if_neg Bool.false_ne_true]
  constructor
  · rintro ⟨terminated, last⟩ line member full
    have open_ := terminated line member full
    exact ⟨open_, last line member open_ (whole line open_ ▸ full)⟩
  · intro clear
    refine ⟨fun line member full => (clear line member full).1, ?_⟩
    intro line member open_ full
    exact (clear line member (by rwa [whole line open_])).2

/-- The line `ab` fits a cap of three bytes, with a newline and without. -/
theorem cap_before_newline_iff_two_bytes :
    CapsContent 3 [97, 98] (new [.chunk [97, 98]] 3) ∧
      SameAccepted (new [.chunk [97, 98]] 3) (new [.chunk [97, 98, 10]] 3) :=
  (cap_before_newline_iff 3 (by decide) [97, 98] [.chunk [97, 98]] [.chunk [97, 98, 10]]
    (.chunk [97, 98] (by decide) .done) (.chunk [97, 98, 10] (by decide) .done)).mpr (by
      intro line member full
      rw [List.mem_singleton.mp member] at full
      cases full)

/-- The line `ab` has as many bytes as the cap: it is flagged with its newline, and accepted only
    without. -/
theorem full_line_flagged :
    ¬ CapsContent 2 [97, 98, 10] (new [.chunk [97, 98, 10]] 2) ∧
      ¬ SameAccepted (new [.chunk [97, 98]] 2) (new [.chunk [97, 98, 10]] 2) := by
  have open_ : Reader.Delivers [.chunk [97, 98]] [97, 98] := .chunk [97, 98] (by decide) .done
  have ended : Reader.Delivers [.chunk [97, 98, 10]] [97, 98, 10] :=
    .chunk [97, 98, 10] (by decide) .done
  constructor
  · rw [capsContent_iff (by decide) ended]
    intro clear
    exact absurd (clear [97, 98, 10] List.mem_cons_self rfl) (by decide)
  · rw [sameAccepted_iff (by decide) open_ ended]
    intro clear
    have last := clear [97, 98] List.mem_cons_self rfl rfl
    exact absurd last (by decide)

end Main

end StatGuardian.Stream.NdjsonSource
