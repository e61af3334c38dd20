import StatGuardian.Core.GapAgreement
import StatGuardian.Runtime.ExtRat

namespace StatGuardian.Core.Lexing

open Grammar Peg Rendering

section Positions

/-- Two texts are read token by token up to the position, if the texts from the position on end a token
    where the text without the gap does. -/
theorem Lexes.ahead (cut : Cut) {s last l y : List Char} {depth d : Nat}
    (lexes : Lexes cut.v depth last d l s) (there : cut.Done depth last y (cut.w ++ cut.v))
    (ends : ∀ {t x}, Token t → Longest t (x ++ cut.v) → Longest t (x ++ y)) :
    ∃ x, s = x ++ cut.v ∧ cut.Ahead d l (x ++ y) (x ++ (cut.w ++ cut.v)) := by
  induction lexes with
  | here => exact ⟨[], rfl, .done there⟩
  | space c space rest ih =>
    obtain ⟨x, rfl, ahead⟩ := ih
    exact ⟨c :: x, rfl, .space c space ahead⟩
  | comment body line rest ih =>
    obtain ⟨x, rfl, ahead⟩ := ih
    exact ⟨"//".toList ++ (body ++ '\n' :: x), by simp, by simpa using Cut.Ahead.comment body line ahead⟩
  | token t token longest rest ih =>
    obtain ⟨x, rfl, ahead⟩ := ih
    refine ⟨t ++ x, (List.append_assoc ..).symm, ?_⟩
    rw [List.append_assoc, List.append_assoc]
    exact .token t token (ends token longest) (longest.cut token (cut.gap.blank cut.v)) ahead

theorem longest_plainSign {k : String} (plain : k ∈ Cut.plainSigns) (s : List Char) : Longest k.toList s := by
  obtain ⟨member, alone, _⟩ := Cut.plainSigns_alone k plain
  intro other token starts
  by_contra longer
  have inside := prefix_of_longer (List.prefix_append k.toList s) starts (by omega)
  cases chars : k.toList with
  | nil => exact signs_some k member chars
  | cons c rest =>
    have solid := (signs_plain k member c (by rw [chars]; exact List.mem_cons_self)).2.2
    have head : other.head? = some c := by
      obtain ⟨more, rfl⟩ := inside
      rw [chars]
      rfl
    obtain ⟨text, isSign, rfl⟩ := sign_of_head token head solid.1 solid.2.1 solid.2.2
    exact longer (by rw [alone text isSign inside])

variable {v last s l : List Char} {depth d : Nat}

theorem Lexes.keyword (k : String) (keyword : Cut.isKeyword k = true) (ends : NoWord s)
    (rest : Lexes v depth last d k.toList s) : Lexes v depth last d l (k.toList ++ s) := by
  obtain ⟨name, same⟩ := Cut.name_of_keyword keyword
  rw [same] at rest ⊢
  refine .token name.text (.word name) (longest_word name ends) ?_
  rw [Cut.nest_word]
  exact rest

theorem Lexes.plainSign (k : String) (plain : k ∈ Cut.plainSigns)
    (rest : Lexes v depth last (nest d k.toList) k.toList s) : Lexes v depth last d l (k.toList ++ s) :=
  .token k.toList (.sign k (Cut.plainSigns_alone k plain).1) (longest_plainSign plain s) rest

end Positions

section Parsing

variable {F : Type} [Float64 F] {u v w : String} {depth : Nat} {last : List Char}

theorem parse_of_small {input : String} (small : input.utf8ByteSize ≤ Parser.maxInputSize) :
    Parser.parse (F := F) input =
      match contract input.toList with
      | none => .error (.error (.parse none))
      | some (pairs, _) => (Parser.datasets pairs).mapM Parser.parseDataset := by
  rw [Parser.parse, if_neg (Nat.not_lt.mpr small), Parser.contractPairs]
  cases contract input.toList <;> rfl

/-- Between tokens that no literal joins, a gap changes nothing. -/
theorem parse_moved (position : Lexes v.toList depth last 0 [] (u ++ v).toList) (gap : Gap w.toList)
    (free : ¬ Glued depth last v.toList) (small : (u ++ v).utf8ByteSize ≤ Parser.maxInputSize)
    (small' : (u ++ w ++ v).utf8ByteSize ≤ Parser.maxInputSize) :
    Parser.parse (F := F) (u ++ w ++ v) = Parser.parse (u ++ v) := by
  let cut : Cut := ⟨v.toList, w.toList, gap, true⟩
  obtain ⟨x, same, ahead⟩ := position.ahead cut (.moved rfl free) fun _ longest => longest
  have start : cut.start 0 (u ++ v).toList (u ++ w ++ v).toList := by
    rw [String.toList_append, List.append_cancel_right_eq] at same
    refine ⟨[], .inl ?_⟩
    rw [String.toList_append, String.toList_append, String.toList_append, List.append_assoc, same]
    exact ahead
  rw [parse_of_small small, parse_of_small small']
  rcases Cut.contract_agrees (F := F) start with ⟨refused, refused'⟩ | ⟨pairs, pairs', rest, rest', found,
    found', _, alike⟩
  · rw [refused, refused']
  · rw [found, found']
    exact alike.symm

/-- A gap in a literal of the grammar makes the text one that the grammar refuses. -/
theorem parse_stuck (position : Lexes v.toList depth last 0 [] (u ++ v).toList) (gap : Gap w.toList)
    (glued : Glued depth last v.toList) (small : (u ++ w ++ v).utf8ByteSize ≤ Parser.maxInputSize) :
    Parser.parse (F := F) (u ++ w ++ v) = .error (.error (.parse none)) := by
  let cut : Cut := ⟨v.toList, w.toList, gap, false⟩
  obtain ⟨x, same, ahead⟩ := position.ahead cut (.stuck rfl glued) fun token longest =>
    longest.cut token (gap.blank v.toList)
  have start : cut.start 0 (u ++ w ++ v).toList (u ++ w ++ v).toList := by
    rw [String.toList_append, List.append_cancel_right_eq] at same
    refine ⟨[], .inl ?_⟩
    rw [String.toList_append, String.toList_append, List.append_assoc, same]
    exact ahead
  rw [parse_of_small small]
  rcases Cut.contract_agrees (F := F) start with ⟨refused, _⟩ | ⟨_, _, _, _, _, _, isMoved, _⟩
  · rw [refused]
  · cases isMoved

/-- A gap between two tokens of an accepted text leaves its contracts as they are, unless the grammar
    has both tokens in one literal or the text becomes too large. -/
theorem gap_ignored_iff (position : Lexes v.toList depth last 0 [] (u ++ v).toList) (gap : Gap w.toList)
    {contracts : List (DataContract F)} (accepted : Parser.parse (u ++ v) = .ok contracts) :
    Parser.parse (u ++ w ++ v) = .ok contracts ↔
      (u ++ w ++ v).utf8ByteSize ≤ Parser.maxInputSize ∧ ¬ Glued depth last v.toList := by
  have small : (u ++ v).utf8ByteSize ≤ Parser.maxInputSize := by
    by_contra large
    rw [Parser.parse, if_pos (Nat.not_le.mp large)] at accepted
    cases accepted
  constructor
  · intro returns
    have small' : (u ++ w ++ v).utf8ByteSize ≤ Parser.maxInputSize := by
      by_contra large
      rw [Parser.parse, if_pos (Nat.not_le.mp large)] at returns
      cases returns
    refine ⟨small', fun glued => ?_⟩
    rw [parse_stuck position gap glued small'] at returns
    cases returns
  · rintro ⟨small', free⟩
    rw [parse_moved position gap free small small']
    exact accepted

theorem noWord_cons {c : Char} (s : List Char) (plain : isWordChar c = false) : NoWord (c :: s) := by
  intro e head
  obtain rfl : c = e := Option.some.inj head
  exact plain

/-- A newline between a name and a bracket. -/
theorem gap_ignored_iff_newline :
    Parser.parse (F := ExtRat) ("dataset d" ++ "\n" ++ "\x7b\x7d") = .ok [DataContract.new "d"] ↔
      ("dataset d" ++ "\n" ++ "\x7b\x7d").utf8ByteSize ≤ Parser.maxInputSize ∧
        ¬ Glued 0 "d".toList "\x7b\x7d".toList := by
  have position : Lexes "\x7b\x7d".toList 0 "d".toList 0 []
      ("dataset".toList ++ ' ' :: ("d".toList ++ "\x7b\x7d".toList)) :=
    .keyword "dataset" rfl (noWord_cons _ rfl) (.space ' ' rfl
      (.keyword "d" rfl (noWord_cons _ rfl) .here))
  exact gap_ignored_iff (u := "dataset d") (v := "\x7b\x7d") (w := "\n") position (.space '\n' rfl)
    (by decide +kernel)

def settingStart : String := "dataset d \x7b stream \x7b window"

def settingEnd : String := "=\"5m\" \x7d \x7d"

/-- A space before the equals sign of a stream option, as the documentation has it. -/
theorem spaced_setting_refused :
    Lexes settingEnd.toList 0 "window".toList 0 [] (settingStart ++ settingEnd).toList ∧ Gap " ".toList ∧
      Parser.parse (F := ExtRat) (settingStart ++ settingEnd) =
        .ok [{ DataContract.new "d" with streamConfig := some ⟨some "5m", none, none⟩ }] ∧
      Parser.parse (F := ExtRat) (settingStart ++ " " ++ settingEnd) = .error (.error (.parse none)) := by
  have position : Lexes settingEnd.toList 0 "window".toList 0 []
      ("dataset".toList ++ ' ' :: ("d".toList ++ ' ' :: ("\x7b".toList ++ ' ' :: ("stream".toList ++ ' ' ::
        ("\x7b".toList ++ ' ' :: ("window".toList ++ settingEnd.toList)))))) :=
    .keyword "dataset" rfl (noWord_cons _ rfl) (.space ' ' rfl
      (.keyword "d" rfl (noWord_cons _ rfl) (.space ' ' rfl
        (.plainSign "\x7b" (by decide) (.space ' ' rfl
          (.keyword "stream" rfl (noWord_cons _ rfl) (.space ' ' rfl
            (.plainSign "\x7b" (by decide) (.space ' ' rfl
              (.keyword "window" rfl (noWord_cons _ rfl) .here))))))))))
  exact ⟨position, .space ' ' rfl, by decide +kernel, by decide +kernel⟩

end Parsing

end StatGuardian.Core.Lexing
