import StatGuardian.Core.Optimizer
import StatGuardian.Runtime.DebugText

namespace StatGuardian.Core

open TextCodes

def Severity.debug : Severity → String
  | .info => "Info"
  | .warning => "Warning"
  | .error => "Error"
  | .blocking => "Blocking"

def MetricFn.debug : MetricFn → String
  | .completeness => "Completeness"
  | .uniqueness => "Uniqueness"
  | .validity => "Validity"
  | .consistency => "Consistency"
  | .freshness => "Freshness"
  | .nonNullRate => "NonNullRate"

def ComparisonOp.debug : ComparisonOp → String
  | .gt => "Gt"
  | .lt => "Lt"
  | .gte => "Gte"
  | .lte => "Lte"
  | .eq => "Eq"
  | .neq => "Neq"

def StatFn.debug : StatFn → String
  | .mean => "Mean"
  | .std => "Std"
  | .median => "Median"
  | .min => "Min"
  | .max => "Max"
  | .p05 => "P05"
  | .p95 => "P95"
  | .p99 => "P99"
  | .p999 => "P999"

/-- What the standard library prints by its own rules: the characters that need no escape, and
    floats. -/
structure Printer (F : Type) where
  printable : Char → Bool
  float : F → List Char

def isEnd (c : Char) : Bool := c == ',' || c == ' '

/-- Floats that differ have different texts, of digits, signs and letters. -/
structure Printer.Lawful {F : Type} (printer : Printer F) : Prop where
  injective : Function.Injective printer.float
  plain : ∀ x, ∀ c ∈ printer.float x, isEnd c = false

inductive FieldValue (F : Type) where
  | text (s : String)
  | texts (items : List String)
  | flag (b : Bool)
  | size (n : Nat)
  | bound (x : Option F)
  | float (x : F)
  | severity (s : Severity)
  | metric (m : MetricFn)
  | op (o : ComparisonOp)
  | stat (s : StatFn)

namespace FieldValue

variable {F : Type}

def debug (printer : Printer F) : FieldValue F → List Char
  | text s => DebugText.str printer.printable s
  | texts items => DebugText.list (DebugText.str printer.printable) items
  | flag b => (toString b).toList
  | size n => (toString n).toList
  | bound x => DebugText.option printer.float x
  | float x => printer.float x
  | severity s => s.debug.toList
  | metric m => m.debug.toList
  | op o => o.debug.toList
  | stat s => s.debug.toList

section Reading

def Ends (c : Char) : Prop := isEnd c = true

theorem name_readable {α : Type} {name : α → String} (injective : Function.Injective name)
    (plain : ∀ x, (name x).toList.all (fun c => ! isEnd c) = true) :
    Readable Ends (fun x => (name x).toList) := by
  refine readable_of_words (fun x y same => injective (String.toList_injective same))
    fun x c member ended => ?_
  have clear := List.all_eq_true.mp (plain x) c member
  rw [show isEnd c = true from ended] at clear
  cases clear

theorem isEnd_of_isDigit {c : Char} (digit : c.isDigit = true) : isEnd c = false := by
  rw [isEnd, Bool.or_eq_false_iff, beq_eq_false_iff_ne, beq_eq_false_iff_ne]
  constructor
  · rintro rfl
    cases digit
  · rintro rfl
    cases digit

theorem size_readable : Readable Ends (fun n : Nat => (toString n).toList) := by
  refine name_readable (fun n m same => ?_) fun n => List.all_eq_true.mpr fun c member => ?_
  · have values := congrArg (fun s : String => Nat.ofDigitChars 10 s.toList 0) same
    simpa using values
  · have digit : c.isDigit = true :=
      Nat.isDigit_of_mem_toDigits (b := 10) (by decide) (by decide) (by simpa using member)
    rw [isEnd_of_isDigit digit]
    rfl

theorem words_readable {α : Type} {name : α → String} (all : List α) (complete : ∀ x, x ∈ all)
    (distinct : (all.map name).Nodup)
    (plain : all.all (fun x => (name x).toList.all fun c => ! isEnd c) = true) :
    Readable Ends (fun x => (name x).toList) :=
  name_readable (fun _ _ same => List.inj_on_of_nodup_map distinct (complete _) (complete _) same)
    fun x => List.all_eq_true.mp plain x (complete x)

theorem flag_readable : Readable Ends (fun b : Bool => (toString b).toList) :=
  words_readable [false, true] (fun b => by cases b <;> decide) (by decide) rfl

theorem severity_readable : Readable Ends (fun s : Severity => s.debug.toList) :=
  words_readable [.info, .warning, .error, .blocking] (fun s => by cases s <;> decide) (by decide) rfl

theorem metric_readable : Readable Ends (fun m : MetricFn => m.debug.toList) :=
  words_readable [.completeness, .uniqueness, .validity, .consistency, .freshness, .nonNullRate]
    (fun m => by cases m <;> decide) (by decide) rfl

theorem op_readable : Readable Ends (fun o : ComparisonOp => o.debug.toList) :=
  words_readable [.gt, .lt, .gte, .lte, .eq, .neq] (fun o => by cases o <;> decide) (by decide) rfl

theorem stat_readable : Readable Ends (fun s : StatFn => s.debug.toList) :=
  words_readable [.mean, .std, .median, .min, .max, .p05, .p95, .p99, .p999]
    (fun s => by cases s <;> decide) (by decide) rfl

variable {printer : Printer F}

theorem float_readable (lawful : printer.Lawful) : Readable Ends printer.float :=
  readable_of_words lawful.injective fun x c member ended =>
    Bool.false_ne_true ((lawful.plain x c member).symm.trans ended)

theorem bound_readable (lawful : printer.Lawful) :
    Readable Ends (DebugText.option printer.float) := by
  refine readable_of_words (DebugText.option_injective lawful.injective) fun x c member ended => ?_
  refine Bool.false_ne_true (Eq.trans ?_ ended)
  cases x with
  | none =>
    have plain : "None".toList.all (fun c => ! isEnd c) = true := rfl
    exact ((Bool.not_eq_true' _).mp (List.all_eq_true.mp plain c member)).symm
  | some x =>
    have plain : "Some(".toList.all (fun c => ! isEnd c) = true := rfl
    rcases List.mem_append.mp member with front | shut
    · rcases List.mem_append.mp front with word | inside
      · exact ((Bool.not_eq_true' _).mp (List.all_eq_true.mp plain c word)).symm
      · exact (lawful.plain x c inside).symm
    · obtain rfl := List.mem_singleton.mp shut
      rfl

theorem debug_eq (lawful : printer.Lawful) {v w : FieldValue F} (kind : v.ctorIdx = w.ctorIdx)
    {c d : Char} {rest rest' : List Char} (ended : Ends c) (ended' : Ends d)
    (same : v.debug printer ++ c :: rest = w.debug printer ++ d :: rest') :
    v = w ∧ c :: rest = d :: rest' := by
  cases v with
  | text s =>
    cases w with
    | text s' =>
      obtain ⟨rfl, tails⟩ := (DebugText.str_closed _).readable ended ended' same
      exact ⟨rfl, tails⟩
    | _ => cases kind
  | texts items =>
    cases w with
    | texts items' =>
      have quoted : ∀ s rest, (DebugText.str printer.printable s ++ rest).head? ≠ some ']' :=
        fun _ _ => by simp [DebugText.str]
      obtain ⟨rfl, tails⟩ :=
        (DebugText.list_closed (DebugText.str_closed _) quoted).readable ended ended' same
      exact ⟨rfl, tails⟩
    | _ => cases kind
  | flag b =>
    cases w with
    | flag b' =>
      obtain ⟨rfl, tails⟩ := flag_readable ended ended' same
      exact ⟨rfl, tails⟩
    | _ => cases kind
  | size n =>
    cases w with
    | size n' =>
      obtain ⟨rfl, tails⟩ := size_readable ended ended' same
      exact ⟨rfl, tails⟩
    | _ => cases kind
  | bound x =>
    cases w with
    | bound x' =>
      obtain ⟨rfl, tails⟩ := bound_readable lawful ended ended' same
      exact ⟨rfl, tails⟩
    | _ => cases kind
  | float x =>
    cases w with
    | float x' =>
      obtain ⟨rfl, tails⟩ := float_readable lawful ended ended' same
      exact ⟨rfl, tails⟩
    | _ => cases kind
  | severity s =>
    cases w with
    | severity s' =>
      obtain ⟨rfl, tails⟩ := severity_readable ended ended' same
      exact ⟨rfl, tails⟩
    | _ => cases kind
  | metric m =>
    cases w with
    | metric m' =>
      obtain ⟨rfl, tails⟩ := metric_readable ended ended' same
      exact ⟨rfl, tails⟩
    | _ => cases kind
  | op o =>
    cases w with
    | op o' =>
      obtain ⟨rfl, tails⟩ := op_readable ended ended' same
      exact ⟨rfl, tails⟩
    | _ => cases kind
  | stat s =>
    cases w with
    | stat s' =>
      obtain ⟨rfl, tails⟩ := stat_readable ended ended' same
      exact ⟨rfl, tails⟩
    | _ => cases kind

end Reading

end FieldValue

namespace DagNode

variable {F : Type}

open FieldValue

def variant : DagNode F → String
  | typeCheck .. => "TypeCheck"
  | nullCheck .. => "NullCheck"
  | uniquenessCheck .. => "UniquenessCheck"
  | regexCheck .. => "RegexCheck"
  | rangeCheck .. => "RangeCheck"
  | lenCheck .. => "LenCheck"
  | enumCheck .. => "EnumCheck"
  | positiveCheck .. => "PositiveCheck"
  | negativeCheck .. => "NegativeCheck"
  | qualityMetricCheck .. => "QualityMetricCheck"
  | driftCheck .. => "DriftCheck"
  | outlierDetection .. => "OutlierDetection"
  | duplicateDetection .. => "DuplicateDetection"
  | nullAnomalyDetection .. => "NullAnomalyDetection"
  | cardinalityCheck .. => "CardinalityCheck"
  | profile .. => "Profile"

def fields : DagNode F → List (String × FieldValue F)
  | typeCheck column expectedType coerce s =>
    [("column", text column), ("expected_type", text expectedType), ("coerce", flag coerce),
      ("severity", .severity s)]
  | nullCheck column s | uniquenessCheck column s | positiveCheck column s
  | negativeCheck column s | duplicateDetection column s | nullAnomalyDetection column s
  | cardinalityCheck column s => [("column", text column), ("severity", .severity s)]
  | regexCheck column pattern s =>
    [("column", text column), ("pattern", text pattern), ("severity", .severity s)]
  | rangeCheck column min max s =>
    [("column", text column), ("min", bound min), ("max", bound max), ("severity", .severity s)]
  | lenCheck column min max s =>
    [("column", text column), ("min", size min), ("max", size max), ("severity", .severity s)]
  | enumCheck column allowed s =>
    [("column", text column), ("allowed", texts allowed), ("severity", .severity s)]
  | qualityMetricCheck column m o threshold s =>
    [("column", text column), ("metric", metric m), ("op", op o), ("threshold", float threshold),
      ("severity", .severity s)]
  | driftCheck column st o threshold s =>
    [("column", text column), ("stat", stat st), ("op", op o), ("threshold", float threshold),
      ("severity", .severity s)]
  | outlierDetection column method s =>
    [("column", text column), ("method", text method), ("severity", .severity s)]
  | profile column => [("column", text column)]

def fieldsText (printer : Printer F) : List (String × FieldValue F) → List Char
  | [] => []
  | [(name, value)] => name.toList ++ [':', ' '] ++ value.debug printer
  | (name, value) :: rest =>
    name.toList ++ [':', ' '] ++ value.debug printer ++ [',', ' '] ++ fieldsText printer rest

/-- `format!("{n:?}")`, with the derived `Debug` of a struct variant. -/
def debug (printer : Printer F) (node : DagNode F) : String :=
  String.ofList (node.variant.toList ++ [' ', '\x7b', ' '] ++ fieldsText printer node.fields ++
    [' ', '\x7d'])

section Reading

variable {printer : Printer F}

theorem fieldsText_eq (lawful : printer.Lawful) {xs ys : List (String × FieldValue F)}
    (shape : xs.map (fun f => (f.1, f.2.ctorIdx)) = ys.map (fun f => (f.1, f.2.ctorIdx)))
    {rest : List Char}
    (same : fieldsText printer xs ++ ' ' :: rest = fieldsText printer ys ++ ' ' :: rest) :
    xs = ys := by
  have comma : Ends ',' := rfl
  have space : Ends ' ' := rfl
  induction xs generalizing ys with
  | nil => exact (List.map_eq_nil_iff.mp shape.symm).symm
  | cons x xs ih =>
    cases ys with
    | nil => cases shape
    | cons y ys =>
      obtain ⟨name, v⟩ := x
      obtain ⟨name', w⟩ := y
      simp only [List.map_cons, List.cons.injEq, Prod.mk.injEq] at shape
      obtain ⟨⟨rfl, kind⟩, later⟩ := shape
      cases xs with
      | nil =>
        obtain rfl := List.map_eq_nil_iff.mp later.symm
        simp only [fieldsText, List.append_assoc, List.append_cancel_left_eq] at same
        rw [(debug_eq lawful kind space space same).1]
      | cons x xs =>
        cases ys with
        | nil => cases later
        | cons y ys =>
          simp only [fieldsText, List.append_assoc, List.append_cancel_left_eq, List.cons_append,
            List.nil_append, List.cons.injEq, true_and] at same
          obtain ⟨rfl, tails⟩ := debug_eq lawful kind comma comma same
          rw [ih later (by simpa using tails)]

def variants : List String :=
  ["TypeCheck", "NullCheck", "UniquenessCheck", "RegexCheck", "RangeCheck", "LenCheck", "EnumCheck",
    "PositiveCheck", "NegativeCheck", "QualityMetricCheck", "DriftCheck", "OutlierDetection",
    "DuplicateDetection", "NullAnomalyDetection", "CardinalityCheck", "Profile"]

theorem variants_get (node : DagNode F) : variants[node.ctorIdx]? = some node.variant := by
  cases node <;> rfl

theorem variant_plain (node : DagNode F) : ∀ c ∈ node.variant.toList, ¬ c = ' ' := by
  have plain : variants.all (fun name => name.toList.all (· != ' ')) = true := by decide
  have listed := List.all_eq_true.mp plain _ (List.mem_of_getElem? (variants_get node))
  exact fun c member => bne_iff_ne.mp (List.all_eq_true.mp listed c member)

theorem ctorIdx_of_variant {a b : DagNode F} (same : a.variant = b.variant) :
    a.ctorIdx = b.ctorIdx := by
  have distinct : variants.Nodup := by decide
  have within := (List.getElem?_eq_some_iff.mp (variants_get a)).1
  refine (List.getElem?_inj within distinct).mp ?_
  rw [variants_get, variants_get, same]

theorem fields_spec {a b : DagNode F} (index : a.ctorIdx = b.ctorIdx) :
    a.fields.map (fun f => (f.1, f.2.ctorIdx)) = b.fields.map (fun f => (f.1, f.2.ctorIdx)) ∧
      (a.fields = b.fields → a = b) := by
  cases a <;> cases b <;> first
    | (cases index; done)
    | exact ⟨rfl, fun same => by simpa [fields] using same⟩

theorem debug_injective (lawful : printer.Lawful) :
    Function.Injective (debug (F := F) printer) := by
  intro a b same
  have texts := congrArg String.toList same
  simp only [debug, String.toList_ofList, List.append_assoc, List.cons_append, List.nil_append]
    at texts
  obtain ⟨variants, tails⟩ := words_eq (variant_plain a) (variant_plain b) rfl rfl texts
  rw [String.toList_inj] at variants
  obtain ⟨shape, whole⟩ := fields_spec (ctorIdx_of_variant variants)
  have inner := (List.cons.inj (List.cons.inj (List.cons.inj tails).2).2).2
  exact whole (fieldsText_eq lawful shape inner)

end Reading

end DagNode

namespace Optimizer

variable {F : Type}

/-- `deduplicate` with the set of the texts that were seen. -/
def deduplicateTextsAfter (printer : Printer F) (seen : List String) :
    List (DagNode F) → List (DagNode F)
  | [] => []
  | node :: rest =>
    let key := node.debug printer
    if key ∈ seen then deduplicateTextsAfter printer seen rest
    else node :: deduplicateTextsAfter printer (key :: seen) rest

theorem deduplicate_by_texts [DecidableEq F] {printer : Printer F} (lawful : printer.Lawful)
    (nodes : List (DagNode F)) :
    deduplicateTextsAfter printer [] nodes = deduplicate nodes := by
  suffices ∀ seen, deduplicateTextsAfter printer (seen.map (DagNode.debug printer)) nodes =
      deduplicateAfter seen nodes from this []
  induction nodes with
  | nil => exact fun _ => rfl
  | cons node rest ih =>
    intro seen
    have known : node.debug printer ∈ seen.map (DagNode.debug printer) ↔ node ∈ seen :=
      List.mem_map_of_injective (DagNode.debug_injective lawful)
    rw [deduplicateTextsAfter, deduplicateAfter]
    by_cases old : node ∈ seen
    · rw [if_pos (known.mpr old), if_pos old, ih]
    · rw [if_neg (mt known.mp old), if_neg old, ← ih (node :: seen), List.map_cons]

end Optimizer

end StatGuardian.Core
