import StatGuardian.Core.Parser
import StatGuardian.Library.Slices
import StatGuardian.Stream.Sanitize

namespace StatGuardian.Stream

open StatGuardian.Core

namespace Value

/-- `as_u64`, on the text of a JSON number. -/
def asU64 : Value → Option Nat
  | .number text =>
    let digits := text.toList
    let n := Parser.digitsValue digits
    if ! digits.isEmpty && digits.all Char.isDigit && n < 2 ^ 64 then some n else none
  | _ => none

/-- `as_i64`. A negative zero is a float to `serde_json`. -/
def asI64 : Value → Option Int
  | .number text =>
    match text.toList with
    | '-' :: digits =>
      let n := Parser.digitsValue digits
      if digits.all Char.isDigit && 0 < n && n ≤ 2 ^ 63 then some (-n) else none
    | digits =>
      let n := Parser.digitsValue digits
      if ! digits.isEmpty && digits.all Char.isDigit && n < 2 ^ 63 then some n else none
  | _ => none

def asF64 {F : Type} [Float64 F] : Value → Option F
  | .number text => Parser.parseF64 text.toList
  | _ => none

def asStr : Value → Option String
  | .string s => some s
  | _ => none

end Value

inductive Provenance where
  | measured | estimated | unknown
  deriving DecidableEq, Repr

structure Measured (T : Type) where
  value : T
  provenance : Provenance
  deriving DecidableEq, Repr

inductive AgentEventKind where
  | toolCall | toolResult | llmCall | retry | error | policyViolation | other
  deriving DecidableEq, Repr

def AgentEventKind.parse (s : String) : AgentEventKind :=
  match s.map Char.toLower with
  | "tool_call" | "tool_use" | "call" => .toolCall
  | "tool_result" | "tool_output" | "result" => .toolResult
  | "llm_call" | "llm" | "completion" | "model_call" => .llmCall
  | "retry" => .retry
  | "error" | "failure" => .error
  | "policy_violation" => .policyViolation
  | _ => .other

/-- `metadata` is ordered by its keys. -/
structure AgentEvent (F : Type) where
  executionId : String
  seq : Nat
  timestampMs : Option Int
  kind : AgentEventKind
  tool : Option String
  callSignature : Option String
  tokensIn : Option (Measured UInt64)
  tokensOut : Option (Measured UInt64)
  costUsd : Option (Measured F)
  durationMs : Option (Measured UInt64)
  retryOf : Option Nat
  error : Option String
  metadata : List (String × String)
  deriving DecidableEq, Repr

section Parsing

abbrev Fields := List (String × Value)

def getFirst (obj : Fields) (keys : List String) : Option Value := keys.findSome? (fun key => obj.lookup key)

def getStr (obj : Fields) (keys : List String) : Option String := (getFirst obj keys).bind Value.asStr

def parseProvenance (v : Option Value) (default : Provenance) : Provenance :=
  match v.bind Value.asStr with
  | some "measured" => .measured
  | some "estimated" => .estimated
  | some "unknown" => .unknown
  | _ => default

def parseMeasured {T : Type} (read : Value → Option T) (obj : Fields) (keys : List String)
    (default : Provenance) : Option (Measured T) := do
  match ← getFirst obj keys with
  | .number text => (read (.number text)).map (fun value => ⟨value, default⟩)
  | .object fields =>
    let value ← (fields.lookup "value").bind read
    return ⟨value, parseProvenance (fields.lookup "provenance") default⟩
  | _ => none

def parseMeasuredU64 (obj : Fields) (keys : List String) (default : Provenance) :
    Option (Measured UInt64) :=
  parseMeasured (fun v => v.asU64.map UInt64.ofNat) obj keys default

def parseMeasuredF64 {F : Type} [Float64 F] (obj : Fields) (keys : List String)
    (default : Provenance) : Option (Measured F) := parseMeasured Value.asF64 obj keys default

def knownFields : List String :=
  ["execution_id", "run_id", "trace_id", "session_id", "seq", "step", "index", "timestamp_ms",
    "ts_ms", "kind", "type", "event", "tool", "tool_name", "name", "call_signature", "args_hash",
    "signature", "tokens_in", "input_tokens", "prompt_tokens", "tokens_out", "output_tokens",
    "completion_tokens", "cost_usd", "cost", "duration_ms", "latency_ms", "elapsed_ms", "retry_of",
    "retry_index", "error", "provenance"]

def insertText (key value : String) : List (String × String) → List (String × String)
  | [] => [(key, value)]
  | (k, v) :: rest =>
    match compare key k with
    | .lt => (key, value) :: (k, v) :: rest
    | .eq => (k, value) :: rest
    | .gt => (k, v) :: insertText key value rest

def AgentEvent.fromJson {F : Type} [Float64 F] (env : TextEnv) :
    Value → Except String (AgentEvent F)
  | .object obj =>
    let defaultProvenance : Provenance :=
      match getStr obj ["provenance"] with
      | some "measured" => .measured
      | some "estimated" => .estimated
      | _ => .measured
    .ok
      { executionId :=
          (getStr obj ["execution_id", "run_id", "trace_id", "session_id"]).getD "unknown"
        seq := ((getFirst obj ["seq", "step", "index"]).bind Value.asU64).getD 0
        timestampMs := (getFirst obj ["timestamp_ms", "ts_ms"]).bind Value.asI64
        kind := .parse ((getStr obj ["kind", "type", "event"]).getD "other")
        tool := getStr obj ["tool", "tool_name", "name"]
        callSignature := getStr obj ["call_signature", "args_hash", "signature"]
        tokensIn :=
          parseMeasuredU64 obj ["tokens_in", "input_tokens", "prompt_tokens"] defaultProvenance
        tokensOut := parseMeasuredU64 obj ["tokens_out", "output_tokens", "completion_tokens"]
          defaultProvenance
        costUsd := parseMeasuredF64 obj ["cost_usd", "cost"] defaultProvenance
        durationMs :=
          parseMeasuredU64 obj ["duration_ms", "latency_ms", "elapsed_ms"] defaultProvenance
        retryOf := (getFirst obj ["retry_of", "retry_index"]).bind Value.asU64
        error := getStr obj ["error"]
        metadata := (obj.filter (fun field => ! knownFields.contains field.1)).foldl
          (fun metadata field => insertText field.1 (env.display field.2) metadata) [] }
  | _ => .error "agent event must be a JSON object"

end Parsing

structure AgentPolicy (F : Type) where
  maxToolCalls : Option Nat
  maxTotalTokens : Option UInt64
  maxCostUsd : Option F
  maxDurationMs : Option UInt64
  loopWindow : Nat
  loopRepeatThreshold : Nat
  enforce : Bool
  deriving DecidableEq, Repr

def AgentPolicy.default {F : Type} : AgentPolicy F where
  maxToolCalls := none
  maxTotalTokens := none
  maxCostUsd := none
  maxDurationMs := none
  loopWindow := 8
  loopRepeatThreshold := 3
  enforce := false

/-- The sums of `u64` values wrap, as they do where overflow is not checked. -/
structure AgentTelemetry (F : Type) where
  events : Nat
  toolCalls : Nat
  retries : Nat
  errors : Nat
  tokensInMeasured : UInt64
  tokensInEstimated : UInt64
  tokensOutMeasured : UInt64
  tokensOutEstimated : UInt64
  costMeasuredUsd : F
  costEstimatedUsd : F
  durationMeasuredMs : UInt64
  durationEstimatedMs : UInt64
  unknownMetrics : Nat
  executions : List String
  deriving DecidableEq, Repr

structure AgentPolicyViolation where
  policy : String
  message : String
  severity : Severity
  measured : Bool
  heuristic : Bool
  deriving DecidableEq, Repr

structure LoopFinding where
  signature : String
  occurrences : Nat
  firstSeq : Nat
  lastSeq : Nat
  deriving DecidableEq, Repr

inductive Enforcement where
  | continue | warn | stop
  deriving DecidableEq, Repr

structure AgentPolicyReport (F : Type) where
  telemetry : AgentTelemetry F
  violations : List AgentPolicyViolation
  loops : List LoopFinding
  deriving DecidableEq, Repr

def AgentPolicyReport.enforcement {F : Type} (report : AgentPolicyReport F) : Enforcement :=
  if report.violations.isEmpty then .continue
  else if report.violations.any (·.severity == .blocking) then .stop
  else .warn

section Aggregate

variable {F : Type} [Float64 F]

namespace AgentTelemetry

def empty : AgentTelemetry F where
  events := 0
  toolCalls := 0
  retries := 0
  errors := 0
  tokensInMeasured := 0
  tokensInEstimated := 0
  tokensOutMeasured := 0
  tokensOutEstimated := 0
  costMeasuredUsd := Float64.zero
  costEstimatedUsd := Float64.zero
  durationMeasuredMs := 0
  durationEstimatedMs := 0
  unknownMetrics := 0
  executions := []

def totalTokensMeasured (t : AgentTelemetry F) : UInt64 := t.tokensInMeasured + t.tokensOutMeasured

def totalTokensEstimated (t : AgentTelemetry F) : UInt64 :=
  t.tokensInEstimated + t.tokensOutEstimated

def added {T : Type} [Add T] (provenance : Provenance) (total : T) : Option (Measured T) → T
  | some m => if m.provenance = provenance then total + m.value else total
  | none => total

def unknowns {T : Type} : Option (Measured T) → Nat
  | some m => if m.provenance = .unknown then 1 else 0
  | none => 0

/-- One round of the loop in `aggregate`. -/
def count (t : AgentTelemetry F) (e : AgentEvent F) : AgentTelemetry F where
  events := t.events + 1
  toolCalls := if e.kind = .toolCall then t.toolCalls + 1 else t.toolCalls
  retries := if e.kind = .retry || e.retryOf.isSome then t.retries + 1 else t.retries
  errors := if e.kind = .error then t.errors + 1 else t.errors
  tokensInMeasured := added .measured t.tokensInMeasured e.tokensIn
  tokensInEstimated := added .estimated t.tokensInEstimated e.tokensIn
  tokensOutMeasured := added .measured t.tokensOutMeasured e.tokensOut
  tokensOutEstimated := added .estimated t.tokensOutEstimated e.tokensOut
  costMeasuredUsd := added .measured t.costMeasuredUsd e.costUsd
  costEstimatedUsd := added .estimated t.costEstimatedUsd e.costUsd
  durationMeasuredMs := added .measured t.durationMeasuredMs e.durationMs
  durationEstimatedMs := added .estimated t.durationEstimatedMs e.durationMs
  unknownMetrics := t.unknownMetrics + unknowns e.tokensIn + unknowns e.tokensOut +
    unknowns e.costUsd + unknowns e.durationMs
  executions :=
    if t.executions.contains e.executionId then t.executions else t.executions ++ [e.executionId]

end AgentTelemetry

def aggregate (events : List (AgentEvent F)) : AgentTelemetry F :=
  let t := events.foldl AgentTelemetry.count .empty
  { t with executions := Slices.sortBy compare t.executions }

end Aggregate

section Loops

structure LoopScan where
  recent : List (String × Nat)
  loops : List LoopFinding
  deriving DecidableEq, Repr

def recordLoop (found : LoopFinding) : List LoopFinding → List LoopFinding
  | [] => [found]
  | existing :: rest =>
    if existing.signature = found.signature then
      { existing with occurrences := found.occurrences, lastSeq := found.lastSeq } :: rest
    else existing :: recordLoop found rest

/-- One round of the loop in `detect_loops`. -/
def LoopScan.visit {F : Type} (window threshold : Nat) (scan : LoopScan) (e : AgentEvent F) :
    LoopScan :=
  match e.callSignature with
  | none => scan
  | some sig =>
    let pushed := scan.recent ++ [(sig, e.seq)]
    let recent := if window < pushed.length then pushed.tail else pushed
    let occurrences := recent.filter (fun call => call.1 == sig)
    if threshold ≤ occurrences.length then
      let firstSeq := (occurrences.head?.map Prod.snd).getD e.seq
      let lastSeq := (occurrences.getLast?.map Prod.snd).getD e.seq
      ⟨recent, recordLoop ⟨sig, occurrences.length, firstSeq, lastSeq⟩ scan.loops⟩
    else ⟨recent, scan.loops⟩

def detectLoops {F : Type} (events : List (AgentEvent F)) (window threshold : Nat) :
    List LoopFinding :=
  if window = 0 || threshold = 0 then []
  else (events.foldl (LoopScan.visit window threshold) ⟨[], []⟩).loops

end Loops

namespace AgentGuard

variable {F : Type} [Float64 F] (fixed : Nat → F → String) (policy : AgentPolicy F)

def measuredBreachSeverity : Severity := if policy.enforce then .blocking else .error

def measuredBreach (name message : String) : AgentPolicyViolation :=
  ⟨name, message, measuredBreachSeverity policy, true, false⟩

def estimatedBreach (name message : String) : AgentPolicyViolation :=
  ⟨name, message, .warning, false, false⟩

def toolCallBudget (t : AgentTelemetry F) : List AgentPolicyViolation :=
  match policy.maxToolCalls with
  | some max =>
    if t.toolCalls > max then
      [measuredBreach policy "max_tool_calls"
        s!"{t.toolCalls} tool calls exceed budget of {max}"]
    else []
  | none => []

def tokenBudget (t : AgentTelemetry F) : List AgentPolicyViolation :=
  match policy.maxTotalTokens with
  | some max =>
    let measured := t.totalTokensMeasured
    let estimated := t.totalTokensEstimated
    if measured > max then
      [measuredBreach policy "max_total_tokens"
        s!"{measured} measured tokens exceed budget of {max}"]
    else if measured + estimated > max then
      [estimatedBreach "max_total_tokens"
        s!"{measured} measured + {estimated} estimated tokens may exceed budget of {max}"]
    else []
  | none => []

def costBudget (t : AgentTelemetry F) : List AgentPolicyViolation :=
  match policy.maxCostUsd with
  | some max =>
    if Float64.gt t.costMeasuredUsd max then
      [measuredBreach policy "max_cost_usd"
        s!"${fixed 4 t.costMeasuredUsd} measured cost exceeds budget of ${fixed 4 max}"]
    else if Float64.gt (t.costMeasuredUsd + t.costEstimatedUsd) max then
      [estimatedBreach "max_cost_usd"
        s!"${fixed 4 t.costMeasuredUsd} measured + ${fixed 4 t.costEstimatedUsd} estimated cost may exceed budget of ${fixed 4 max}"]
    else []
  | none => []

def durationBudget (t : AgentTelemetry F) : List AgentPolicyViolation :=
  match policy.maxDurationMs with
  | some max =>
    if t.durationMeasuredMs > max then
      [measuredBreach policy "max_duration_ms"
        s!"{t.durationMeasuredMs}ms measured duration exceeds budget of {max}ms"]
    else []
  | none => []

def loopViolation (found : LoopFinding) : AgentPolicyViolation where
  policy := "loop_detection"
  message := s!"heuristic: signature '{found.signature}' repeated {found.occurrences} times (seq {found.firstSeq}→{found.lastSeq})"
  severity := .warning
  measured := false
  heuristic := true

def evaluate (events : List (AgentEvent F)) : AgentPolicyReport F :=
  let telemetry := aggregate events
  let loops := detectLoops events policy.loopWindow policy.loopRepeatThreshold
  { telemetry := telemetry
    violations := toolCallBudget policy telemetry ++ tokenBudget policy telemetry ++
      costBudget fixed policy telemetry ++ durationBudget policy telemetry ++
      loops.map loopViolation
    loops := loops }

end AgentGuard

end StatGuardian.Stream
