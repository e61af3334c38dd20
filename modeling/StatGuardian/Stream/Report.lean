import StatGuardian.Core.Ast
import StatGuardian.Runtime.Fault
import StatGuardian.Stream.Sanitize

namespace StatGuardian.Stream

open StatGuardian.Core

structure StreamLimits where
  maxRecords : Option Nat
  maxBytes : Option Nat
  maxRecordBytes : Nat
  batchSize : Nat
  deriving DecidableEq, Repr

def StreamLimits.default : StreamLimits := ⟨none, none, 8 * 1024 * 1024, 1000⟩

inductive MalformedPolicy where
  | failFast
  | skip
  | collect (max : Nat)
  deriving DecidableEq, Repr

def MalformedPolicy.default : MalformedPolicy := .collect 100

/-- `record` is empty for a finding about a whole batch. -/
structure StreamFinding where
  record : Option Nat
  batch : Nat
  column : String
  check : String
  message : String
  severity : Severity
  deriving DecidableEq, Repr

inductive MalformedKind where
  | json | utf8 | oversized
  deriving DecidableEq, Repr

structure MalformedRecord where
  record : Nat
  kind : MalformedKind
  reason : String
  preview : Option String
  deriving DecidableEq, Repr

structure StreamLimitHit where
  limit : String
  value : Nat
  deriving DecidableEq, Repr

inductive StreamError where
  | io (reason : String)
  | malformed (record : Nat) (reason : String)
  | oversizedRecord (record limit actual : Nat)
  | invalidUtf8 (record : Nat)
  | materialize (batch : Nat) (reason : String)
  deriving DecidableEq, Repr

/-- The ways a run ends without a report: an error, or a fault inside the engine. -/
inductive Halt where
  | error (e : StreamError)
  | fault (f : Fault)

abbrev StreamResult := Except Halt

structure StreamReport where
  dataset : String
  recordsRead : Nat
  recordsValidated : Nat
  malformedCount : Nat
  oversizedCount : Nat
  batches : Nat
  bytesConsumed : Nat
  truncated : Bool
  passed : Bool
  findings : List StreamFinding
  malformed : List MalformedRecord
  sanitization : SanitizationSummary
  limitHit : Option StreamLimitHit
  deriving DecidableEq, Repr

end StatGuardian.Stream
