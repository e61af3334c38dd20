import StatGuardian.Polars.Frame

namespace StatGuardian.Io

open Polars

variable {F E : Type}

/-- The state of a batched read. The file is read at the first batch and kept. -/
structure StreamingBatcher (F : Type) where
  path : String
  batchSize : Nat
  cached : Option (DataFrame F)
  offset : Nat
  positive : 0 < batchSize

namespace StreamingBatcher

def new (path : String) (batchSize : Nat) : StreamingBatcher F where
  path := path
  batchSize := max batchSize 1
  cached := none
  offset := 0
  positive := by omega

def batchAt (df : DataFrame F) (batchSize offset : Nat) : DataFrame F :=
  df.slice offset (min (offset + batchSize) df.height - offset)

def load (readFile : String → Except E (DataFrame F)) (batcher : StreamingBatcher F) :
    Except E (DataFrame F) :=
  match batcher.cached with
  | some df => .ok df
  | none => readFile batcher.path

def nextBatch (readFile : String → Except E (DataFrame F)) (batcher : StreamingBatcher F) :
    Except E (Option (DataFrame F) × StreamingBatcher F) := do
  let df ← batcher.load readFile
  let loaded := { batcher with cached := some df }
  if batcher.offset ≥ df.height then return (none, loaded)
  else
    return (some (batchAt df batcher.batchSize batcher.offset),
      { loaded with offset := min (batcher.offset + batcher.batchSize) df.height })

/-- What is left to hand out: everything before the file is read. -/
def remaining (batcher : StreamingBatcher F) : Nat × Nat :=
  match batcher.cached with
  | none => (1, 0)
  | some df => (0, df.height - batcher.offset)

theorem nextBatch_ok (readFile : String → Except E (DataFrame F)) (batcher : StreamingBatcher F)
    (df : DataFrame F) (loaded : batcher.load readFile = .ok df) :
    batcher.nextBatch readFile =
      if batcher.offset ≥ df.height then .ok (none, { batcher with cached := some df })
      else .ok (some (batchAt df batcher.batchSize batcher.offset),
        { batcher with
          cached := some df
          offset := min (batcher.offset + batcher.batchSize) df.height }) := by
  unfold nextBatch
  rw [loaded]
  simp only [bind, Except.bind, pure, Except.pure]

theorem nextBatch_remaining (readFile : String → Except E (DataFrame F))
    (batcher next : StreamingBatcher F) (batch : DataFrame F)
    (handed : batcher.nextBatch readFile = .ok (some batch, next)) :
    Prod.Lex (· < ·) (· < ·) next.remaining batcher.remaining := by
  have positive := batcher.positive
  cases loaded : batcher.load readFile with
  | error e => simp [nextBatch, loaded, bind, Except.bind] at handed
  | ok df =>
    rw [nextBatch_ok readFile batcher df loaded] at handed
    split at handed
    · simp at handed
    · rename_i more
      simp only [Except.ok.injEq, Prod.mk.injEq, Option.some.injEq] at handed
      obtain ⟨_, rfl⟩ := handed
      unfold load at loaded
      cases cached : batcher.cached with
      | none =>
        simp only [remaining, cached]
        exact Prod.Lex.left _ _ Nat.zero_lt_one
      | some held =>
        rw [cached] at loaded
        cases loaded
        simp only [remaining, cached]
        exact Prod.Lex.right _ (by omega)

theorem height_batchAt (df : DataFrame F) (batchSize offset : Nat) :
    (batchAt df batchSize offset).height = min (offset + batchSize) df.height - offset := by
  simp only [batchAt, DataFrame.slice]
  omega

end StreamingBatcher

end StatGuardian.Io
