import RecordQuery.Query.Eval

/-!
# Executing a query over a batch

`execute` evaluates a query once for every record, in order. What the failure of a record does is the
error mode's choice: it ends the execution, or gives null with a warning, or gives null.
-/

namespace RecordQuery

/-- How failing records are handled. -/
inductive ErrorMode where
  | strict
  | collect
  | ignore
deriving DecidableEq

def ErrorMode.name : ErrorMode → String
  | .strict => "strict"
  | .collect => "collect"
  | .ignore => "ignore"

def ErrorMode.all : List ErrorMode := [.strict, .collect, .ignore]

/-- The mode of a name. -/
def ErrorMode.ofName? (name : String) : Option ErrorMode := ErrorMode.all.find? (·.name == name)

/-- What an execution is configured by. -/
structure ExecutorConfig where
  mode : ErrorMode := .strict
  collectStats : Bool := false
  vars : Table Value := .empty

/-- How many records were evaluated, and how many of them failed. -/
structure ExecutionStats where
  records : Nat
  failures : Nat
deriving DecidableEq

/-- What an execution gives. -/
structure ExecutionResult where
  /-- One for each record. -/
  values : List Value
  /-- Only if they are collected. -/
  stats : Option ExecutionStats
  warnings : List String

/-- The outcomes of records that did not end the execution. -/
structure Outcomes where
  values : List Value := []
  warnings : List String := []
  failures : Nat := 0

namespace Outcomes

/-- With the value of a record before them. -/
def succeed (value : Value) (after : Outcomes) : Outcomes := { after with values := value :: after.values }

/-- With the failure of a record before them, and the warning about it if there is one. -/
def fail (warning : Option String) (after : Outcomes) : Outcomes :=
  ⟨.null :: after.values, warning.toList ++ after.warnings, after.failures + 1⟩

end Outcomes

/-- The warning about a failing record. -/
def recordWarning (index : Nat) (e : Error) : String := "record " ++ toString index ++ ": " ++ e.message

/-- Evaluates a number of records from an index on. -/
def executeFrom (mode : ErrorMode) (evaluate : Nat → Eval Value) : Nat → Nat → Eval Outcomes
  | 0, _ => pure {}
  | count + 1, index => do
    match ← Eval.attempt (evaluate index) with
    | .ok value => do
      let after ← executeFrom mode evaluate count (index + 1)
      pure (after.succeed value)
    | .error e =>
      match mode with
      | .strict => throw e
      | .collect => do
        Eval.note .warn .executor
          ("record " ++ toString index ++ " failed: " ++ e.message)
        let after ← executeFrom mode evaluate count (index + 1)
        pure (after.fail (some (recordWarning index e)))
      | .ignore => do
        let after ← executeFrom mode evaluate count (index + 1)
        pure (after.fail none)

/-- Evaluates a query once for every record of a batch. -/
def execute (world : World) (bound : Nat) (config : ExecutorConfig) (maps : Table Query) (q : Query)
    (batch : Batch) : Eval ExecutionResult := do
  let base : Context := { batch, vars := config.vars, maps }
  let outcomes ← executeFrom config.mode (fun index => q.eval world bound (base.atIndex index))
    batch.size 0
  Eval.note .debug .executor
    ("executed " ++ q.describe ++ " over " ++ toString batch.size ++ " records, " ++
      toString outcomes.failures ++ " failed")
  pure
    { values := outcomes.values
      stats := if config.collectStats then some ⟨batch.size, outcomes.failures⟩ else none
      warnings := outcomes.warnings }

end RecordQuery
