import RecordQuery.Document
import RecordQuery.Files
import RecordQuery.Query.Targets
import RecordQuery.Settings.Override
import RecordQuery.Text.Blank

/-!
# Runs

A run evaluates the query of a document on every line of an input that is not blank, and writes every
value as one line. It ends in a value or a failure; what it has written and noted in its log by then
is on the console. Values are written only when all of them are there.
-/

namespace RecordQuery

/-- Why a run fails. -/
inductive Failure where
  | noQuery
  | definition (bad : BadDefinition)
  | load (e : LoadError)
  /-- The input cannot be opened. -/
  | opening (path : String) (fault : FileFault)
  | reading (fault : ReadFault)
  | building (e : Error)
  | executing (e : Error)

def Failure.message : Failure → String
  | .noQuery => "no query file given"
  | .definition bad => bad.message
  | .load e => e.message
  | .opening path fault => "failed to open input " ++ path ++ ": " ++ fault.message
  | .reading fault => "failed to read input: " ++ fault.message
  | .building e => "failed to build query: " ++ e.message
  | .executing e => "query execution failed: " ++ e.message

/-- What a run has shown. -/
structure Console where
  output : String := ""
  log : Array LogEntry := #[]

/-- A part of a run; it does not end if an evaluation in it does not. -/
abbrev Session := ExceptT Failure (StateT Console Option)

namespace Session

/-- Writes a line. -/
def writeLine (line : String) : Session Unit :=
  modify fun console => { console with output := console.output ++ line ++ "\n" }

/-- Writes lines. -/
def writeLines (lines : List String) : Session Unit := lines.forM writeLine

/-- Notes entries in the log. -/
def note (entries : Array LogEntry) : Session Unit :=
  modify fun console => { console with log := console.log ++ entries }

/-- Builds something on a new workbench. -/
def build {α : Type} (x : Build α) : Session α := do
  let (outcome, bench) := x.run.run {}
  note bench.log
  liftExcept (outcome.mapError Failure.building)

/-- Evaluates something from a new store. -/
def evaluate {α : Type} (x : Eval α) : Session α := do
  match x.run.run {} with
  | none => ExceptT.mk fun _ => none
  | some (outcome, store) => do
    note store.log
    liftExcept (outcome.mapError Failure.executing)

end Session

/-! ## Input -/

/-- A line feed. -/
def lineFeed : UInt8 := 10

/-- A line without the carriage return that stands last in it, if there is one; both lines are given
from their ends. -/
def dropReturn : Bytes → Bytes
  | 13 :: line => line
  | line => line

/-- The lines of an input, where the beginning of the first one was read, and is given from its end. -/
def linesFrom (line : Bytes) : Bytes → List Bytes
  | [] => if line.isEmpty then [] else [line.reverse]
  | byte :: rest =>
    if byte = lineFeed then (dropReturn line).reverse :: linesFrom [] rest
    else linesFrom (byte :: line) rest

/-- The lines of an input: each ends with a line feed, before which a carriage return can stand, except
that the last one may end with the input. -/
def lines (input : Bytes) : List Bytes := linesFrom [] input

/-- The record of a line, none if the line is blank, or the fault that it is no text. -/
def recordOf (line : Bytes) : Except ReadFault (Option Record) :=
  match Utf8.decode? line with
  | some text => .ok (if isBlank text then none else some { body := line })
  | none => .error .notText

/-- The records of an input. -/
def readRecords (input : FileContent) : Except ReadFault Batch :=
  match input with
  | .error fault => .error (.file fault)
  | .ok bytes => do
    let records ← (lines bytes).mapM recordOf
    .ok (records.filterMap id).toArray

/-! ## Runs -/

namespace Run

/-- How deep applications of maps can nest. -/
def nestingBound : Nat := 100000

/-- The names of all functions and methods. -/
def listing (r : Registry) : List String :=
  "functions:" :: r.functionNames.map ("  " ++ ·) ++ "methods:" :: r.methodNames.map ("  " ++ ·)

/-- A target as a line. -/
def targetLine (t : Target) : String := t.storage.name ++ " " ++ joinPath t.path

/-- Writes the targets of the query of a document. -/
def writeTargets (r : Registry) (d : Document) : Session Unit := do
  let (q, maps) ← Session.build (d.build r)
  Session.writeLines ((q.targets { maps }).2.map targetLine)

/-- Runs the query of a document over an input. -/
def execute (world : World) (r : Registry) (s : Settings) (d : Document) (input : FileContent) :
    Session (Option ExecutionStats) := do
  let (q, maps) ← Session.build (d.build r)
  Session.note #[⟨.debug, .runner, "built query " ++ q.describe⟩]
  let batch ← liftExcept ((readRecords input).mapError Failure.reading)
  Session.note #[⟨.info, .runner, "read " ++ toString batch.size ++ " records"⟩]
  let result ← Session.evaluate (RecordQuery.execute world nestingBound s.executorConfig maps q batch)
  Session.writeLines (world.texts result.values)
  pure result.stats

end Run

end RecordQuery
