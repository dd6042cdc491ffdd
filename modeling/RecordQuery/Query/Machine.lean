import RecordQuery.Error
import RecordQuery.Log
import RecordQuery.Random
import RecordQuery.Time.Civil
import RecordQuery.Value.Json

/-!
# What evaluation works with

`World` is what it reads from outside: the environment, the clock and entropy. `Store` is what it
changes: the progress of counters and generators, how often clock and entropy were read, and the log.
`Eval` is a computation over a store that ends in a value or an error, or does not end within the
nesting that it is given.

The members of an object have no order, so the one in which they are written is up to the world too.
-/

namespace RecordQuery

/-- What evaluation, and the run around it, can read from outside. -/
structure World where
  /-- The bytes of an environment variable. -/
  env : String → Option Bytes
  /-- What the clock shows, by the number of times it was read before. -/
  clock : Nat → Moment
  /-- Random words, by how many were taken before. -/
  entropy : Nat → UInt64
  /-- The keys of the generators that have no seed, by their cells. -/
  key : Nat → ChaCha.Key
  /-- The text that a run writes for the result at a place. -/
  write : Nat → Value → String := fun _ v => v.write

/-- The texts that a run writes for its results. -/
def World.texts (world : World) (values : List Value) : List String := values.mapIdx world.write

/-- What evaluation changes. -/
structure Store where
  /-- How often the instance of each cell was evaluated. -/
  draws : Array Nat := #[]
  clockReadings : Nat := 0
  entropyTaken : Nat := 0
  log : Array LogEntry := #[]

/-- How often the instance of a cell was evaluated. -/
def Store.drawn (s : Store) (cell : Nat) : Nat := s.draws[cell]?.getD 0

/-- The store after one more evaluation of the instance of a cell. -/
def Store.advance (s : Store) (cell : Nat) : Store :=
  let wide := s.draws ++ Array.replicate (cell + 1 - s.draws.size) 0
  { s with draws := wide.modify cell (· + 1) }

abbrev Eval := ExceptT Error (StateT Store Option)

namespace Eval

variable {α : Type}

/-- A computation that does not end. -/
def unfinished : Eval α := ExceptT.mk fun _ => none

/-- The outcome of a computation, an error as a value. -/
def attempt (x : Eval α) : Eval (Except Error α) := ExceptT.mk fun s =>
  match x.run s with
  | none => none
  | some (outcome, s) => some (.ok outcome, s)

/-- Evaluates the instance of a cell once more: how often it was evaluated before. -/
def draw (cell : Nat) : Eval Nat := do
  let s ← get
  set (s.advance cell)
  pure (s.drawn cell)

/-- Reads the clock. -/
def now (world : World) : Eval Moment := do
  let s ← get
  set { s with clockReadings := s.clockReadings + 1 }
  pure (world.clock s.clockReadings)

/-- Takes a random word. -/
def randomWord (world : World) : Eval UInt64 := do
  let s ← get
  set { s with entropyTaken := s.entropyTaken + 1 }
  pure (world.entropy s.entropyTaken)

/-- Writes to the log. -/
def note (level : LogLevel) (source : LogSource) (text : String) : Eval Unit :=
  modify fun s => { s with log := s.log.push ⟨level, source, text⟩ }

end Eval

end RecordQuery
