import RecordQuery.Query
import RecordQuery.Error
import RecordQuery.Log
import RecordQuery.Time.Pattern

/-!
# Building queries

The constructors of functions and methods from their arguments. They take what they need from the
arguments that they are given and ignore the rest; which arguments a call by name may have is the
registry's affair. Building allots a cell to every counter and generator.
-/

namespace RecordQuery

/-- What building changes: how many cells are allotted, and the log. -/
structure Workbench where
  cells : Nat := 0
  log : Array LogEntry := #[]

abbrev Build := ExceptT Error (StateM Workbench)

namespace Build

/-- A cell for a new instance. -/
def freshCell : Build Nat := do
  let bench ← get
  set { bench with cells := bench.cells + 1 }
  pure bench.cells

/-- Writes to the log. -/
def note (level : LogLevel) (source : LogSource) (text : String) : Build Unit :=
  modify fun bench => { bench with log := bench.log.push ⟨level, source, text⟩ }

/-- The arguments of a function or method are refused. -/
def refuse {α : Type} (name : String) (refusal : Refusal) : Build α :=
  throw (.invalidArguments name refusal)

/-- The first argument, which has to be there. -/
def firstArg (name : String) : List Arg → Build Arg
  | [] => refuse name .missing
  | arg :: _ => pure arg

end Build

open Build

namespace Query

/-- The path of a field, which is the whole value if the text is empty. -/
def ofField (path : String) : Query := .field (splitPath path)

/-! ## Functions -/

def buildBatchIndex (_ : List Arg) : Build Query := pure .batchIndex

def buildBatchSize (_ : List Arg) : Build Query := pure .batchSize

def buildContent (_ : List Arg) : Build Query := pure .content

def buildCount : List Arg → Build Query
  | .value (.string label) :: _ => do pure (.count label (← freshCell))
  | _ => refuse "count" .literalName

def buildEnv (args : List Arg) : Build Query := do pure (.env (← firstArg "env" args))

def buildJson : List Arg → Build Query
  | [] => pure (.json [])
  | .value (.string path) :: _ => pure (.json (splitPath path))
  | arg :: _ => refuse "json" (.pathButFound arg.describe)

def buildMeta : List Arg → Build Query
  | [] => pure .metadata
  | key :: _ => pure (.metadataAt key)

def buildRandomInt : List Arg → Build Query
  | [] => do pure (.randomInt (← freshCell))
  | seed :: _ => do pure (.randomIntFrom seed (← freshCell))

def buildThrow (args : List Arg) : Build Query := do pure (.throwing (← firstArg "throw" args))

def buildUnixTime (_ : List Arg) : Build Query := pure .unixTime

def buildUnixNanoTime (_ : List Arg) : Build Query := pure .unixNanoTime

def buildUtcTime : List Arg → Build Query
  | [] => pure (.utcTime none)
  | .value (.string pattern) :: _ =>
    if (Pattern.parse? pattern).isSome then pure (.utcTime (some pattern))
    else refuse "timestamp_utc" (.format pattern)
  | arg :: _ => refuse "timestamp_utc" (.formatButFound arg.describe)

def buildUuid (_ : List Arg) : Build Query := pure .uuid

def buildVar (args : List Arg) : Build Query := do pure (.var (← firstArg "var" args))

/-! ## Methods -/

def buildApply (receiver : Query) : List Arg → Build Query
  | .value (.string map) :: _ => pure (.apply receiver map)
  | _ => refuse "apply" .literalMapName

def buildCatch (receiver : Query) (args : List Arg) : Build Query := do
  pure (.catching receiver (← firstArg "catch" args))

def buildFrom (receiver : Query) (args : List Arg) : Build Query := do
  pure (.atRecord receiver (← firstArg "from" args))

def buildGet (receiver : Query) : List Arg → Build Query
  | .value (.string path) :: _ => pure (.get receiver (splitPath path))
  | _ => refuse "get" .literalPath

def buildLowercase (receiver : Query) (_ : List Arg) : Build Query := pure (.inCase receiver .lower)

def buildOr (receiver : Query) (args : List Arg) : Build Query := do
  pure (.orElse receiver (← firstArg "or" args))

def buildUppercase (receiver : Query) (_ : List Arg) : Build Query := pure (.inCase receiver .upper)

end Query

end RecordQuery
