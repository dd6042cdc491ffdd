/-!
# Log entries

Messages about the course of a run, each with a level and the place that wrote it. A level is shown
if it is at or above the one asked for.
-/

namespace RecordQuery

inductive LogLevel where
  | trace
  | debug
  | info
  | warn
deriving DecidableEq

namespace LogLevel

/-- How urgent a level is. -/
def urgency : LogLevel → Nat
  | .trace => 0
  | .debug => 1
  | .info => 2
  | .warn => 3

def name : LogLevel → String
  | .trace => "TRACE"
  | .debug => "DEBUG"
  | .info => "INFO"
  | .warn => "WARN"

/-- The level that a count of requests for more detail asks for. -/
def ofVerbosity : Nat → LogLevel
  | 0 => .warn
  | 1 => .info
  | 2 => .debug
  | _ => .trace

end LogLevel

/-- The parts of the program that write messages. -/
inductive LogSource where
  | registry
  | executor
  | runner
  | randomInt
  | catching
  | orElse
deriving DecidableEq

/-- The name that messages show. -/
def LogSource.name : LogSource → String
  | .registry => "bloq_query::registry"
  | .executor => "bloq_query::executor"
  | .runner => "bloq_cli::runner"
  | .randomInt => "bloq_query::builtin::random_int"
  | .catching => "bloq_query::methods::catch"
  | .orElse => "bloq_query::methods::or"

/-- One message. -/
structure LogEntry where
  level : LogLevel
  source : LogSource
  text : String

/-- Whether a message is shown when a level is asked for. -/
def LogEntry.shownAt (entry : LogEntry) (level : LogLevel) : Bool :=
  level.urgency ≤ entry.level.urgency

/-- A message as text: further lines of it are set in by four blanks. -/
def LogEntry.render (entry : LogEntry) : String :=
  "[" ++ entry.level.name ++ " " ++ entry.source.name ++ "] " ++ "\n    ".intercalate (entry.text.splitOn "\n")

end RecordQuery
