import RecordQuery.Execution
import RecordQuery.Value.Json

/-!
# Settings

What a settings file or the command line decides about a run: how failures are handled, whether
statistics are kept, how much is logged, and the variables.
-/

namespace RecordQuery

/-- The settings of a run. -/
structure Settings where
  errorMode : ErrorMode := .strict
  collectStats : Bool := false
  verbosity : UInt8 := 0
  vars : Table Json := .empty

namespace Settings

/-- The variables as values. -/
def values (s : Settings) : Table Value := s.vars.map Value.ofJson

def executorConfig (s : Settings) : ExecutorConfig := ⟨s.errorMode, s.collectStats, s.values⟩

def logLevel (s : Settings) : LogLevel := .ofVerbosity s.verbosity.toNat

end Settings

end RecordQuery
