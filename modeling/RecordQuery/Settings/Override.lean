import RecordQuery.Settings
import RecordQuery.Settings.CommandLine
import RecordQuery.Json.Reader

/-!
# Settings and the command line

What the command line asks for goes before the settings of a file: its error mode and its variables
take the place of those, more detail is given if either wants it, and statistics are kept if either
asks for them.
-/

namespace RecordQuery

/-- A definition of a variable that gives no name and value. -/
structure BadDefinition where
  raw : String

def BadDefinition.message (bad : BadDefinition) : String :=
  "invalid variable '" ++ bad.raw ++ "', expected NAME=VALUE"

/-- The name, which is not empty, and the value in a definition: the texts before and behind its first
equals sign. -/
def splitDefinition? (raw : String) : Option (String × String) :=
  match CommandLine.splitEquals raw.toList with
  | (c :: name, some value) => some (String.ofList (c :: name), String.ofList value)
  | _ => none

/-- The value of a definition: what it is as JSON, or else the text itself. -/
def definedValue (text : String) : Json :=
  match JsonText.parse (Utf8.encode text) with
  | .ok data => data.toJson
  | .error _ => .string text

namespace Settings

/-- Defines a variable, in place of one of the same name. -/
def define (s : Settings) (raw : String) : Except BadDefinition Settings :=
  match splitDefinition? raw with
  | some (name, value) => .ok { s with vars := s.vars.put name (definedValue value) }
  | none => .error ⟨raw⟩

/-- The settings with what the command line asks for. -/
def override (s : Settings) (line : CommandLine) : Except BadDefinition Settings :=
  line.vars.foldlM define
    { s with
      errorMode := line.errorMode.getD s.errorMode
      collectStats := s.collectStats || line.stats
      verbosity := max s.verbosity line.verbose }

end Settings

end RecordQuery
