import RecordQuery.Query

/-!
# Targets

What a query may read, found without evaluating it: paths into the body of a record or the bound
value, metadata and variables. The analysis walks the tree and, at an application, the body of the
named map, except while that body is already being walked further up, where it could add nothing new.
-/

namespace RecordQuery

/-- Where a target lies. -/
inductive Storage where
  | value
  | metadata
  | variable
deriving DecidableEq

def Storage.name : Storage → String
  | .value => "Value"
  | .metadata => "Metadata"
  | .variable => "Variable"

/-- A place that may be read; no segments stand for the whole body or all metadata. -/
structure Target where
  storage : Storage
  path : List String
deriving DecidableEq

/-- What an analysis is made in: the named maps, and those of them whose bodies are being walked. -/
structure Scope where
  maps : Table Query := .empty
  expanding : List String := []

namespace Scope

/-- The scope for the body of a named map. -/
def entering (scope : Scope) (map : String) : Scope := { scope with expanding := map :: scope.expanding }

end Scope

/-- Targets found, and the scope in which the analysis goes on. -/
abbrev Survey := Scope × List Target

mutual

/-- The targets of a query, where `enter` walks the body of a named map. -/
def Query.targetsWith (enter : Query → Scope → Survey) : Query → Scope → Survey
  | .field path, scope => (scope, [⟨.value, path⟩])
  | .json path, scope => (scope, [⟨.value, path⟩])
  | .content, scope => (scope, [⟨.value, []⟩])
  | .metadata, scope => (scope, [⟨.metadata, []⟩])
  | .metadataAt (.value (.string key)), scope => (scope, [⟨.metadata, [key]⟩])
  | .metadataAt key, scope => key.targetsWith enter scope
  | .var (.value (.string name)), scope => (scope, [⟨.variable, [name]⟩])
  | .var name, scope => name.targetsWith enter scope
  | .env name, scope => name.targetsWith enter scope
  | .randomIntFrom seed _, scope => seed.targetsWith enter scope
  | .throwing message, scope => message.targetsWith enter scope
  | .apply receiver map, scope =>
    let (scope, found) := receiver.targetsWith enter scope
    if scope.expanding.contains map then (scope, found)
    else match scope.maps.find? map with
      | none => (scope, found)
      | some body => (scope, found ++ (enter body (scope.entering map)).2)
  | .catching receiver fallback, scope =>
    let (scope, found) := receiver.targetsWith enter scope
    let (scope, more) := fallback.targetsWith enter scope
    (scope, found ++ more)
  | .orElse receiver fallback, scope =>
    let (scope, found) := receiver.targetsWith enter scope
    let (scope, more) := fallback.targetsWith enter scope
    (scope, found ++ more)
  | .atRecord receiver index, scope =>
    let (scope, found) := receiver.targetsWith enter scope
    let (scope, more) := index.targetsWith enter scope
    (scope, found ++ more)
  | .get receiver _, scope => receiver.targetsWith enter scope
  | .inCase receiver _, scope => receiver.targetsWith enter scope
  | .literal _, scope | .batchIndex, scope | .batchSize, scope | .count .., scope | .randomInt _, scope
  | .unixTime, scope | .unixNanoTime, scope | .utcTime _, scope | .uuid, scope => (scope, [])

/-- The targets of an argument; a literal has none. -/
def Arg.targetsWith (enter : Query → Scope → Survey) : Arg → Scope → Survey
  | .value _, scope => (scope, [])
  | .query q, scope => q.targetsWith enter scope

end

namespace Query

/-- The targets of a query, where the bodies of named maps nest no deeper than the bound. -/
def targetsWithin : Nat → Query → Scope → Survey
  | 0 => targetsWith fun _ scope => (scope, [])
  | bound + 1 => targetsWith (targetsWithin bound)

/-- The targets of a query. No map is walked inside itself, so bodies nest no deeper than there are
maps. -/
def targets (q : Query) (scope : Scope) : Survey := q.targetsWithin scope.maps.size scope

end Query

end RecordQuery
