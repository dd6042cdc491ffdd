import RecordQuery.Registry
import RecordQuery.Value.Json

/-!
# Query documents

A document holds a query and named maps as trees of names and literals. `Document.build` resolves the
names through a registry and gives the query trees that they stand for.
-/

namespace RecordQuery

mutual

/-- A node of a document: one of a function's name, a dotted path and a literal, the arguments of the
function, and methods that are applied to the result in order. -/
structure QuerySpec where
  function : Option String
  field : Option String
  literal : Option Json
  args : List ArgSpec
  methods : List MethodSpec

/-- An argument in a document. -/
inductive ArgSpec where
  /-- A query that is evaluated on every call. -/
  | nested (query : QuerySpec)
  | literal (json : Json)

/-- A method in a document. -/
structure MethodSpec where
  name : String
  args : List ArgSpec

end

/-- A main query, and maps that can be applied by name. -/
structure Document where
  query : QuerySpec
  maps : Table QuerySpec

mutual

/-- Builds a node: its arguments from the left, then the call, then every method in turn. -/
def QuerySpec.build (r : Registry) : QuerySpec → Build Query
  | ⟨function, field, literal, args, methods⟩ => do
    let q ← match function, field, literal with
      | some name, none, none => do
        let args ← buildArgs r args
        r.initFunction name args
      | none, some path, none =>
        if args.isEmpty then pure (Query.ofField path) else Build.refuse "query" .form
      | none, none, some json =>
        if args.isEmpty then pure (Query.literal (Value.ofJson json)) else Build.refuse "query" .form
      | _, _, _ => Build.refuse "query" .form
    buildMethods r q methods

/-- Builds an argument. -/
def ArgSpec.build (r : Registry) : ArgSpec → Build Arg
  | .nested query => do pure (.query (← query.build r))
  | .literal json => pure (.value (Value.ofJson json))

/-- Builds arguments from the left. -/
def buildArgs (r : Registry) : List ArgSpec → Build (List Arg)
  | [] => pure []
  | arg :: rest => do
    let head ← arg.build r
    let tail ← buildArgs r rest
    pure (head :: tail)

/-- Builds a method on a receiver. -/
def MethodSpec.build (r : Registry) (receiver : Query) : MethodSpec → Build Query
  | ⟨name, args⟩ => do
    let args ← buildArgs r args
    r.initMethod name receiver args

/-- Builds methods, each on what the one before gives. -/
def buildMethods (r : Registry) (receiver : Query) : List MethodSpec → Build Query
  | [] => pure receiver
  | method :: rest => do
    let receiver ← method.build r receiver
    buildMethods r receiver rest

end

/-- Builds named nodes in order. -/
def buildMaps (r : Registry) : List (String × QuerySpec) → Build (List (String × Query))
  | [] => pure []
  | (name, spec) :: rest => do
    let q ← spec.build r
    let tail ← buildMaps r rest
    pure ((name, q) :: tail)

/-- Builds the main query, then every map. -/
def Document.build (d : Document) (r : Registry) : Build (Query × Table Query) := do
  let q ← d.query.build r
  let maps ← buildMaps r d.maps.entries
  pure (q, .ofEntries maps)

end RecordQuery
