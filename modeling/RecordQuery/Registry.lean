import RecordQuery.Query.Builder
import RecordQuery.Table

/-!
# Registries

A registry knows functions and methods by name. Each entry declares its parameters; `checkArgs` holds
the arguments of a call against them before the constructor is run.
-/

namespace RecordQuery

/-- A declared parameter. -/
structure Param where
  name : String
  kind : ParamKind
  /-- It may be left out. -/
  isOptional : Bool := false
  /-- Its argument may be a query. -/
  isDynamic : Bool := false
deriving DecidableEq

/-- Holds arguments against the parameters at their places: the error of the leftmost that does not
fit. -/
def checkKinds (name : String) : List Param → List Arg → Except Error Unit
  | param :: params, arg :: args =>
    match arg with
    | .query _ =>
      if param.isDynamic then checkKinds name params args
      else .error (.invalidArguments name (.mustBeLiteral param.name))
    | .value v =>
      if param.kind.accepts v then checkKinds name params args
      else .error (.invalidArguments name (.wrongKind param.kind param.name v.kind))
  | _, _ => .ok ()

/-- How many parameters need an argument. -/
def requiredCount (params : List Param) : Nat := params.countP fun param => !param.isOptional

/-- Holds arguments against parameters: first their number, then their kinds from the left. -/
def checkArgs (name : String) (params : List Param) (args : List Arg) : Except Error Unit :=
  if args.length < requiredCount params ∨ params.length < args.length then
    .error (.invalidArguments name (.arity (requiredCount params) params.length args.length))
  else checkKinds name params args

/-- A function as a registry knows it. -/
structure FunctionEntry where
  params : List Param
  build : List Arg → Build Query

/-- A method as a registry knows it. -/
structure MethodEntry where
  params : List Param
  build : Query → List Arg → Build Query

/-- The functions and the methods that can be called by name. -/
structure Registry where
  functions : Table FunctionEntry := .empty
  methods : Table MethodEntry := .empty

namespace Registry

def empty : Registry := {}

/-- Registers a function, in place of one of the same name. -/
def registerFunction (r : Registry) (name : String) (params : List Param) (build : List Arg → Build Query) :
    Registry :=
  { r with functions := r.functions.put name ⟨params, build⟩ }

/-- Registers a method, in place of one of the same name. -/
def registerMethod (r : Registry) (name : String) (params : List Param)
    (build : Query → List Arg → Build Query) : Registry :=
  { r with methods := r.methods.put name ⟨params, build⟩ }

def hasFunction (r : Registry) (name : String) : Bool := r.functions.contains name

def hasMethod (r : Registry) (name : String) : Bool := r.methods.contains name

def functionNames (r : Registry) : List String := r.functions.names

def methodNames (r : Registry) : List String := r.methods.names

def functionCount (r : Registry) : Nat := r.functions.size

/-- The message about a call that is built. -/
def noteCall (action name : String) (args : List Arg) : Build Unit :=
  Build.note .debug .registry
    (action ++ " '" ++ name ++ "' with " ++ toString args.length ++ " args")

/-- Builds a call of a function. -/
def initFunction (r : Registry) (name : String) (args : List Arg) : Build Query :=
  match r.functions.find? name with
  | none => throw (.unknownFunction name)
  | some entry => do
    liftExcept (checkArgs name entry.params args)
    noteCall "constructing function" name args
    entry.build args

/-- Builds a call of a method on a receiver. -/
def initMethod (r : Registry) (name : String) (receiver : Query) (args : List Arg) : Build Query :=
  match r.methods.find? name with
  | none => throw (.unknownMethod name)
  | some entry => do
    liftExcept (checkArgs name entry.params args)
    noteCall "binding method" name args
    entry.build receiver args

/-! ## The standard registry -/

/-- The standard functions. -/
def standardFunctions : List (String × FunctionEntry) :=
  [("batch_index", ⟨[], Query.buildBatchIndex⟩),
    ("batch_size", ⟨[], Query.buildBatchSize⟩),
    ("content", ⟨[], Query.buildContent⟩),
    ("count", ⟨[{ name := "name", kind := .string }], Query.buildCount⟩),
    ("env", ⟨[{ name := "name", kind := .string, isDynamic := true }], Query.buildEnv⟩),
    ("json", ⟨[{ name := "path", kind := .string, isOptional := true }], Query.buildJson⟩),
    ("meta", ⟨[{ name := "key", kind := .string, isOptional := true, isDynamic := true }], Query.buildMeta⟩),
    ("random_int",
      ⟨[{ name := "seed", kind := .int, isOptional := true, isDynamic := true }], Query.buildRandomInt⟩),
    ("throw", ⟨[{ name := "message", kind := .string, isDynamic := true }], Query.buildThrow⟩),
    ("timestamp_unix", ⟨[], Query.buildUnixTime⟩),
    ("timestamp_unix_nano", ⟨[], Query.buildUnixNanoTime⟩),
    ("timestamp_utc", ⟨[{ name := "format", kind := .string, isOptional := true }], Query.buildUtcTime⟩),
    ("uuid_v4", ⟨[], Query.buildUuid⟩),
    ("var", ⟨[{ name := "name", kind := .string, isDynamic := true }], Query.buildVar⟩)]

/-- The standard methods. -/
def standardMethods : List (String × MethodEntry) :=
  [("apply", ⟨[{ name := "name", kind := .string }], Query.buildApply⟩),
    ("catch", ⟨[{ name := "fallback", kind := .any, isDynamic := true }], Query.buildCatch⟩),
    ("from", ⟨[{ name := "index", kind := .int, isDynamic := true }], Query.buildFrom⟩),
    ("get", ⟨[{ name := "path", kind := .string }], Query.buildGet⟩),
    ("lowercase", ⟨[], Query.buildLowercase⟩),
    ("or", ⟨[{ name := "fallback", kind := .any, isDynamic := true }], Query.buildOr⟩),
    ("uppercase", ⟨[], Query.buildUppercase⟩)]

/-- The registry of all standard functions and methods. -/
def standard : Registry := ⟨.ofEntries standardFunctions, .ofEntries standardMethods⟩

/-- The message about a registry that is ready for use. -/
def announcement (r : Registry) : LogEntry :=
  ⟨.debug, .registry,
    "registered " ++ toString r.functions.size ++ " functions and " ++ toString r.methods.size ++ " methods"⟩

end Registry

end RecordQuery
