import RecordQuery.Value

/-!
# Errors

What can go wrong when a query is built or evaluated, each as its cause, with the wording in
`Error.message`. The errors of building (`isConstruction`) abort the setup of a query; all others
concern one record and can be recovered from.
-/

namespace RecordQuery

/-- The kinds of literal that a parameter can ask for. -/
inductive ParamKind where
  | string
  | int
  | any
deriving DecidableEq

def ParamKind.name : ParamKind → String
  | .string => "string"
  | .int => "integer"
  | .any => "any"

def ParamKind.accepts : ParamKind → Value → Bool
  | .string, .string _ => true
  | .int, .int _ => true
  | .any, _ => true
  | _, _ => false

/-- What is wrong with the arguments of a function or method. -/
inductive Refusal where
  /-- The number of arguments is not between the two bounds. -/
  | arity (least most received : Nat)
  | mustBeLiteral (parameter : String)
  | wrongKind (expected : ParamKind) (parameter : String) (found : Value.Kind)
  | missing
  /-- No literal path, where the description of what was found is told. -/
  | pathButFound (description : String)
  | literalPath
  | literalMapName
  | literalName
  | format (pattern : String)
  | formatButFound (description : String)
  /-- A query node with none or several of its three forms, or with arguments beside no function. -/
  | form
  | stated (reason : String)
deriving DecidableEq

def Refusal.message : Refusal → String
  | .arity least most received =>
    (if least = most then
      "expected " ++ toString least ++ " argument" ++ if least = 1 then "" else "s"
    else "expected " ++ toString least ++ " to " ++ toString most ++ " arguments")
    ++ ", received " ++ toString received
  | .mustBeLiteral parameter => "argument '" ++ parameter ++ "' must be a literal"
  | .wrongKind expected parameter found =>
    "expected " ++ expected.name ++ " value for argument '" ++ parameter ++ "', found " ++ found.name
  | .missing => "missing argument"
  | .pathButFound description => "expected a literal string path, found " ++ description
  | .literalPath => "expected a literal string path"
  | .literalMapName => "expected a literal map name"
  | .literalName => "expected a literal string name"
  | .format pattern => "invalid format '" ++ pattern ++ "'"
  | .formatButFound description => "expected a string format, found " ++ description
  | .form => "expected exactly one of function, field or literal, with args only for functions"
  | .stated reason => reason

/-- An error of building or evaluating a query. -/
inductive Error where
  | unknownFunction (name : String)
  | unknownMethod (name : String)
  | invalidArguments (name : String) (refusal : Refusal)
  | undefinedVariable (name : String)
  | metadataNotFound (key : String)
  | pathNotFound (path : String)
  | typeMismatch (expected : String) (actual : Value.Kind)
  | envNotFound (name : String)
  | thrown (message : String)
  | mapNotFound (name : String)
  | indexOutOfBounds (index : Int) (length : Nat)
  | json (message : String)
deriving DecidableEq

namespace Error

def message : Error → String
  | .unknownFunction name => "unrecognised function '" ++ name ++ "'"
  | .unknownMethod name => "unrecognised method '" ++ name ++ "'"
  | .invalidArguments name refusal => name ++ ": " ++ refusal.message
  | .undefinedVariable name => "variable '" ++ name ++ "' undefined"
  | .metadataNotFound key => "metadata value '" ++ key ++ "' not found"
  | .pathNotFound path => "path '" ++ path ++ "' not found"
  | .typeMismatch expected actual => "expected " ++ expected ++ " value, found " ++ actual.name
  | .envNotFound name => "environment variable '" ++ name ++ "' not set"
  | .thrown message => message
  | .mapNotFound name => "map '" ++ name ++ "' not found"
  | .indexOutOfBounds index length =>
    "message index " ++ toString index ++ " out of bounds for batch of " ++ toString length
  | .json message => "failed to parse message as JSON: " ++ message

/-- Whether an error belongs to building a query. -/
def isConstruction : Error → Bool
  | .unknownFunction _ | .unknownMethod _ | .invalidArguments .. => true
  | _ => false

/-- A value of the wrong kind. -/
def mismatch (expected : String) (actual : Value) : Error := .typeMismatch expected actual.kind

end Error

end RecordQuery
