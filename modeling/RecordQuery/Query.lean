import RecordQuery.Value.Path
import RecordQuery.Value.Text

/-!
# Query trees

A query is a tree of functions and of methods on their results. An argument is a literal, fixed when
the query is built, or a query that is evaluated on every call. The instances of counters and of
random generators have a cell each in which their progress is kept; everything else in a tree is
immutable.
-/

namespace RecordQuery

/-- The two cases that letters can be changed to. -/
inductive LetterCase where
  | upper
  | lower
deriving DecidableEq

mutual

/-- A query. -/
inductive Query where
  | literal (value : Value)
  /-- A lenient path into the bound value or else the body of the record. -/
  | field (path : List String)
  /-- A strict path into the body of the record. -/
  | json (path : List String)
  /-- The body of the record as text. -/
  | content
  | batchIndex
  | batchSize
  /-- A counter, which its label only describes. -/
  | count (label : String) (cell : Nat)
  /-- A variable of the environment. -/
  | env (name : Arg)
  /-- All metadata of the record. -/
  | metadata
  | metadataAt (key : Arg)
  /-- A random integer, from a generator that starts anywhere. -/
  | randomInt (cell : Nat)
  /-- A random integer: with a literal seed from a generator of its own, else from the seed alone. -/
  | randomIntFrom (seed : Arg) (cell : Nat)
  /-- Always fails. -/
  | throwing (message : Arg)
  | unixTime
  | unixNanoTime
  /-- The time by a pattern, or in the standard form. -/
  | utcTime (pattern : Option String)
  | uuid
  | var (name : Arg)
  /-- A named map on the receiver's result. -/
  | apply (receiver : Query) (map : String)
  /-- The fallback where the receiver fails. -/
  | catching (receiver : Query) (fallback : Arg)
  /-- The fallback where the receiver fails or gives null. -/
  | orElse (receiver : Query) (fallback : Arg)
  /-- The receiver at another record of the batch. -/
  | atRecord (receiver : Query) (index : Arg)
  /-- A lenient path into the receiver's result. -/
  | get (receiver : Query) (path : List String)
  | inCase (receiver : Query) (letters : LetterCase)

/-- An argument of a function or method. -/
inductive Arg where
  | value (v : Value)
  | query (q : Query)

end

instance : Inhabited Query := ⟨.literal .null⟩

instance : Inhabited Arg := ⟨.value .null⟩

/-! ## Descriptions -/

/-- A call with its arguments. -/
def describeCall (name : String) (args : List String) : String :=
  name ++ "(" ++ Value.commaSeparated args ++ ")"

/-- A call of a method on a receiver. -/
def describeMethod (receiver name : String) (args : List String) : String :=
  receiver ++ "." ++ describeCall name args

/-- A text between quotes, as descriptions show it. -/
def inQuotes (s : String) : String := (Value.string s).text

def LetterCase.methodName : LetterCase → String
  | .upper => "uppercase"
  | .lower => "lowercase"

mutual

/-- What a query does, in the notation of calls. -/
def Query.describe : Query → String
  | .literal value => "literal: " ++ value.text
  | .field path => if path = [] then "this" else "this." ++ joinPath path
  | .json path => describeCall "json" [inQuotes (joinPath path)]
  | .content => describeCall "content" []
  | .batchIndex => describeCall "batch_index" []
  | .batchSize => describeCall "batch_size" []
  | .count label _ => describeCall "count" [inQuotes label]
  | .env name => describeCall "env" [name.describe]
  | .metadata => describeCall "meta" []
  | .metadataAt key => describeCall "meta" [key.describe]
  | .randomInt _ => describeCall "random_int" []
  | .randomIntFrom seed _ => describeCall "random_int" [seed.describe]
  | .throwing message => describeCall "throw" [message.describe]
  | .unixTime => describeCall "timestamp_unix" []
  | .unixNanoTime => describeCall "timestamp_unix_nano" []
  | .utcTime none => describeCall "timestamp_utc" []
  | .utcTime (some pattern) => describeCall "timestamp_utc" [inQuotes pattern]
  | .uuid => describeCall "uuid_v4" []
  | .var name => describeCall "var" [name.describe]
  | .apply receiver map => describeMethod receiver.describe "apply" [inQuotes map]
  | .catching receiver fallback => describeMethod receiver.describe "catch" [fallback.describe]
  | .orElse receiver fallback => describeMethod receiver.describe "or" [fallback.describe]
  | .atRecord receiver index => describeMethod receiver.describe "from" [index.describe]
  | .get receiver path => describeMethod receiver.describe "get" [inQuotes (joinPath path)]
  | .inCase receiver letters => describeMethod receiver.describe letters.methodName []

def Arg.describe : Arg → String
  | .value v => v.text
  | .query q => q.describe

end

/-- Whether an argument is evaluated on every call. -/
def Arg.isDynamic : Arg → Bool
  | .value _ => false
  | .query _ => true

end RecordQuery
