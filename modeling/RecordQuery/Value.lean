import RecordQuery.Json

/-!
# Values

What a query computes. Numbers are either 64-bit integers or binary64 numbers; the two kinds stay
apart but compare by what they stand for. The members of an object ascend by their keys
(`Canonical`), which every operation keeps.
-/

namespace RecordQuery

/-- A value of the query language. -/
inductive Value where
  | null
  | bool (b : Bool)
  | int (i : Int64)
  | float (x : Binary64)
  | string (s : String)
  | array (items : List Value)
  | object (members : List (String × Value))

namespace Value

instance : Inhabited Value := ⟨.null⟩

/-- The kinds of value that an error can name. -/
inductive Kind where
  | null
  | boolean
  | integer
  | float
  | string
  | array
  | object
deriving DecidableEq

def Kind.name : Kind → String
  | .null => "null"
  | .boolean => "boolean"
  | .integer => "integer"
  | .float => "float"
  | .string => "string"
  | .array => "array"
  | .object => "object"

def kind : Value → Kind
  | .null => .null
  | .bool _ => .boolean
  | .int _ => .integer
  | .float _ => .float
  | .string _ => .string
  | .array _ => .array
  | .object _ => .object

def isNull : Value → Bool
  | .null => true
  | _ => false

/-- The text of a string. -/
def asString? : Value → Option String
  | .string s => some s
  | _ => none

/-- The integer of an integer value; a float is none. -/
def asInt? : Value → Option Int64
  | .int i => some i
  | _ => none

/-- How many items, members or bytes of text there are. -/
def length? : Value → Option Nat
  | .string s => some s.utf8ByteSize
  | .array items => some items.length
  | .object members => some members.length
  | _ => none

def isEmpty (v : Value) : Bool := v.length? == some 0

mutual

/-- At every depth the keys of objects ascend. -/
def Canonical : Value → Prop
  | .array items => CanonicalItems items
  | .object members => Ascending members ∧ CanonicalMembers members
  | _ => True

def CanonicalItems : List Value → Prop
  | [] => True
  | item :: rest => item.Canonical ∧ CanonicalItems rest

def CanonicalMembers : List (String × Value) → Prop
  | [] => True
  | (_, member) :: rest => member.Canonical ∧ CanonicalMembers rest

end

/-! ## Equality -/

mutual

/-- Whether two values are equal: an integer and a float are if the float is the one nearest to the
integer, a NaN equals nothing, and objects are if they have the same keys with equal members. -/
def equal : Value → Value → Bool
  | .null, .null => true
  | .bool a, .bool b => a == b
  | .int a, .int b => a == b
  | .float a, .float b => a.numericEq b
  | .int a, .float b => (Binary64.ofInt a.toInt).numericEq b
  | .float a, .int b => a.numericEq (Binary64.ofInt b.toInt)
  | .string a, .string b => a == b
  | .array a, .array b => equalItems a b
  | .object a, .object b => a.length == b.length && equalMembers a b
  | _, _ => false

def equalItems : List Value → List Value → Bool
  | [], [] => true
  | a :: as, b :: bs => equal a b && equalItems as bs
  | _, _ => false

/-- Every member on the left has an equal one of its key on the right. -/
def equalMembers : List (String × Value) → List (String × Value) → Bool
  | [], _ => true
  | (key, a) :: as, others =>
    (match others.lookup key with
      | some b => equal a b
      | none => false) && equalMembers as others

end

instance : BEq Value := ⟨equal⟩

end Value

end RecordQuery
