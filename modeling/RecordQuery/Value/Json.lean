import RecordQuery.Error
import RecordQuery.Json.Writer
import RecordQuery.Json.Reader

/-!
# Values and JSON

Every JSON value is a value: a number is an integer if it fits 64 bits with sign, else a float. A value
is a JSON value unless a NaN or an infinity stands in it. `write` gives the text in which results
leave the program; there such a number is null, and the members of an object ascend by their quoted
keys, where a world does not give them another order.
-/

namespace RecordQuery.Value

/-- The number as a value. -/
def ofJsonNumber : JsonNumber → Value
  | .natural n =>
    if Int.ofNat n.toNat ≤ Int64.maxValue.toInt then .int (Int64.ofNat n.toNat)
    else .float (Binary64.ofInt (Int.ofNat n.toNat))
  | .negative i _ => .int i
  | .float x _ => .float x

mutual

/-- The value of a JSON value. -/
def ofJson : Json → Value
  | .null => .null
  | .bool b => .bool b
  | .number n => ofJsonNumber n
  | .string s => .string s
  | .array items => .array (ofJsonItems items)
  | .object members => .object (ofJsonMembers members)

def ofJsonItems : List Json → List Value
  | [] => []
  | item :: rest => ofJson item :: ofJsonItems rest

def ofJsonMembers : List (String × Json) → List (String × Value)
  | [] => []
  | (key, member) :: rest => (key, ofJson member) :: ofJsonMembers rest

end

/-- An integer as a JSON number. -/
def jsonInt (i : Int64) : JsonNumber :=
  if below : i < 0 then .negative i below else .natural i.toUInt64

/-- A float as a JSON number. -/
def jsonFloat (x : Binary64) : Except Error JsonNumber :=
  match JsonNumber.ofFloat? x with
  | some n => .ok n
  | none => .error (.json ("invalid float: " ++ Binary64.plainLayout.render x))

mutual

/-- The JSON value of a value. -/
def toJson : Value → Except Error Json
  | .null => .ok .null
  | .bool b => .ok (.bool b)
  | .int i => .ok (.number (jsonInt i))
  | .float x => (jsonFloat x).map .number
  | .string s => .ok (.string s)
  | .array items => (toJsonItems items).map .array
  | .object members => (toJsonMembers members).map .object

def toJsonItems : List Value → Except Error (List Json)
  | [] => .ok []
  | item :: rest => do
    let head ← item.toJson
    let tail ← toJsonItems rest
    .ok (head :: tail)

def toJsonMembers : List (String × Value) → Except Error (List (String × Json))
  | [] => .ok []
  | (key, member) :: rest => do
    let head ← member.toJson
    let tail ← toJsonMembers rest
    .ok ((key, head) :: tail)

end

mutual

/-- The text of a value as a result. -/
def write : Value → String
  | .null => "null"
  | .bool b => if b then "true" else "false"
  | .int i => toString i.toInt
  | .float x => if x.isFinite then Binary64.jsonLayout.render x else "null"
  | .string s => Json.quote s
  | .array items => Json.writeArray (writeItems items)
  | .object members => Json.writeObject (ascendingEntries (writeMembers members))

def writeItems : List Value → List String
  | [] => []
  | item :: rest => item.write :: writeItems rest

def writeMembers : List (String × Value) → List (String × String)
  | [] => []
  | (key, member) :: rest => (Json.quote key, member.write) :: writeMembers rest

end

/-- The value of a JSON text. -/
def parse (text : Bytes) : Except Error Value :=
  match JsonText.parse text with
  | .ok data => .ok (ofJson data.toJson)
  | .error failure => .error (.json (failure.message text))

end RecordQuery.Value
