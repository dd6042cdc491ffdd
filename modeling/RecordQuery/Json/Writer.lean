import RecordQuery.Json

/-!
# JSON text

The compact text of JSON values: no blanks, the members of an object in their order. In a string a
quote, a backslash and the controls are escaped, all else stands as it is.
-/

namespace RecordQuery.Json

/-- A character inside a string. -/
def escapeChar (c : Char) : List Char :=
  if c = '"' then ['\\', '"']
  else if c = '\\' then ['\\', '\\']
  else if c = '\n' then ['\\', 'n']
  else if c = '\r' then ['\\', 'r']
  else if c = '\t' then ['\\', 't']
  else if c.toNat = 0x08 then ['\\', 'b']
  else if c.toNat = 0x0C then ['\\', 'f']
  else if c.toNat < 0x20 then
    ['\\', 'u', '0', '0', Nat.digitChar (c.toNat / 16), Nat.digitChar (c.toNat % 16)]
  else [c]

/-- The JSON text of a string. -/
def quote (s : String) : String := String.ofList ('"' :: (s.toList.flatMap escapeChar ++ ['"']))

/-- The texts of the items of an array. -/
def writeArray (items : List String) : String := "[" ++ ",".intercalate items ++ "]"

/-- The members of an object, given by their quoted keys and the texts of their values. -/
def writeObject (members : List (String × String)) : String :=
  "\x7b" ++ ",".intercalate (members.map fun (key, value) => key ++ ":" ++ value) ++ "\x7d"

mutual

/-- The compact text of a value. -/
def write : Json → String
  | .null => "null"
  | .bool b => if b then "true" else "false"
  | .number n => n.write
  | .string s => quote s
  | .array items => writeArray (writeItems items)
  | .object members => writeObject (writeMembers members)

def writeItems : List Json → List String
  | [] => []
  | item :: rest => item.write :: writeItems rest

def writeMembers : List (String × Json) → List (String × String)
  | [] => []
  | (key, member) :: rest => (quote key, member.write) :: writeMembers rest

end

end RecordQuery.Json
