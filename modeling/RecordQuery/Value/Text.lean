import RecordQuery.Value

/-!
# The text of values

How a value is shown in descriptions and messages: strings between quotes but not escaped, numbers in
plain notation, the members of an object by ascending key. `rawText` leaves the quotes of a string
out.
-/

namespace RecordQuery.Value

/-- Texts of parts, separated by a comma and a blank. -/
def commaSeparated (parts : List String) : String := ", ".intercalate parts

mutual

/-- The text of a value. -/
def text : Value → String
  | .null => "null"
  | .bool b => if b then "true" else "false"
  | .int i => toString i.toInt
  | .float x => Binary64.plainLayout.render x
  | .string s => "\"" ++ s ++ "\""
  | .array items => "[" ++ commaSeparated (textItems items) ++ "]"
  | .object members =>
    "\x7b" ++ commaSeparated ((ascendingEntries (textMembers members)).map fun (key, member) =>
      "\"" ++ key ++ "\": " ++ member) ++ "\x7d"

def textItems : List Value → List String
  | [] => []
  | item :: rest => item.text :: textItems rest

def textMembers : List (String × Value) → List (String × String)
  | [] => []
  | (key, member) :: rest => (key, member.text) :: textMembers rest

end

/-- The text of a value, of a string without quotes. -/
def rawText : Value → String
  | .string s => s
  | v => v.text

end RecordQuery.Value
