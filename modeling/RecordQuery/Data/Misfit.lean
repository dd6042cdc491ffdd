import RecordQuery.Json
import RecordQuery.Text.Quoted

/-!
# Misfits

How a document tree can fail to be what a reader of it expects, with the wording of each.
-/

namespace RecordQuery

/-- A way in which a tree is not what is expected. -/
inductive Misfit where
  | wrongType (found expected : String)
  | wrongValue (found expected : String)
  | wrongLength (length : Nat) (expected : String)
  | unknownField (name : String) (known : List String)
  | missingField (name : String)
  | duplicateField (name : String)
  | unknownVariant (name : String) (known : List String)
  | outOfRange
deriving DecidableEq

namespace Misfit

/-- A name between the marks of names. -/
def marked (name : String) : String := "`" ++ name ++ "`"

/-- A choice between names. -/
def oneOf : List String → String
  | [a] => marked a
  | [a, b] => marked a ++ " or " ++ marked b
  | names => "one of " ++ ", ".intercalate (names.map marked)

def message : Misfit → String
  | .wrongType found expected => "invalid type: " ++ found ++ ", expected " ++ expected
  | .wrongValue found expected => "invalid value: " ++ found ++ ", expected " ++ expected
  | .wrongLength length expected => "invalid length " ++ toString length ++ ", expected " ++ expected
  | .unknownField name known => "unknown field " ++ marked name ++ ", expected " ++ oneOf known
  | .missingField name => "missing field " ++ marked name
  | .duplicateField name => "duplicate field " ++ marked name
  | .unknownVariant name known => "unknown variant " ++ marked name ++ ", expected " ++ oneOf known
  | .outOfRange => "number out of range"

/-- Too few items for a structure that is written as a list. -/
def tooShort (length : Nat) (structureName : String) (fields : Nat) : Misfit :=
  .wrongLength length (structureName ++ " with " ++ toString fields ++ " elements")

end Misfit

/-- How a number is named where another type is expected. -/
def JsonNumber.found : JsonNumber → String
  | .float x _ => "floating point " ++ Misfit.marked (Binary64.jsonLayout.render x)
  | n => "integer " ++ Misfit.marked n.write

/-- How a tree is named where another type is expected. -/
def Data.found : Data → String
  | .null => "null"
  | .bool b => "boolean " ++ Misfit.marked (if b then "true" else "false")
  | .number n => n.found
  | .outOfRange _ => "number out of range"
  | .nonFinite x => "floating point " ++ Misfit.marked (Binary64.jsonLayout.render x)
  | .string s => "string " ++ Quoted.quote s
  | .array _ => "sequence"
  | .object _ => "map"

namespace Data

/-- Everything in a tree can be read. -/
def expectWithin (reach : Reach) (data : Data) : Except Misfit Unit :=
  if data.within reach then .ok () else .error .outOfRange

/-- A string, or the misfit that it is none. -/
def expectString : Data → Except Misfit String
  | .string s => .ok s
  | data => .error (.wrongType data.found "a string")

/-- A truth value, or the misfit that it is none. -/
def expectBool : Data → Except Misfit Bool
  | .bool b => .ok b
  | data => .error (.wrongType data.found "a boolean")

/-- A number as a byte. -/
def byteOfNumber (n : JsonNumber) : Except Misfit UInt8 :=
  match n with
  | .natural k => if k < 256 then .ok k.toUInt8 else .error (.wrongValue n.found "u8")
  | .negative .. => .error (.wrongValue n.found "u8")
  | .float .. => .error (.wrongType n.found "u8")

/-- A byte, or the misfit that it is none. -/
def expectByte : Data → Except Misfit UInt8
  | .number n => byteOfNumber n
  | data => .error (.wrongType data.found "u8")

/-- What null leaves out. -/
def optional {α : Type} (expect : Data → Except Misfit α) : Data → Except Misfit (Option α)
  | .null => .ok none
  | data => (expect data).map some

end Data

end RecordQuery
