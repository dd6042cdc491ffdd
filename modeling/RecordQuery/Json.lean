import RecordQuery.Binary64.Decimal
import RecordQuery.Table

/-!
# JSON values

`Json` is a JSON value with its meaning: an object is a finite map, kept in ascending order of its
keys, and a number is a natural or a negative integer of 64 bits or a finite binary64 number. `Data`
is what a text or a file says before that: members in the order written, keys perhaps repeated, and
the numbers that no JSON value holds, which TOML can write. `Data.toJson` gives it its meaning.
-/

namespace RecordQuery

/-- A number as JSON values hold it. -/
inductive JsonNumber where
  | natural (n : UInt64)
  | negative (i : Int64) (below : i < 0)
  | float (x : Binary64) (finite : x.isFinite = true)
deriving DecidableEq

/-- A JSON value. -/
inductive Json where
  | null
  | bool (b : Bool)
  | number (n : JsonNumber)
  | string (s : String)
  | array (items : List Json)
  | object (members : List (String × Json))

instance : Inhabited Json := ⟨.null⟩

/-- A document tree as it is written. -/
inductive Data where
  | null
  | bool (b : Bool)
  | number (n : JsonNumber)
  /-- A NaN or an infinity. -/
  | nonFinite (x : Binary64)
  /-- A number that 64 bits do not hold: an integer of 128 bits, or one that is larger still. -/
  | outOfRange (within128 : Bool)
  | string (s : String)
  | array (items : List Data)
  | object (members : List (String × Data))

namespace JsonNumber

/-- The number for an integer: exact where 64 bits hold it, else the nearest float. Overflow of the
float gives nothing. -/
def ofInt? (i : Int) : Option JsonNumber :=
  if 0 ≤ i ∧ i < Int.ofNat UInt64.size then some (.natural (UInt64.ofNat i.toNat))
  else if below : Int64.ofInt i < 0 ∧ Int64.minValue.toInt ≤ i ∧ i < 0 then some (.negative (Int64.ofInt i) below.1)
  else
    let x := Binary64.ofInt i
    if finite : x.isFinite = true then some (.float x finite) else none

/-- The number for a float, if it is finite. -/
def ofFloat? (x : Binary64) : Option JsonNumber :=
  if finite : x.isFinite = true then some (.float x finite) else none

/-- The JSON text of a number. -/
def write : JsonNumber → String
  | .natural n => toString n.toNat
  | .negative i _ => toString i.toInt
  | .float x _ => Binary64.jsonLayout.render x

end JsonNumber

mutual

/-- The meaning of a tree: of members with one key the last counts, and a number that no JSON value
holds is null. -/
def Data.toJson : Data → Json
  | .null => .null
  | .bool b => .bool b
  | .number n => .number n
  | .nonFinite _ | .outOfRange _ => .null
  | .string s => .string s
  | .array items => .array (Data.toJsonItems items)
  | .object members => .object (ascendingEntries (Data.toJsonMembers members))

def Data.toJsonItems : List Data → List Json
  | [] => []
  | item :: rest => item.toJson :: Data.toJsonItems rest

def Data.toJsonMembers : List (String × Data) → List (String × Json)
  | [] => []
  | (key, member) :: rest => (key, member.toJson) :: Data.toJsonMembers rest

end

/-- Which numbers out of range a reader of a tree puts up with. -/
inductive Reach where
  /-- A reader that keeps what it reads: none. -/
  | kept
  /-- A reader that passes over what it reads: integers of 128 bits. -/
  | passedOver
deriving DecidableEq

mutual

/-- No number in a tree is out of reach. -/
def Data.within (reach : Reach) : Data → Bool
  | .outOfRange within128 => within128 && reach == .passedOver
  | .array items => Data.itemsWithin reach items
  | .object members => Data.membersWithin reach members
  | .null | .bool _ | .number _ | .nonFinite _ | .string _ => true

def Data.itemsWithin (reach : Reach) : List Data → Bool
  | [] => true
  | item :: rest => item.within reach && Data.itemsWithin reach rest

def Data.membersWithin (reach : Reach) : List (String × Data) → Bool
  | [] => true
  | (_, member) :: rest => member.within reach && Data.membersWithin reach rest

end

mutual

/-- A JSON value as a tree that writes it. -/
def Json.toData : Json → Data
  | .null => .null
  | .bool b => .bool b
  | .number n => .number n
  | .string s => .string s
  | .array items => .array (Json.toDataItems items)
  | .object members => .object (Json.toDataMembers members)

def Json.toDataItems : List Json → List Data
  | [] => []
  | item :: rest => item.toData :: Json.toDataItems rest

def Json.toDataMembers : List (String × Json) → List (String × Data)
  | [] => []
  | (key, member) :: rest => (key, member.toData) :: Json.toDataMembers rest

end

end RecordQuery
