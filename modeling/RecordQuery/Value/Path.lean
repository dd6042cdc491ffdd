import RecordQuery.Error
import RecordQuery.Text.Numeral

/-!
# Paths into values

A path is a list of segments, written with dots between them. Two walks follow one: `fieldPath` is
lenient, a missing key gives null and a segment spreads over the items of an array unless it is an
index; `lookupPath` is strict, every segment must be there.
-/

namespace RecordQuery

/-- The segments between the dots of a list of characters; at least one. -/
def splitDots : List Char → List (List Char)
  | [] => [[]]
  | c :: rest =>
    if c = '.' then [] :: splitDots rest
    else match splitDots rest with
      | [] => [[c]]
      | segment :: more => (c :: segment) :: more

/-- The segments of a dotted path; the empty path has none. -/
def splitPath (path : String) : List String :=
  if path = "" then [] else (splitDots path.toList).map String.ofList

/-- Segments with dots between them. -/
def joinPath (segments : List String) : String := ".".intercalate segments

namespace Value

/-- The item of an array at an index, which counts from the end if it is negative. There is none
outside the array, nor in null. -/
def index (v : Value) (i : Int64) : Except Error Value :=
  match v with
  | .array items =>
    let count := Int64.ofNat items.length
    let place := if i < 0 then count + i else i
    .ok (if 0 ≤ place ∧ place < count then items[place.toInt.toNat]?.getD .null else .null)
  | .null => .ok .null
  | v => .error (.mismatch "array" v)

mutual

/-- The member of an object under a key, null if there is none; of an array, the item at the index that
the key writes, or else the members of all its items. -/
def field (key : String) : Value → Except Error Value
  | .null => .ok .null
  | .object members => .ok ((members.lookup key).getD .null)
  | .array items =>
    match Numeral.int64? key with
    | some i => (Value.array items).index i
    | none => (fieldItems key items).map .array
  | .bool b => .error (.mismatch "object" (.bool b))
  | .int i => .error (.mismatch "object" (.int i))
  | .float x => .error (.mismatch "object" (.float x))
  | .string s => .error (.mismatch "object" (.string s))

def fieldItems (key : String) : List Value → Except Error (List Value)
  | [] => .ok []
  | item :: rest => do
    let head ← field key item
    let tail ← fieldItems key rest
    .ok (head :: tail)

end

/-- Follows a path leniently. -/
def fieldPath (v : Value) (segments : List String) : Except Error Value :=
  segments.foldlM (fun v key => v.field key) v

/-- Follows the segments that are left of a path strictly; an error of a missing one names the whole
path. -/
def lookupFrom (path : String) (v : Value) : List String → Except Error Value
  | [] => .ok v
  | key :: rest =>
    match v with
    | .object members =>
      match members.lookup key with
      | some member => lookupFrom path member rest
      | none => .error (.pathNotFound path)
    | .array items =>
      match (Numeral.position? key).bind (items[·]?) with
      | some item => lookupFrom path item rest
      | none => .error (.pathNotFound path)
    | v => .error (.mismatch "object" v)

/-- Follows a path strictly. -/
def lookupPath (v : Value) (segments : List String) : Except Error Value :=
  lookupFrom (joinPath segments) v segments

end Value

end RecordQuery
