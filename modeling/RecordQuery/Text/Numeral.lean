/-!
# Decimal numerals

Integers written as one or more ASCII digits behind an optional sign. What is out of the range of the
type is no numeral of it.
-/

namespace RecordQuery.Numeral

/-- The value of some digits, of which there is at least one. -/
def digits? (text : List Char) : Option Nat :=
  if text ≠ [] ∧ text.all Char.isDigit then
    some (text.foldl (fun value c => 10 * value + (c.toNat - '0'.toNat)) 0)
  else none

/-- The integer that a text writes, with either sign. -/
def integer? (text : String) : Option Int :=
  match text.toList with
  | '-' :: digits => (digits? digits).map fun n => -Int.ofNat n
  | '+' :: digits => (digits? digits).map Int.ofNat
  | digits => (digits? digits).map Int.ofNat

/-- The signed 64-bit integer that a text writes. -/
def int64? (text : String) : Option Int64 :=
  (integer? text).bind fun i =>
    if Int64.minValue.toInt ≤ i ∧ i ≤ Int64.maxValue.toInt then some (Int64.ofInt i) else none

/-- The position that a text writes: an unsigned 64-bit integer, which has no minus sign. -/
def position? (text : String) : Option Nat :=
  let digits := match text.toList with
    | '+' :: digits => digits
    | digits => digits
  (digits? digits).bind fun n => if n < UInt64.size then some n else none

end RecordQuery.Numeral
