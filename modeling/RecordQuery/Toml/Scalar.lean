import RecordQuery.Json

/-!
# TOML scalars

Truth values, integers, floats, dates and times, each from the characters that write it. Digits may be
grouped by underscores. A number that 64 bits do not hold is still a number; it is refused where it is
read, and not where it is written.
-/

namespace RecordQuery.Toml

/-- Digits with single underscores between them, without the underscores. -/
def grouped? (isDigit : Char → Bool) (text : List Char) : Option (List Char) :=
  let pieces := text.splitOn '_'
  if pieces.all fun piece => piece ≠ [] && piece.all isDigit then some pieces.flatten else none

/-- The value of some digits in a base. -/
def valueInBase (base : Nat) (digits : List Char) : Nat :=
  digits.foldl (fun value c =>
    base * value +
      (if c.isDigit then c.toNat - '0'.toNat
      else if 'a' ≤ c then c.toNat - 'a'.toNat + 10 else c.toNat - 'A'.toNat + 10)) 0

def isHexDigit (c : Char) : Bool := c.isDigit || ('a' ≤ c && c ≤ 'f') || ('A' ≤ c && c ≤ 'F')

/-- How many numbers 128 bits hold. -/
def sizeOf128 : Nat := UInt64.size * UInt64.size

/-- An integer, in the range of 64 bits with or without sign if it is to be read. -/
def integerData (i : Int) : Data :=
  match JsonNumber.ofInt? i with
  | some (.natural n) => .number (.natural n)
  | some (.negative n below) => .number (.negative n below)
  | _ => .outOfRange (decide (-Int.ofNat (sizeOf128 / 2) ≤ i ∧ i < Int.ofNat sizeOf128))

/-- A float; one that is not finite only from its own word. -/
def floatData (x : Binary64) : Data := ((JsonNumber.ofFloat? x).map .number).getD (.outOfRange false)

/-- A sign and what follows it. -/
def splitSign : List Char → Bool × List Char
  | '-' :: rest => (true, rest)
  | '+' :: rest => (false, rest)
  | text => (false, text)

/-- Decimal digits without a zero in front. -/
def wholeDigits? (text : List Char) : Option (List Char) :=
  match grouped? Char.isDigit text with
  | some ['0'] => some ['0']
  | some ('0' :: _) => none
  | other => other

/-- A decimal integer or a float. -/
def decimal? (text : List Char) : Option Data :=
  let (negative, text) := splitSign text
  let isExponent := fun c => c == 'e' || c == 'E'
  let whole := text.takeWhile fun c => c != '.' && !isExponent c
  match wholeDigits? whole, text.drop whole.length with
  | none, _ => none
  | some digits, [] =>
    let n := Int.ofNat (valueInBase 10 digits)
    some (integerData (if negative then -n else n))
  | some digits, mark :: rest => do
    let (places, rest) ←
      if mark = '.' then do
        let places ← grouped? Char.isDigit (rest.takeWhile (!isExponent ·))
        some (places, rest.dropWhile (!isExponent ·))
      else some ([], mark :: rest)
    let scale ← match rest with
      | [] => some (0 : Int)
      | _ :: exponent => do
        let (down, exponent) := splitSign exponent
        let e := Int.ofNat (valueInBase 10 (← grouped? Char.isDigit exponent))
        some (if down then -e else e)
    some (floatData (.ofDecimal negative (valueInBase 10 (digits ++ places)) (scale - Int.ofNat places.length)))

/-! ## Dates and times -/

/-- Exactly some digits, and what follows them. -/
def digitsExactly? (count : Nat) (text : List Char) : Option (Nat × List Char) :=
  let digits := text.take count
  if digits.length = count ∧ digits.all Char.isDigit then some (valueInBase 10 digits, text.drop count)
  else none

/-- One character, and what follows it. -/
def exactly? (c : Char) : List Char → Option (List Char)
  | [] => none
  | first :: rest => if first = c then some rest else none

def isLeapYear (year : Nat) : Bool := year % 4 == 0 && (year % 100 != 0 || year % 400 == 0)

def daysInMonth (year month : Nat) : Nat :=
  if month = 2 then if isLeapYear year then 29 else 28
  else if month = 4 ∨ month = 6 ∨ month = 9 ∨ month = 11 then 30
  else 31

/-- A date, as the characters that write it. -/
def date? (text : List Char) : Option (List Char × List Char) := do
  let (year, rest) ← digitsExactly? 4 text
  let rest ← exactly? '-' rest
  let (month, rest) ← digitsExactly? 2 rest
  let rest ← exactly? '-' rest
  let (day, rest) ← digitsExactly? 2 rest
  if 1 ≤ month ∧ month ≤ 12 ∧ 1 ≤ day ∧ day ≤ daysInMonth year month then some (text.take 10, rest)
  else none

/-- A fraction of a second with what counts of it: nine digits, without zeros behind. One of zeros alone
is left out with its point. -/
def fraction? (text : List Char) : Option (List Char × List Char) :=
  let digits := text.takeWhile Char.isDigit
  if digits = [] then none
  else
    let kept := ((digits.take 9).reverse.dropWhile (· == '0')).reverse
    some (if kept = [] then [] else '.' :: kept, text.drop digits.length)

/-- A time of day. Seconds that are left out are none. -/
def time? (text : List Char) : Option (List Char × List Char) := do
  let (hour, rest) ← digitsExactly? 2 text
  let rest ← exactly? ':' rest
  let (minute, rest) ← digitsExactly? 2 rest
  if 23 < hour ∨ 59 < minute then none
  else
    match rest with
    | ':' :: rest => do
      let (second, rest) ← digitsExactly? 2 rest
      if 60 < second then none
      else
        match rest with
        | '.' :: rest => do
          let (fraction, rest) ← fraction? rest
          some (text.take 8 ++ fraction, rest)
        | rest => some (text.take 8, rest)
    | rest => some (text.take 5 ++ [':', '0', '0'], rest)

/-- An offset from UTC of less than a day, or none. -/
def offset? : List Char → Option (List Char)
  | [] => some []
  | ['Z'] | ['z'] => some ['Z']
  | sign :: rest => do
    if sign ≠ '+' ∧ sign ≠ '-' then none
    else
      let (hours, left) ← digitsExactly? 2 rest
      let left ← exactly? ':' left
      let (minutes, left) ← digitsExactly? 2 left
      if left ≠ [] ∨ 59 < minutes ∨ 23 < hours then none
      else some ((if hours = 0 ∧ minutes = 0 then '+' else sign) :: rest)

/-- A date, a time, or both with an offset, in the form in which they are handed on. -/
def dateTimeText? (text : List Char) : Option (List Char) :=
  match date? text with
  | some (date, []) => some date
  | some (date, separator :: rest) => do
    if separator ≠ 'T' ∧ separator ≠ 't' ∧ separator ≠ ' ' then none
    else
      let (time, rest) ← time? rest
      let offset ← offset? rest
      some (date ++ 'T' :: time ++ offset)
  | none =>
    match time? text with
    | some (time, []) => some time
    | _ => none

/-- The key under which the text of a date or time is handed on. -/
def dateTimeKey : String := "$__toml_private_datetime"

def dateTime? (text : List Char) : Option Data :=
  (dateTimeText? text).map fun text => .object [(dateTimeKey, .string (String.ofList text))]

/-- An integer in another base than ten. -/
def basedInteger? : List Char → Option Data
  | '0' :: 'x' :: digits => (grouped? isHexDigit digits).map fun digits => integerData (valueInBase 16 digits)
  | '0' :: 'o' :: digits =>
    (grouped? (fun c => '0' ≤ c && c ≤ '7') digits).map fun digits => integerData (valueInBase 8 digits)
  | '0' :: 'b' :: digits =>
    (grouped? (fun c => c == '0' || c == '1') digits).map fun digits => integerData (valueInBase 2 digits)
  | _ => none

/-- The word for a float that is not finite, with its sign. -/
def specialFloat? (text : List Char) : Option Data :=
  match splitSign text with
  | (negative, ['i', 'n', 'f']) => some (.nonFinite (.infinity negative))
  | (_, ['n', 'a', 'n']) => some (.nonFinite .nan)
  | _ => none

/-- The value that is written without quotes or brackets. -/
def scalar? (text : List Char) : Option Data :=
  if text = ['t', 'r', 'u', 'e'] then some (.bool true)
  else if text = ['f', 'a', 'l', 's', 'e'] then some (.bool false)
  else (specialFloat? text).or ((basedInteger? text).or ((dateTime? text).or (decimal? text)))

end RecordQuery.Toml
