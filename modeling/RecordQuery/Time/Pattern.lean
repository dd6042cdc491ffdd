import RecordQuery.Time.Civil

/-!
# Time patterns

Patterns in which a percent sign and a letter stand for a part of a time. `Pattern.parse?` reads one,
or finds it invalid; `Pattern.render?` writes a moment by it. Every numeric part has a padding, which
a mark before its letter changes; parts that stand for several others, or for no number, take no mark.
-/

namespace RecordQuery

/-- How a number is filled up to its width. -/
inductive Padding where
  | none
  | zero
  | blank
deriving DecidableEq

/-- The numeric parts of a time. -/
inductive NumericPart where
  | year
  | century
  | yearOfCentury
  | isoYear
  | isoYearOfCentury
  | quarter
  | month
  | day
  | weekFromSunday
  | weekFromMonday
  | isoWeek
  | weekdayFromSunday
  | weekdayFromMonday
  | ordinal
  | hour
  | hour12
  | minute
  | second
  | nanosecond
  | timestamp
deriving DecidableEq

/-- What separates and fills the offset from UTC. -/
inductive OffsetForm where
  | plain
  | colon
  | doubleColon
  | hoursOnly
deriving DecidableEq

/-- A part of a pattern. -/
inductive PatternItem where
  | literal (text : String)
  | numeric (part : NumericPart) (padding : Padding)
  | shortMonth
  | longMonth
  | shortWeekday
  | longWeekday
  | lowerHalf
  | upperHalf
  /-- A point and the digits of the fraction that are needed, in groups of three. -/
  | fraction
  /-- Some digits of the fraction, perhaps behind a point. -/
  | fractionDigits (point : Bool) (count : Nat)
  | zoneName
  | offset (form : OffsetForm)
  /-- An offset that can only be read: it is a valid part, but cannot be written. -/
  | readOnlyOffset
  | standard
deriving DecidableEq

namespace Pattern

open PatternItem

def zero (part : NumericPart) : PatternItem := .numeric part .zero

def blank (part : NumericPart) : PatternItem := .numeric part .blank

def unpadded (part : NumericPart) : PatternItem := .numeric part .none

def text (s : String) : PatternItem := .literal s

/-- What a letter behind a percent sign stands for. -/
def ofLetter (letter : Char) : Option (List PatternItem) :=
  match letter with
  | 'A' => some [longWeekday]
  | 'B' => some [longMonth]
  | 'C' => some [zero .century]
  | 'D' => some [zero .month, text "/", zero .day, text "/", zero .yearOfCentury]
  | 'F' => some [zero .year, text "-", zero .month, text "-", zero .day]
  | 'G' => some [zero .isoYear]
  | 'H' => some [zero .hour]
  | 'I' => some [zero .hour12]
  | 'M' => some [zero .minute]
  | 'P' => some [lowerHalf]
  | 'R' => some [zero .hour, text ":", zero .minute]
  | 'S' => some [zero .second]
  | 'T' => some [zero .hour, text ":", zero .minute, text ":", zero .second]
  | 'U' => some [zero .weekFromSunday]
  | 'V' => some [zero .isoWeek]
  | 'W' => some [zero .weekFromMonday]
  | 'X' => some [zero .hour, text ":", zero .minute, text ":", zero .second]
  | 'Y' => some [zero .year]
  | 'Z' => some [zoneName]
  | 'a' => some [shortWeekday]
  | 'b' => some [shortMonth]
  | 'c' => some [shortWeekday, text " ", shortMonth, text " ", blank .day, text " ", zero .hour, text ":",
      zero .minute, text ":", zero .second, text " ", zero .year]
  | 'd' => some [zero .day]
  | 'e' => some [blank .day]
  | 'f' => some [zero .nanosecond]
  | 'g' => some [zero .isoYearOfCentury]
  | 'h' => some [shortMonth]
  | 'j' => some [zero .ordinal]
  | 'k' => some [blank .hour]
  | 'l' => some [blank .hour12]
  | 'm' => some [zero .month]
  | 'n' => some [text "\n"]
  | 'p' => some [upperHalf]
  | 'q' => some [unpadded .quarter]
  | 'r' => some [zero .hour12, text ":", zero .minute, text ":", zero .second, text " ", upperHalf]
  | 's' => some [unpadded .timestamp]
  | 't' => some [text "\t"]
  | 'u' => some [unpadded .weekdayFromMonday]
  | 'v' => some [blank .day, text "-", shortMonth, text "-", zero .year]
  | 'w' => some [unpadded .weekdayFromSunday]
  | 'x' => some [zero .month, text "/", zero .day, text "/", zero .yearOfCentury]
  | 'y' => some [zero .yearOfCentury]
  | 'z' => some [.offset .plain]
  | '+' => some [standard]
  | '%' => some [text "%"]
  | _ => none

/-- The specifiers of more than one character, and what each stands for. -/
def longSpecifiers : List (List Char × PatternItem) :=
  [([':', ':', ':', 'z'], .offset .hoursOnly), ([':', ':', 'z'], .offset .doubleColon),
    ([':', 'z'], .offset .colon), (['.', '3', 'f'], .fractionDigits true 3),
    (['.', '6', 'f'], .fractionDigits true 6), (['.', '9', 'f'], .fractionDigits true 9),
    (['.', 'f'], .fraction), (['3', 'f'], .fractionDigits false 3), (['6', 'f'], .fractionDigits false 6),
    (['9', 'f'], .fractionDigits false 9)]

/-- Reads a specifier behind its percent sign and marks: what it stands for, and how many characters
it has. -/
def specifier? (input : List Char) : Option (List PatternItem × Nat) :=
  match longSpecifiers.find? fun (spelling, _) => spelling.isPrefixOf input with
  | some (spelling, item) => some ([item], spelling.length)
  | none =>
    match input with
    | [] => none
    | letter :: _ => (ofLetter letter).map (·, 1)

/-- The padding that a mark asks for. -/
def padding? (mark : Char) : Option Padding :=
  match mark with
  | '-' => some .none
  | '0' => some .zero
  | '_' => some .blank
  | _ => none

/-- Reads what stands behind a percent sign. -/
def item? (input : List Char) : Option (List PatternItem × Nat) :=
  match input with
  | [] => none
  | mark :: rest =>
    match padding? mark with
    | some padding =>
      match specifier? rest with
      | some ([.numeric part _], count) => some ([.numeric part padding], count + 1)
      | _ => none
    | none =>
      if mark = '#' then
        match rest with
        | 'z' :: _ => some ([.readOnlyOffset], 2)
        | _ => none
      else specifier? input

/-- Reads a pattern; `skip` characters were read already. -/
def parseFrom (skip : Nat) : List Char → Option (List PatternItem)
  | [] => some []
  | c :: rest =>
    match skip with
    | skip + 1 => parseFrom skip rest
    | 0 =>
      if c = '%' then
        match item? rest with
        | none => none
        | some (items, count) => (parseFrom count rest).map (items ++ ·)
      else (parseFrom 0 rest).map (.literal (String.singleton c) :: ·)

/-- The parts of a pattern, if it is valid. -/
def parse? (pattern : String) : Option (List PatternItem) := parseFrom 0 pattern.toList

/-! ## Writing -/

/-- A text filled up on the left. -/
def fill (width : Nat) (c : Char) (digits : List Char) : List Char :=
  List.replicate (width - digits.length) c ++ digits

/-- A number with at least some digits. -/
def padded (padding : Padding) (width n : Nat) : String :=
  let digits := Nat.toDigits 10 n
  String.ofList (match padding with
    | .none => digits
    | .zero => fill width '0' digits
    | .blank => fill width ' ' digits)

/-- An integer whose sign counts for the width. -/
def paddedInt (padding : Padding) (width : Nat) (plus : Bool) (i : Int) : String :=
  let sign := if i < 0 then ['-'] else if plus then ['+'] else []
  let digits := Nat.toDigits 10 i.natAbs
  String.ofList (match padding with
    | .none => sign ++ digits
    | .zero => sign ++ fill (width - sign.length) '0' digits
    | .blank => fill width ' ' (sign ++ digits))

/-- A year; one that has not four digits shows its sign. -/
def paddedYear (padding : Padding) (year : Int) : String :=
  if 0 ≤ year ∧ year < 10000 then paddedInt padding 4 false year else paddedInt padding 5 true year

def renderNumeric (c : Civil) (padding : Padding) : NumericPart → String
  | .year => paddedYear padding c.year
  | .century => padded padding 2 (c.year / 100).toNat
  | .yearOfCentury => padded padding 2 (c.year % 100).toNat
  | .isoYear => paddedYear padding c.isoWeek.1
  | .isoYearOfCentury => padded padding 2 (c.isoWeek.1 % 100).toNat
  | .quarter => padded .none 1 ((c.month + 2) / 3)
  | .month => padded padding 2 c.month
  | .day => padded padding 2 c.day
  | .weekFromSunday => padded padding 2 (c.weekSince c.weekday)
  | .weekFromMonday => padded padding 2 (c.weekSince c.weekdayFromMonday)
  | .isoWeek => padded padding 2 c.isoWeek.2
  | .weekdayFromSunday => padded .none 1 c.weekday
  | .weekdayFromMonday => padded .none 1 (c.weekdayFromMonday + 1)
  | .ordinal => padded padding 3 c.ordinal
  | .hour => padded padding 2 c.hour
  | .hour12 => padded padding 2 c.hour12
  | .minute => padded padding 2 c.minute
  | .second => padded padding 2 c.second
  | .nanosecond => padded padding 9 c.nanosecond
  | .timestamp => paddedInt padding 9 false c.timestamp

def monthNames : List String :=
  ["January", "February", "March", "April", "May", "June", "July", "August", "September", "October",
    "November", "December"]

def weekdayNames : List String :=
  ["Sunday", "Monday", "Tuesday", "Wednesday", "Thursday", "Friday", "Saturday"]

def monthName (c : Civil) : String := monthNames[c.month - 1]?.getD ""

def weekdayName (c : Civil) : String := weekdayNames[c.weekday]?.getD ""

/-- The first three letters of a name. -/
def shortName (name : String) : String := String.ofList (name.toList.take 3)

/-- The first digits of the fraction of a second. -/
def fractionText (c : Civil) (count : Nat) : String :=
  String.ofList ((fill 9 '0' (Nat.toDigits 10 c.nanosecond)).take count)

/-- The fraction of a second behind a point, with three, six or nine digits, and nothing if it is
zero. -/
def neededFraction (c : Civil) : String :=
  if c.nanosecond = 0 then ""
  else if c.nanosecond % 1000000 = 0 then "." ++ fractionText c 3
  else if c.nanosecond % 1000 = 0 then "." ++ fractionText c 6
  else "." ++ fractionText c 9

/-- The offset of UTC from itself. -/
def renderOffset : OffsetForm → String
  | .plain => "+0000"
  | .colon => "+00:00"
  | .doubleColon => "+00:00:00"
  | .hoursOnly => "+00"

/-- Date and time as the standard for timestamps has them. -/
def renderStandard (c : Civil) : String :=
  let two := padded .zero 2
  paddedYear .zero c.year ++ "-" ++ two c.month ++ "-" ++ two c.day ++ "T" ++ two c.hour ++ ":" ++
    two c.minute ++ ":" ++ two c.second ++ neededFraction c ++ renderOffset .colon

def renderItem? (c : Civil) : PatternItem → Option String
  | .literal s => some s
  | .numeric part padding => some (renderNumeric c padding part)
  | .shortMonth => some (shortName (monthName c))
  | .longMonth => some (monthName c)
  | .shortWeekday => some (shortName (weekdayName c))
  | .longWeekday => some (weekdayName c)
  | .lowerHalf => some (if c.hour < 12 then "am" else "pm")
  | .upperHalf => some (if c.hour < 12 then "AM" else "PM")
  | .fraction => some (neededFraction c)
  | .fractionDigits point count => some ((if point then "." else "") ++ fractionText c count)
  | .zoneName => some "UTC"
  | .offset form => some (renderOffset form)
  | .readOnlyOffset => none
  | .standard => some (renderStandard c)

/-- The text of a moment by the parts of a pattern, unless one cannot be written. -/
def renderItems? (c : Civil) : List PatternItem → Option String
  | [] => some ""
  | item :: rest => do
    let head ← renderItem? c item
    let tail ← renderItems? c rest
    some (head ++ tail)

/-- The text of a moment by a pattern. -/
def render? (moment : Moment) (pattern : String) : Option String :=
  (parse? pattern).bind (renderItems? (.ofMoment moment))

end Pattern

end RecordQuery
