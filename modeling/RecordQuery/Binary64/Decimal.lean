import RecordQuery.Binary64

/-!
# Decimal text of binary64 numbers

A finite number is written with the fewest decimal digits that round back to it. `shortest` finds
them: of the numbers with few digits the closest below and above are tried, for one digit more each
time, until one lies in the interval of what rounds back. A `Layout` holds the choices of one output
format, and `Layout.render` writes a number by it.
-/

namespace RecordQuery.Binary64

/-- Which of two candidates at the same distance is taken. -/
inductive Tie where
  | upward
  | even
deriving DecidableEq

/-- Digits without leading zeros, and the power of ten of the first of them: `⟨125, 1⟩` is 12.5. -/
structure Decimal where
  digits : Nat
  leading : Int
deriving DecidableEq

/-- `2 ^ e` as a quotient of naturals. -/
def powerOfTwo (e : Int) : Nat × Nat := if 0 ≤ e then (Nat.pow 2 e.toNat, 1) else (1, Nat.pow 2 (-e).toNat)

/-- `10 ^ e` as a quotient of naturals. -/
def powerOfTen (e : Int) : Nat × Nat := if 0 ≤ e then (Nat.pow 10 e.toNat, 1) else (1, Nat.pow 10 (-e).toNat)

/-- The magnitudes that round to a number, in quarters of a step of its grid: the number itself, and
the two ends. Below a power of two the step is half as wide. -/
structure Interval where
  value : Nat
  low : Nat
  high : Nat
  /-- The ends themselves round to the number too. -/
  closed : Bool
  /-- The power of two of a quarter step. -/
  scale : Int

/-- The interval of a finite number. -/
def interval (x : Binary64) : Interval :=
  let m := x.significand
  let narrow := m == leadingBit && 1 < x.exponentField
  ⟨4 * m, if narrow then 4 * m - 1 else 4 * m - 2, 4 * m + 2, m % 2 == 0, x.exponent - 2⟩

/-- Whether a position lies between the ends of an interval, all three scaled to naturals in one unit. -/
def Interval.contains (i : Interval) (position : Nat) (scaledLow scaledHigh : Nat) : Bool :=
  if i.closed then scaledLow ≤ position && position ≤ scaledHigh
  else scaledLow < position && position < scaledHigh

/-- The power of ten of the first digit of a positive quotient. -/
def leadingExponent (numerator denominator : Nat) : Int :=
  let guess := Int.ofNat (Nat.toDigits 10 numerator).length - Int.ofNat (Nat.toDigits 10 denominator).length
  let (up, down) := powerOfTen guess
  if denominator * up ≤ numerator * down then guess else guess - 1

/-- The candidate with a given number of digits: the closer of the neighbours of the value on that
decimal grid that round back to it. -/
def candidate (tie : Tie) (i : Interval) (leading : Int) (count : Nat) : Option Nat :=
  let (twoUp, twoDown) := powerOfTwo i.scale
  let (tenUp, tenDown) := powerOfTen (leading - Int.ofNat count + 1)
  let toGrid := twoUp * tenDown
  let unit := twoDown * tenUp
  let value := i.value * toGrid
  let below := value / unit
  let inside := fun c => i.contains (c * unit) (i.low * toGrid) (i.high * toGrid)
  let remainder := value % unit
  match inside below, inside (below + 1) with
  | true, false => some below
  | false, true => some (below + 1)
  | false, false => none
  | true, true =>
    if 2 * remainder < unit then some below
    else if unit < 2 * remainder then some (below + 1)
    else match tie with
      | .upward => some (below + 1)
      | .even => some (below + below % 2)

/-- Drops trailing zeros. -/
def dropZeros : Nat → Nat → Nat
  | 0, digits => digits
  | fuel + 1, digits => if digits % 10 = 0 ∧ digits ≠ 0 then dropZeros fuel (digits / 10) else digits

/-- The first of the digit counts from `count` on that has a candidate; seventeen digits always
suffice. -/
def search (tie : Tie) (i : Interval) (leading : Int) : Nat → Nat → Decimal
  | 0, count => ⟨i.value, leading + Int.ofNat count⟩
  | more + 1, count =>
    match candidate tie i leading count with
    | some digits =>
      let carried := digits == Nat.pow 10 count
      ⟨dropZeros 20 digits, if carried then leading + 1 else leading⟩
    | none => search tie i leading more (count + 1)

/-- The fewest digits that round back to a finite number that is not zero, and of those the
closest. -/
def shortest (tie : Tie) (x : Binary64) : Decimal :=
  let i := x.interval
  let (up, down) := powerOfTwo i.scale
  search tie i (leadingExponent (i.value * up) down) 17 1

/-- The choices of one text format of numbers. -/
structure Layout where
  /-- Numbers whose first digit stands at this power of ten or above are written without exponent. -/
  positionalFrom : Option Int
  /-- Numbers whose first digit stands at this power of ten or above have an exponent. -/
  exponentFrom : Option Int
  /-- A whole number written without exponent ends in `.0`. -/
  keepsPoint : Bool
  /-- A positive exponent has its sign. -/
  plus : Bool
  tie : Tie

/-- Plain text: no exponent at any size, and no point after a whole number. -/
def plainLayout : Layout := ⟨none, none, false, false, .upward⟩

/-- Diagnostic text: a point in every number without exponent. -/
def diagnosticLayout : Layout := ⟨some (-4), some 16, true, false, .upward⟩

/-- JSON text. -/
def jsonLayout : Layout := ⟨some (-5), some 16, true, true, .even⟩

/-- Digits with a point after the one at power zero of ten. -/
def positional (keepsPoint : Bool) (d : Decimal) : String :=
  let digits := Nat.toDigits 10 d.digits
  let text :=
    if d.leading < 0 then '0' :: '.' :: (List.replicate ((-d.leading).toNat - 1) '0' ++ digits)
    else
      let whole := d.leading.toNat + 1
      if digits.length ≤ whole then
        digits ++ List.replicate (whole - digits.length) '0' ++ if keepsPoint then ['.', '0'] else []
      else digits.take whole ++ '.' :: digits.drop whole
  String.ofList text

/-- One digit, a point before any more, and the power of ten. -/
def scientific (plus : Bool) (d : Decimal) : String :=
  let text := match Nat.toDigits 10 d.digits with
    | [] => []
    | [digit] => [digit]
    | digit :: more => digit :: '.' :: more
  String.ofList text ++ "e" ++ (if plus && 0 ≤ d.leading then "+" else "") ++ toString d.leading

/-- Whether a layout writes an exponent for a number whose first digit stands at a power of ten. -/
def Layout.hasExponent (layout : Layout) (leading : Int) : Bool :=
  (match layout.positionalFrom with
    | none => false
    | some least => leading < least) ||
  (match layout.exponentFrom with
    | none => false
    | some least => least ≤ leading)

/-- The text of a number. -/
def Layout.render (layout : Layout) (x : Binary64) : String :=
  if x.isNaN then "NaN"
  else
    let sign := if x.negative then "-" else ""
    if !x.isFinite then sign ++ "inf"
    else if x.isZero then sign ++ if layout.keepsPoint then "0.0" else "0"
    else
      let d := x.shortest layout.tie
      sign ++ if layout.hasExponent d.leading then scientific layout.plus d
        else positional layout.keepsPoint d

end RecordQuery.Binary64
