/-!
# Binary64 numbers

IEEE 754 binary64 numbers as their 64 bits. A finite number stands for
`± significand · 2 ^ exponent`; `magnitudeOfRatio` rounds a quotient of naturals to the nearest such
number, ties to the even significand. Everything is computed on naturals and integers, so each
operation can be reasoned about.
-/

namespace RecordQuery

/-- A binary64 number, given by its bits: a sign, eleven bits of exponent, 52 of fraction. -/
structure Binary64 where
  bits : UInt64
deriving DecidableEq

namespace Binary64

/-- The weight of the bit above the fraction, `2 ^ 52`. -/
def leadingBit : Nat := 0x10000000000000

/-- The weight of the sign bit, `2 ^ 63`. -/
def signBit : Nat := 0x8000000000000000

/-- The biased exponent. -/
def exponentField (x : Binary64) : Nat := x.bits.toNat / leadingBit % 2048

/-- The trailing bits of the significand. -/
def fraction (x : Binary64) : Nat := x.bits.toNat % leadingBit

/-- Whether the sign bit is set. -/
def negative (x : Binary64) : Bool := signBit ≤ x.bits.toNat

/-- The bits without the sign. -/
def magnitude (x : Binary64) : Nat := x.bits.toNat % signBit

def isFinite (x : Binary64) : Bool := x.exponentField != 2047

def isNaN (x : Binary64) : Bool := x.exponentField == 2047 && x.fraction != 0

def isZero (x : Binary64) : Bool := x.magnitude == 0

/-- The significand as a natural number, with the leading bit that the fraction leaves out. -/
def significand (x : Binary64) : Nat :=
  if x.exponentField = 0 then x.fraction else x.fraction + leadingBit

/-- The power of two that the significand is scaled by. -/
def exponent (x : Binary64) : Int := Int.ofNat (max x.exponentField 1) - 1075

/-- Numeric equality: a NaN equals nothing, and the two zeros are equal. -/
def numericEq (x y : Binary64) : Bool :=
  !x.isNaN && !y.isNaN && (x.bits == y.bits || x.isZero && y.isZero)

/-- The number with the given sign and magnitude bits. -/
def ofMagnitude (negative : Bool) (magnitude : Nat) : Binary64 :=
  ⟨UInt64.ofNat (magnitude + if negative then signBit else 0)⟩

def zero (negative : Bool) : Binary64 := ofMagnitude negative 0

/-- The magnitude bits of the infinities. -/
def infiniteMagnitude : Nat := 2047 * leadingBit

def infinity (negative : Bool) : Binary64 := ofMagnitude negative infiniteMagnitude

def nan : Binary64 := ⟨0x7ff8000000000000⟩

/-! ## Rounding -/

/-- The quotient of two naturals rounded to the nearest natural, a half to the even neighbour. -/
def divideToEven (numerator denominator : Nat) : Nat :=
  let quotient := numerator / denominator
  let twice := 2 * (numerator % denominator)
  if twice < denominator then quotient
  else if denominator < twice then quotient + 1
  else quotient + quotient % 2

/-- The exponent of the grid on which a quotient is rounded: its significand there has 53 bits,
unless the grid is already the coarsest that small numbers have. -/
def gridExponent (numerator denominator : Nat) : Int :=
  let guess := Int.ofNat numerator.log2 - Int.ofNat denominator.log2
  let reaches : Bool :=
    if 0 ≤ guess then denominator * Nat.pow 2 guess.toNat ≤ numerator
    else denominator ≤ numerator * Nat.pow 2 (-guess).toNat
  max (guess - if reaches then 52 else 53) (-1074)

/-- The magnitude bits of the number nearest to a quotient. On the grid `2 ^ e` they are the rounded
significand plus `2 ^ 52` for each step of `e` above the least, which also carries a significand that
rounds up to the next power of two. What lies past the largest number becomes infinite. -/
def magnitudeOfRatio (numerator denominator : Nat) : Nat :=
  if numerator = 0 then 0
  else
    let grid := gridExponent numerator denominator
    let rounded :=
      if 0 ≤ grid then divideToEven numerator (denominator * Nat.pow 2 grid.toNat)
      else divideToEven (numerator * Nat.pow 2 (-grid).toNat) denominator
    min infiniteMagnitude ((grid + 1074).toNat * leadingBit + rounded)

/-- The number nearest to an integer. -/
def ofInt (i : Int) : Binary64 := ofMagnitude (i < 0) (magnitudeOfRatio i.natAbs 1)

/-- The magnitude bits of the number nearest to `digits · 10 ^ scale`. Scales that leave the range
whatever the digits are not computed out. -/
def magnitudeOfDecimal (digits : Nat) (scale : Int) : Nat :=
  if digits = 0 then 0
  else
    let leading := Int.ofNat (Nat.toDigits 10 digits).length + scale
    if 400 < leading then infiniteMagnitude
    else if leading < -400 then 0
    else if 0 ≤ scale then magnitudeOfRatio (digits * Nat.pow 10 scale.toNat) 1
    else magnitudeOfRatio digits (Nat.pow 10 (-scale).toNat)

/-- The number nearest to `± digits · 10 ^ scale`. -/
def ofDecimal (negative : Bool) (digits : Nat) (scale : Int) : Binary64 :=
  ofMagnitude negative (magnitudeOfDecimal digits scale)

end Binary64

end RecordQuery
