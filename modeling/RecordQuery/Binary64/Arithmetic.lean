import RecordQuery.Binary64.Decimal

/-!
# Products and quotients of binary64 numbers

A finite number is a quotient of naturals with a sign, so a product or a quotient of two is computed exactly and rounded
once. `timesPowerOfTen` scales by a power of ten as a single product or quotient of floats, whose power is rounded itself:
the result need not be the number nearest to the exact one.
-/

namespace RecordQuery.Binary64

/-- The magnitude of a finite number as a quotient of naturals. -/
def ratio (x : Binary64) : Nat × Nat :=
  let (up, down) := powerOfTwo x.exponent
  (x.significand * up, down)

/-- The product of two finite numbers, rounded. -/
def mul (x y : Binary64) : Binary64 :=
  ofMagnitude (x.negative != y.negative) (magnitudeOfRatio (x.ratio.1 * y.ratio.1) (x.ratio.2 * y.ratio.2))

/-- The quotient of a finite number by one that is not zero, rounded. -/
def div (x y : Binary64) : Binary64 :=
  ofMagnitude (x.negative != y.negative) (magnitudeOfRatio (x.ratio.1 * y.ratio.2) (x.ratio.2 * y.ratio.1))

/-- The largest power of ten that is finite. -/
def maxPowerOfTen : Nat := 308

/-- The number nearest to a power of ten. -/
def tenTo (power : Nat) : Binary64 := ofDecimal false 1 power

/-- A number divided by the largest power of ten a number of times, or until it is zero. -/
def dividedDown (x : Binary64) : Nat → Binary64
  | 0 => x
  | times + 1 => if x.isZero then x else (x.div (tenTo maxPowerOfTen)).dividedDown times

/-- A number times a power of ten. A power that is too small to divide by is divided by in steps; one that is too large to
multiply by leaves zero alone, and makes all else infinite. -/
def timesPowerOfTen (x : Binary64) (scale : Int) : Binary64 :=
  if 0 ≤ scale then
    if scale ≤ maxPowerOfTen then x.mul (tenTo scale.toNat)
    else if x.isZero then x
    else infinity x.negative
  else
    let power := (-scale).toNat
    let times := (power - 1) / maxPowerOfTen
    (x.dividedDown times).div (tenTo (power - times * maxPowerOfTen))

end RecordQuery.Binary64
