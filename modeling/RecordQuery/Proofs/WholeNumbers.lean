import Mathlib.Tactic.Ring
import RecordQuery.Binary64.Decimal

/-!
# Integers as floats

The float nearest to an integer of 64 bits is finite (`isFinite_ofInt`). An integer of no more than 53 bits is the only
one with its float (`eq_of_numericEq_ofInt`), and this is written like the integer (`render_ofInt`): it is exact, and no
decimal of fewer digits rounds back to it, since the numbers that do are less than one apart from it.
-/

namespace RecordQuery.Binary64

/-! ## Bits -/

section

variable (negative : Bool) {magnitude : Nat} (below : magnitude < signBit)

include below

theorem toNat_bits_ofMagnitude :
    (ofMagnitude negative magnitude).bits.toNat = magnitude + if negative then signBit else 0 := by
  unfold ofMagnitude signBit at *
  rw [UInt64.toNat_ofNat']
  split <;> omega

theorem exponentField_ofMagnitude : (ofMagnitude negative magnitude).exponentField = magnitude / leadingBit := by
  rw [exponentField, toNat_bits_ofMagnitude negative below]
  unfold signBit leadingBit at *
  split <;> omega

theorem fraction_ofMagnitude : (ofMagnitude negative magnitude).fraction = magnitude % leadingBit := by
  rw [fraction, toNat_bits_ofMagnitude negative below]
  unfold signBit leadingBit at *
  split <;> omega

theorem magnitude_ofMagnitude : (ofMagnitude negative magnitude).magnitude = magnitude := by
  rw [Binary64.magnitude, toNat_bits_ofMagnitude negative below]
  unfold signBit at *
  split <;> omega

theorem negative_ofMagnitude : (ofMagnitude negative magnitude).negative = negative := by
  rw [Binary64.negative, toNat_bits_ofMagnitude negative below]
  unfold signBit at *
  cases negative with
  | false => simpa using below
  | true => simp

end

theorem isFinite_ofMagnitude (negative : Bool) {magnitude : Nat} (below : magnitude < infiniteMagnitude) :
    (ofMagnitude negative magnitude).isFinite = true := by
  unfold infiniteMagnitude at below
  have unsigned : magnitude < signBit := by unfold signBit leadingBit at *; omega
  have field := exponentField_ofMagnitude negative unsigned
  have finite : magnitude / leadingBit < 2047 := by unfold leadingBit at *; omega
  rw [isFinite, field, bne_iff_ne]
  omega

/-! ## Integers -/

theorem divideToEven_le (numerator denominator : Nat) : divideToEven numerator denominator ≤ numerator / denominator + 1 := by
  unfold divideToEven
  dsimp only
  split
  · omega
  · split <;> omega

theorem le_divideToEven (numerator denominator : Nat) : numerator / denominator ≤ divideToEven numerator denominator := by
  unfold divideToEven
  dsimp only
  split
  · exact le_rfl
  · split <;> omega

/-- The grid of a natural has its leading bit at bit 52 of the significand. -/
theorem gridExponent_one {n : Nat} (positive : n ≠ 0) : gridExponent n 1 = n.log2 - 52 := by
  have least : 2 ^ n.log2 ≤ n := Nat.log2_self_le positive
  have one : Nat.log2 1 = 0 := by decide
  simp [gridExponent, one, least]
  omega

/-- Rounded on its grid a natural has a significand of 53 bits, or the next power of two. -/
theorem rounded_le {n leading : Nat} (most : n < 2 ^ (leading + 1)) :
    (if 0 ≤ (leading : Int) - 52 then divideToEven n (1 * Nat.pow 2 ((leading : Int) - 52).toNat)
      else divideToEven (n * Nat.pow 2 (-((leading : Int) - 52)).toNat) 1) ≤ 2 ^ 53 := by
  split
  next wide =>
    obtain ⟨extra, rfl⟩ : ∃ extra, leading = 52 + extra := ⟨leading - 52, by omega⟩
    have shift : ((52 + extra : Nat) - 52 : Int).toNat = extra := by omega
    have quotient : n / 2 ^ extra < 2 ^ 53 := by
      rw [Nat.div_lt_iff_lt_mul (Nat.two_pow_pos extra), ← Nat.pow_add]
      exact lt_of_lt_of_eq most (congrArg _ (by omega))
    rw [shift, Nat.pow_eq, Nat.one_mul]
    exact Nat.le_trans (divideToEven_le n (2 ^ extra)) quotient
  next narrow =>
    have shift : (-((leading : Int) - 52)).toNat = 52 - leading := by omega
    have product : n * 2 ^ (52 - leading) < 2 ^ 53 := by
      calc n * 2 ^ (52 - leading) < 2 ^ (leading + 1) * 2 ^ (52 - leading) :=
            Nat.mul_lt_mul_of_pos_right most (Nat.two_pow_pos _)
        _ = 2 ^ 53 := by rw [← Nat.pow_add]; congr 1; omega
    rw [shift, Nat.pow_eq]
    have bound := divideToEven_le (n * 2 ^ (52 - leading)) 1
    rw [Nat.div_one] at bound
    omega

/-- An integer of 64 bits is far from the largest number. -/
theorem magnitudeOfRatio_one_lt {n : Nat} (small : n < 2 ^ 64) : magnitudeOfRatio n 1 < infiniteMagnitude := by
  unfold magnitudeOfRatio
  split
  next => decide
  next positive =>
    have bits : n.log2 < 64 := (Nat.log2_lt positive).mpr small
    have grid : (n.log2 - 52 + 1074 : Int).toNat ≤ 1085 := by omega
    have significand := rounded_le (Nat.lt_log2_self (n := n))
    rw [gridExponent_one positive]
    dsimp only
    unfold infiniteMagnitude leadingBit
    omega

theorem isFinite_ofInt {i : Int} (small : i.natAbs < 2 ^ 64) : (ofInt i).isFinite = true :=
  isFinite_ofMagnitude _ (magnitudeOfRatio_one_lt small)

/-! ## Integers of 53 bits -/

section Small

variable {n : Nat} (positive : n ≠ 0) (small : n < 2 ^ 53)

include positive small

theorem log2_le_of_small : n.log2 ≤ 52 := Nat.le_of_lt_succ ((Nat.log2_lt positive).mpr small)

/-- Shifted so that its leading bit is bit 52, a natural is the significand of a float. -/
theorem shifted_bounds : 2 ^ 52 ≤ n * 2 ^ (52 - n.log2) ∧ n * 2 ^ (52 - n.log2) < 2 ^ 53 := by
  have shift := log2_le_of_small positive small
  constructor
  · calc 2 ^ 52 = 2 ^ n.log2 * 2 ^ (52 - n.log2) := by rw [← Nat.pow_add]; congr 1; omega
      _ ≤ n * 2 ^ (52 - n.log2) := Nat.mul_le_mul_right _ (Nat.log2_self_le positive)
  · calc n * 2 ^ (52 - n.log2) < 2 ^ (n.log2 + 1) * 2 ^ (52 - n.log2) :=
          Nat.mul_lt_mul_of_pos_right Nat.lt_log2_self (Nat.two_pow_pos _)
      _ = 2 ^ 53 := by rw [← Nat.pow_add]; congr 1; omega

theorem magnitudeOfRatio_one_of_small :
    magnitudeOfRatio n 1 = (n.log2 + 1022) * leadingBit + n * 2 ^ (52 - n.log2) := by
  have shift := log2_le_of_small positive small
  obtain ⟨-, most⟩ := shifted_bounds positive small
  have exact : ∀ m, divideToEven m 1 = m := fun m => by simp [divideToEven, Nat.mod_one]
  have rounded : (if 0 ≤ (n.log2 : Int) - 52 then divideToEven n (1 * Nat.pow 2 ((n.log2 : Int) - 52).toNat)
      else divideToEven (n * Nat.pow 2 (-((n.log2 : Int) - 52)).toNat) 1) = n * 2 ^ (52 - n.log2) := by
    split
    next whole =>
      have last : n.log2 = 52 := by omega
      simp [last, exact]
    next =>
      rw [exact, Nat.pow_eq]
      congr 2
      omega
  unfold magnitudeOfRatio
  rw [if_neg positive, gridExponent_one positive]
  dsimp only
  rw [rounded]
  unfold infiniteMagnitude leadingBit
  omega

theorem exponentField_of_small (negative : Bool) :
    (ofMagnitude negative (magnitudeOfRatio n 1)).exponentField = n.log2 + 1023 := by
  have shift := log2_le_of_small positive small
  obtain ⟨least, most⟩ := shifted_bounds positive small
  rw [magnitudeOfRatio_one_of_small positive small, exponentField_ofMagnitude negative (by unfold signBit leadingBit; omega)]
  unfold leadingBit
  omega

theorem significand_of_small (negative : Bool) :
    (ofMagnitude negative (magnitudeOfRatio n 1)).significand = n * 2 ^ (52 - n.log2) := by
  have shift := log2_le_of_small positive small
  obtain ⟨least, most⟩ := shifted_bounds positive small
  rw [significand, if_neg (by rw [exponentField_of_small positive small]; omega), magnitudeOfRatio_one_of_small positive small,
    fraction_ofMagnitude negative (by unfold signBit leadingBit; omega)]
  unfold leadingBit
  omega

end Small

/-! ## Integers of one float -/

/-- An integer of more than 53 bits is not rounded below the integers of 53 bits. -/
theorem le_magnitudeOfRatio_one {n : Nat} (large : 2 ^ 53 ≤ n) : 1076 * leadingBit ≤ magnitudeOfRatio n 1 := by
  have positive : n ≠ 0 := by
    rintro rfl
    simp at large
  obtain ⟨extra, leading⟩ : ∃ extra, n.log2 = 53 + extra :=
    ⟨n.log2 - 53, by have := (Nat.le_log2 positive).mpr large; omega⟩
  have grid : (n.log2 : Int) - 52 = (extra + 1 : Nat) := by omega
  have rounded : 2 ^ 52 ≤ divideToEven n (1 * Nat.pow 2 (extra + 1)) := by
    refine Nat.le_trans ?_ (le_divideToEven _ _)
    rw [Nat.one_mul, Nat.pow_eq, Nat.le_div_iff_mul_le (Nat.two_pow_pos _), ← Nat.pow_add]
    refine Nat.le_trans (Nat.pow_le_pow_right (by decide) ?_) (Nat.log2_self_le positive)
    omega
  unfold magnitudeOfRatio
  rw [if_neg positive, gridExponent_one positive, grid]
  dsimp only
  rw [if_pos (Int.natCast_nonneg _), Int.toNat_natCast]
  unfold infiniteMagnitude leadingBit
  omega

theorem magnitudeOfRatio_one_bounds {n : Nat} (positive : n ≠ 0) (small : n < 2 ^ 53) :
    (n.log2 + 1023) * leadingBit ≤ magnitudeOfRatio n 1 ∧ magnitudeOfRatio n 1 < (n.log2 + 1024) * leadingBit := by
  obtain ⟨least, most⟩ := shifted_bounds positive small
  rw [magnitudeOfRatio_one_of_small positive small]
  unfold leadingBit
  omega

/-- An integer of 53 bits is the only one that is rounded to its float. -/
theorem eq_of_magnitudeOfRatio_one {n m : Nat} (small : n < 2 ^ 53) (same : magnitudeOfRatio n 1 = magnitudeOfRatio m 1) :
    n = m := by
  have none : magnitudeOfRatio 0 1 = 0 := rfl
  have below : magnitudeOfRatio n 1 < 1076 * leadingBit := by
    by_cases zero : n = 0
    · rw [zero, none]
      exact Nat.mul_pos (by decide) (by decide)
    · obtain ⟨-, most⟩ := magnitudeOfRatio_one_bounds zero small
      have shift := log2_le_of_small zero small
      exact lt_of_lt_of_le most (Nat.mul_le_mul_right _ (by omega))
  have small' : m < 2 ^ 53 := by
    refine Nat.lt_of_not_le fun large => ?_
    have above := le_magnitudeOfRatio_one large
    omega
  by_cases zero : n = 0
  · by_cases zero' : m = 0
    · rw [zero, zero']
    · obtain ⟨least, -⟩ := magnitudeOfRatio_one_bounds zero' small'
      rw [← same, zero, none] at least
      unfold leadingBit at least
      omega
  · obtain ⟨least, most⟩ := magnitudeOfRatio_one_bounds zero small
    by_cases zero' : m = 0
    · rw [same, zero', none] at least
      unfold leadingBit at least
      omega
    · obtain ⟨least', most'⟩ := magnitudeOfRatio_one_bounds zero' small'
      have leading : n.log2 = m.log2 := by
        unfold leadingBit at least most least' most'
        omega
      rw [magnitudeOfRatio_one_of_small zero small, magnitudeOfRatio_one_of_small zero' small', leading] at same
      exact Nat.eq_of_mul_eq_mul_right (Nat.two_pow_pos _) (Nat.add_left_cancel same)

/-- An integer of 53 bits is the only one whose float equals its own. -/
theorem eq_of_numericEq_ofInt {i j : Int} (small : i.natAbs < 2 ^ 53) (small' : j.natAbs < 2 ^ 64)
    (equal : (ofInt i).numericEq (ofInt j) = true) : i = j := by
  have unsigned : magnitudeOfRatio i.natAbs 1 < signBit :=
    (magnitudeOfRatio_one_lt (small.trans (by decide))).trans (by decide)
  have unsigned' : magnitudeOfRatio j.natAbs 1 < signBit := (magnitudeOfRatio_one_lt small').trans (by decide)
  have magnitudes : (ofInt i).magnitude = (ofInt j).magnitude ∧
      ((ofInt i).negative = (ofInt j).negative ∨ (ofInt i).magnitude = 0) := by
    simp only [numericEq, isZero, Bool.and_eq_true, Bool.or_eq_true, beq_iff_eq] at equal
    obtain ⟨-, same | ⟨left, right⟩⟩ := equal
    · have same : ofInt i = ofInt j := by
        cases left : ofInt i
        cases right : ofInt j
        simp_all
      rw [same]
      exact ⟨rfl, .inl rfl⟩
    · exact ⟨left.trans right.symm, .inr left⟩
  rw [ofInt, ofInt, magnitude_ofMagnitude _ unsigned, magnitude_ofMagnitude _ unsigned',
    negative_ofMagnitude _ unsigned, negative_ofMagnitude _ unsigned'] at magnitudes
  obtain ⟨same, signs⟩ := magnitudes
  have absolute : i.natAbs = j.natAbs := eq_of_magnitudeOfRatio_one small same
  rcases signs with signs | zero
  · rw [decide_eq_decide] at signs
    omega
  · have none : i.natAbs = 0 := eq_of_magnitudeOfRatio_one small (zero.trans rfl)
    omega

/-! ## Fewest digits -/

/-- An interval around a natural that no other one comes near. -/
structure Interval.Around (i : Interval) (n d : Nat) : Prop where
  value : i.value = n * 2 ^ d
  low : i.low < i.value ∧ i.value ≤ i.low + 2
  high : i.value < i.high ∧ i.high ≤ i.value + 2
  scale : i.scale = -(d : Int)
  fine : 2 ≤ d

theorem interval_of_small {n : Nat} (positive : n ≠ 0) (small : n < 2 ^ 53) (negative : Bool) :
    (ofMagnitude negative (magnitudeOfRatio n 1)).interval.Around n (54 - n.log2) := by
  have shift := log2_le_of_small positive small
  obtain ⟨least, most⟩ := shifted_bounds positive small
  have quarters : 4 * (n * 2 ^ (52 - n.log2)) = n * 2 ^ (54 - n.log2) := by
    have split : 54 - n.log2 = 52 - n.log2 + 2 := by omega
    rw [split, Nat.pow_add]
    ring
  refine ⟨?_, ?_, ?_, ?_, by omega⟩
  · simp only [interval, significand_of_small positive small, quarters]
  · simp only [interval, significand_of_small positive small]
    split <;> omega
  · simp only [interval, significand_of_small positive small]
    omega
  · simp only [interval, exponent, exponentField_of_small positive small, Int.ofNat_eq_natCast]
    omega

theorem powerOfTen_natCast (e : Nat) : powerOfTen e = (10 ^ e, 1) := by simp [powerOfTen]

theorem Interval.Around.powerOfTwo {i : Interval} {n d : Nat} (around : i.Around n d) : powerOfTwo i.scale = (1, 2 ^ d) := by
  have fine := around.fine
  rw [Binary64.powerOfTwo, around.scale, if_neg (by omega)]
  simp

/-- Of all naturals only the one in the middle is in the interval. -/
theorem Interval.Around.contains_iff {i : Interval} {n d m : Nat} (around : i.Around n d) :
    i.contains (m * 2 ^ d) i.low i.high = true ↔ m = n := by
  obtain ⟨value, low, high, -, fine⟩ := around
  have wide : 2 ^ 2 ≤ 2 ^ d := Nat.pow_le_pow_right (by decide) fine
  have near : (i.low ≤ m * 2 ^ d ∧ m * 2 ^ d ≤ i.high) ↔ m = n := by
    constructor
    · rintro ⟨above, below⟩
      rcases Nat.lt_trichotomy m n with less | same | more
      · have step : (m + 1) * 2 ^ d ≤ n * 2 ^ d := Nat.mul_le_mul_right _ less
        rw [Nat.add_mul] at step
        omega
      · exact same
      · have step : (n + 1) * 2 ^ d ≤ m * 2 ^ d := Nat.mul_le_mul_right _ more
        rw [Nat.add_mul] at step
        omega
    · rintro rfl
      omega
  have nearer : (i.low < m * 2 ^ d ∧ m * 2 ^ d < i.high) ↔ m = n := by
    constructor
    · rintro ⟨above, below⟩
      exact near.mp ⟨above.le, below.le⟩
    · rintro rfl
      omega
  unfold Interval.contains
  split
  · simpa using near
  · simpa using nearer

/-- With a number of digits a natural has itself as a candidate if it ends in enough zeros, and else none. -/
theorem candidate_of_around {i : Interval} {n d : Nat} (around : i.Around n d) (tie : Tie) {leading count e : Nat}
    (places : leading + 1 = count + e) :
    candidate tie i leading count = if n % 10 ^ e = 0 then some (n / 10 ^ e) else none := by
  have grid : ((leading : Int) - Int.ofNat count + 1) = (e : Int) := by
    rw [Int.ofNat_eq_natCast]
    omega
  have positive : 0 < 10 ^ e := Nat.pow_pos (by decide)
  have inside (c : Nat) : i.contains (c * (2 ^ d * 10 ^ e)) (i.low * 1) (i.high * 1) = decide (c * 10 ^ e = n) := by
    have position : c * (2 ^ d * 10 ^ e) = c * 10 ^ e * 2 ^ d := by ring
    rw [position, Nat.mul_one, Nat.mul_one, Bool.eq_iff_iff, around.contains_iff, decide_eq_true_iff]
  have below : i.value * 1 / (2 ^ d * 10 ^ e) = n / 10 ^ e := by
    rw [around.value, Nat.mul_one, Nat.mul_comm n, Nat.mul_div_mul_left _ _ (Nat.two_pow_pos d)]
  unfold candidate
  rw [around.powerOfTwo, grid, powerOfTen_natCast]
  dsimp only
  rw [Nat.one_mul, below, inside, inside]
  have division := Nat.div_add_mod' n (10 ^ e)
  have remainder := Nat.mod_lt n positive
  have above : ¬ (n / 10 ^ e + 1) * 10 ^ e = n := by
    rw [Nat.add_mul]
    omega
  by_cases whole : n % 10 ^ e = 0
  · have here : n / 10 ^ e * 10 ^ e = n := by omega
    simp [whole, here, above]
  · have off : ¬ n / 10 ^ e * 10 ^ e = n := by omega
    simp [whole, off, above]

theorem dropZeros_mul_pow (fuel digits : Nat) : ∃ j, dropZeros fuel digits * 10 ^ j = digits := by
  induction fuel generalizing digits with
  | zero => exact ⟨0, by simp [dropZeros]⟩
  | succ fuel ih =>
    rw [dropZeros]
    split
    next zero =>
      obtain ⟨j, dropped⟩ := ih (digits / 10)
      refine ⟨j + 1, ?_⟩
      rw [Nat.pow_succ, ← Nat.mul_assoc, dropped]
      omega
    next => exact ⟨0, by simp⟩

/-- The search ends with the digits of the natural, perhaps without zeros at the end. -/
theorem search_of_around {i : Interval} {n d leading : Nat} (around : i.Around n d) (tie : Tie) (below : n < 10 ^ (leading + 1))
    {more count : Nat} (least : count ≤ leading + 1) (enough : leading + 1 < count + more) :
    ∃ digits j, search tie i leading more count = ⟨digits, leading⟩ ∧ digits * 10 ^ j = n := by
  induction more generalizing count with
  | zero => omega
  | succ more ih =>
    obtain ⟨e, places⟩ : ∃ e, leading + 1 = count + e := ⟨leading + 1 - count, by omega⟩
    rw [search, candidate_of_around around tie places]
    by_cases whole : n % 10 ^ e = 0
    · have exact : n / 10 ^ e * 10 ^ e = n := Nat.div_mul_cancel (Nat.dvd_of_mod_eq_zero whole)
      have short : n / 10 ^ e < 10 ^ count := by
        rw [Nat.div_lt_iff_lt_mul (Nat.pow_pos (by decide)), ← Nat.pow_add, ← places]
        exact below
      obtain ⟨j, dropped⟩ := dropZeros_mul_pow 20 (n / 10 ^ e)
      refine ⟨dropZeros 20 (n / 10 ^ e), j + e, ?_, ?_⟩
      · have uncarried : (n / 10 ^ e == Nat.pow 10 count) = false := beq_false_of_ne short.ne
        simp only [whole, if_true, uncarried, Bool.false_eq_true, if_false]
      · rw [Nat.pow_add, ← Nat.mul_assoc, dropped, exact]
    · have larger : e ≠ 0 := by
        rintro rfl
        exact whole (by simp [Nat.mod_one])
      simp only [whole, if_false]
      exact ih (by omega) (by omega)

/-- How many digits a natural has. -/
def digitCount (n : Nat) : Nat := (Nat.toDigits 10 n).length

theorem digitCount_le_iff {n k : Nat} (positive : 0 < k) : digitCount n ≤ k ↔ n < 10 ^ k :=
  Nat.length_toDigits_le_iff (by decide) positive

theorem digitCount_pos (n : Nat) : 0 < digitCount n := Nat.length_toDigits_pos

theorem digitCount_bounds {n : Nat} (positive : n ≠ 0) : 10 ^ (digitCount n - 1) ≤ n ∧ n < 10 ^ digitCount n := by
  have some := digitCount_pos n
  refine ⟨?_, (digitCount_le_iff some).mp le_rfl⟩
  by_cases single : digitCount n = 1
  · rw [single]
    simpa using Nat.one_le_iff_ne_zero.mpr positive
  · have fewer : ¬ digitCount n ≤ digitCount n - 1 := by omega
    rw [digitCount_le_iff (by omega)] at fewer
    exact Nat.le_of_not_lt fewer

/-- The first digit of a natural is found, whatever denominator it is given with. -/
theorem leadingExponent_mul {n : Nat} (positive : n ≠ 0) {d : Nat} (denominator : d ≠ 0) :
    leadingExponent (n * d) d = (digitCount n : Int) - 1 := by
  have product : n * d ≠ 0 := Nat.mul_ne_zero positive denominator
  obtain ⟨leastN, mostN⟩ := digitCount_bounds positive
  obtain ⟨leastD, mostD⟩ := digitCount_bounds denominator
  obtain ⟨leastP, mostP⟩ := digitCount_bounds product
  have someN := digitCount_pos n
  have someD := digitCount_pos d
  have upper : digitCount (n * d) ≤ digitCount n + digitCount d := by
    rw [digitCount_le_iff (by omega), Nat.pow_add]
    exact Nat.mul_lt_mul'' mostN mostD
  have lower : digitCount n + digitCount d ≤ digitCount (n * d) + 1 := by
    refine Nat.le_of_not_lt fun fewer => ?_
    have bounded : 10 ^ digitCount (n * d) ≤ 10 ^ (digitCount n - 1 + (digitCount d - 1)) :=
      Nat.pow_le_pow_right (by decide) (by omega)
    rw [Nat.pow_add] at bounded
    exact absurd (Nat.mul_le_mul leastN leastD) (by omega)
  have within (e : Nat) : d * 10 ^ e ≤ n * d ↔ 10 ^ e ≤ n := by
    rw [Nat.mul_comm n d]
    exact Nat.mul_le_mul_left_iff (Nat.pos_of_ne_zero denominator)
  obtain ⟨e, guess⟩ : ∃ e : Nat, (digitCount (n * d) : Int) - digitCount d = e := ⟨digitCount (n * d) - digitCount d, by omega⟩
  have unfolded : leadingExponent (n * d) d = if 10 ^ e ≤ n then (e : Int) else e - 1 := by
    simp only [leadingExponent, Int.ofNat_eq_natCast]
    rw [← digitCount, ← digitCount, guess, powerOfTen_natCast]
    simp only [Nat.mul_one, within]
  rw [unfolded]
  rcases Nat.lt_or_ge e (digitCount n) with less | more
  · have reaches : 10 ^ e ≤ n := (Nat.pow_le_pow_right (by decide) (by omega)).trans leastN
    rw [if_pos reaches]
    omega
  · have beyond : ¬ 10 ^ e ≤ n := Nat.not_le.mpr (mostN.trans_le (Nat.pow_le_pow_right (by decide) more))
    rw [if_neg beyond]
    omega

theorem toDigits_mul_pow {m : Nat} (positive : m ≠ 0) (j : Nat) :
    Nat.toDigits 10 (m * 10 ^ j) = Nat.toDigits 10 m ++ List.replicate j '0' := by
  induction j with
  | zero => simp
  | succ j ih =>
    have before : 0 < m * 10 ^ j := Nat.mul_pos (Nat.pos_of_ne_zero positive) (Nat.pow_pos (by decide))
    have step := Nat.toDigits_append_toDigits (b := 10) (d := 0) (by decide) before (by decide)
    have shifted : m * 10 ^ (j + 1) = 10 * (m * 10 ^ j) + 0 := by
      rw [Nat.pow_succ]
      ring
    rw [shifted, ← step, ih, Nat.toDigits_zero, List.append_assoc, ← List.replicate_succ']

/-- Digits that stand for a natural are written as that natural. -/
theorem positional_of_mul_pow {n digits j : Nat} (positive : n ≠ 0) (same : digits * 10 ^ j = n) :
    positional false ⟨digits, (digitCount n : Int) - 1⟩ = String.ofList (Nat.toDigits 10 n) := by
  have some : digits ≠ 0 := by
    rintro rfl
    exact positive (by rw [← same, Nat.zero_mul])
  have spelled : Nat.toDigits 10 n = Nat.toDigits 10 digits ++ List.replicate j '0' := by rw [← same, toDigits_mul_pow some]
  have places : digitCount n = (Nat.toDigits 10 digits).length + j := by rw [digitCount, spelled]; simp
  have nonempty : 0 < (Nat.toDigits 10 digits).length := Nat.length_toDigits_pos
  have whole : ((digitCount n : Int) - 1).toNat + 1 = (Nat.toDigits 10 digits).length + j := by omega
  unfold positional
  dsimp only
  rw [if_neg (by omega), whole, if_pos (by omega), spelled]
  simp

theorem shortest_of_small {n : Nat} (positive : n ≠ 0) (small : n < 2 ^ 53) (tie : Tie) (negative : Bool) :
    ∃ digits j, shortest tie (ofMagnitude negative (magnitudeOfRatio n 1)) = ⟨digits, (digitCount n : Int) - 1⟩ ∧
      digits * 10 ^ j = n := by
  have around := interval_of_small positive small negative
  have some := digitCount_pos n
  have few : digitCount n ≤ 16 := (digitCount_le_iff (by decide)).mpr (small.trans (by decide))
  obtain ⟨-, most⟩ := digitCount_bounds positive
  have leading : ((digitCount n - 1 : Nat) : Int) = (digitCount n : Int) - 1 := by omega
  have searched : ∃ digits j, search tie (ofMagnitude negative (magnitudeOfRatio n 1)).interval (digitCount n - 1 : Nat) 17 1 =
      ⟨digits, (digitCount n - 1 : Nat)⟩ ∧ digits * 10 ^ j = n :=
    search_of_around around tie (by rwa [Nat.sub_add_cancel some]) (by omega) (by omega)
  rw [leading] at searched
  obtain ⟨digits, j, found, same⟩ := searched
  refine ⟨digits, j, ?_, same⟩
  unfold shortest
  dsimp only
  rw [around.powerOfTwo]
  dsimp only
  rw [Nat.mul_one, around.value, leadingExponent_mul positive (Nat.two_pow_pos _).ne']
  exact found

/-- A float that is an integer of 53 bits is written like the integer. -/
theorem render_ofInt {i : Int} (small : i.natAbs < 2 ^ 53) : plainLayout.render (ofInt i) = toString i := by
  by_cases zero : i = 0
  · subst zero
    rfl
  · have positive : i.natAbs ≠ 0 := Int.natAbs_ne_zero.mpr zero
    have below := magnitudeOfRatio_one_lt (small.trans (by decide))
    have unsigned : magnitudeOfRatio i.natAbs 1 < signBit := below.trans (by decide)
    have finite : (ofInt i).isFinite = true := isFinite_ofMagnitude _ below
    have notNaN : (ofInt i).isNaN = false := by
      unfold isFinite at finite
      simp_all [isNaN]
    have notZero : (ofInt i).isZero = false := by
      rw [isZero, ofInt, magnitude_ofMagnitude _ unsigned, magnitudeOfRatio_one_of_small positive small]
      simp [leadingBit]
    have sign : (ofInt i).negative = decide (i < 0) := negative_ofMagnitude _ unsigned
    obtain ⟨digits, j, shortest, same⟩ := shortest_of_small positive small .upward (i < 0)
    have text : positional false ((ofInt i).shortest .upward) = i.natAbs.repr := by
      rw [ofInt, shortest, positional_of_mul_pow positive same, Nat.repr_eq_ofList_toDigits]
    have plain (leading : Int) : plainLayout.hasExponent leading = false := rfl
    unfold Layout.render
    simp only [notNaN, finite, notZero, sign, plain, Bool.not_true, Bool.false_eq_true, if_false]
    rw [show plainLayout.keepsPoint = false from rfl, show plainLayout.tie = .upward from rfl, text, Int.toString_eq_repr,
      Int.repr_eq_if]
    by_cases negative : i < 0
    · have absolute : (-i).toNat = i.natAbs := by omega
      simp [negative, absolute]
    · have absolute : i.toNat = i.natAbs := by omega
      simp [negative, absolute]

end RecordQuery.Binary64
