import Mathlib.Algebra.Group.Int.Defs
import Mathlib.Algebra.Group.Nat.Defs
import RecordQuery.Query.Context

/-!
# Positions

An integer addresses an item of a sequence from the front, or from the end if it is negative. Both the index of an array
and the index of a record in a batch go by that (`Value.index_eq`, `Context.resolveIndex_eq`), and their sums stay within
64 bits. A decimal segment of a path is such an integer as long as 64 bits hold it (`Value.field_decimal_iff`). A longer
one is taken for a name, which the items are asked for (`Value.wide_decimal_spreads`).
-/

namespace RecordQuery

/-- The position among some items that an integer addresses: itself, or counted from the end if it is negative. -/
def addressed? (length : Nat) (i : Int) : Option Nat :=
  if 0 ≤ i ∧ i < length then some i.toNat
  else if i < 0 ∧ 0 ≤ length + i then some (length + i).toNat
  else none

theorem addressed?_eq_none {length : Nat} {i : Int} (outside : i < -length ∨ length ≤ i) :
    addressed? length i = none := by
  rw [addressed?, if_neg (by omega), if_neg (by omega)]

theorem addressed?_of_inside {length : Nat} {i : Int} (inside : -(length : Int) ≤ i ∧ i < length) :
    ∃ place, addressed? length i = some place := by
  unfold addressed?
  by_cases backward : i < 0
  · exact ⟨_, by rw [if_neg (by omega), if_pos (by omega)]⟩
  · exact ⟨_, if_pos (by omega)⟩

theorem lt_of_addressed? {length place : Nat} {i : Int} (found : addressed? length i = some place) : place < length := by
  unfold addressed? at found
  split at found
  next =>
    cases found
    omega
  next =>
    split at found
    next =>
      cases found
      omega
    next => cases found

/-- The place that an index is first turned into is a position if it is inside. -/
theorem addressed?_of_place {length : Nat} {i place : Int} (same : place = if i < 0 then length + i else i) :
    addressed? length i = if 0 ≤ place ∧ place < length then some place.toNat else none := by
  unfold addressed?
  by_cases backward : i < 0
  · rw [if_pos backward] at same
    subst same
    by_cases inside : 0 ≤ length + i
    · rw [if_neg (by omega), if_pos ⟨backward, inside⟩, if_pos (by omega)]
    · rw [if_neg (by omega), if_neg (by omega), if_neg (by omega)]
  · rw [if_neg backward] at same
    subst same
    by_cases inside : place < length
    · rw [if_pos (by omega), if_pos (by omega)]
    · rw [if_neg (by omega), if_neg (by omega), if_neg (by omega)]

/-! ## Indices of 64 bits -/

section

variable {length : Nat} (few : length < 2 ^ 63) (i : Int64)
include few

/-- Counting from the end stays within 64 bits, whatever the index is. -/
theorem toInt_fromEnd (backward : i.toInt < 0) : (Int64.ofNat length + i).toInt = length + i.toInt := by
  have least := i.le_toInt
  rw [Int64.toInt_add, Int64.toInt_ofNat_of_lt few]
  exact Int.bmod_eq_of_le (by omega) (by omega)

theorem toInt_place :
    (if i < 0 then Int64.ofNat length + i else i).toInt = if i.toInt < 0 then length + i.toInt else i.toInt := by
  have sign : i < 0 ↔ i.toInt < 0 := by rw [Int64.lt_iff_toInt_lt, Int64.toInt_zero]
  by_cases backward : i.toInt < 0
  · rw [if_pos (sign.mpr backward), if_pos backward, toInt_fromEnd few i backward]
  · rw [if_neg (mt sign.mp backward), if_neg backward]

theorem inside_iff : 0 ≤ i ∧ i < Int64.ofNat length ↔ 0 ≤ i.toInt ∧ i.toInt < length := by
  rw [Int64.le_iff_toInt_le, Int64.lt_iff_toInt_lt, Int64.toInt_ofNat_of_lt few, Int64.toInt_zero]

theorem outside_iff : i < 0 ∨ Int64.ofNat length ≤ i ↔ ¬ (0 ≤ i.toInt ∧ i.toInt < length) := by
  rw [Int64.le_iff_toInt_le, Int64.lt_iff_toInt_lt, Int64.toInt_ofNat_of_lt few, Int64.toInt_zero]
  omega

theorem Context.resolveIndex_eq :
    resolveIndex i length = match addressed? length i.toInt with
      | some place => .ok place
      | none => .error (.indexOutOfBounds i.toInt length) := by
  rw [addressed?_of_place (toInt_place few i)]
  unfold resolveIndex
  dsimp only
  generalize (if i < 0 then Int64.ofNat length + i else i) = place
  by_cases inside : 0 ≤ place.toInt ∧ place.toInt < length
  · rw [if_neg (mt (outside_iff few place).mp (not_not_intro inside)), if_pos inside]
  · rw [if_pos ((outside_iff few place).mpr inside), if_neg inside]

end

namespace Value

/-- The item that an integer addresses, null if there is none. -/
def itemAt (items : List Value) (i : Int) : Value := ((addressed? items.length i).bind (items[·]?)).getD .null

theorem index_eq {items : List Value} (few : items.length < 2 ^ 63) (i : Int64) :
    (Value.array items).index i = .ok (itemAt items i.toInt) := by
  rw [itemAt, addressed?_of_place (toInt_place few i)]
  unfold index
  dsimp only
  generalize (if i < 0 then Int64.ofNat items.length + i else i) = place
  by_cases inside : 0 ≤ place.toInt ∧ place.toInt < items.length
  · rw [if_pos ((inside_iff few place).mpr inside), if_pos inside, Option.bind_some]
  · rw [if_neg (mt (inside_iff few place).mp inside), if_neg inside, Option.bind_none, Option.getD_none]

end Value

/-! ## Decimal segments -/

namespace Numeral

theorem int64?_of_integer? {text : String} {i : Int} (read : integer? text = some i) :
    int64? text = if -2 ^ 63 ≤ i ∧ i < 2 ^ 63 then some (Int64.ofInt i) else none := by
  have most : Int64.maxValue.toInt = 2 ^ 63 - 1 := by decide
  have least : Int64.minValue.toInt = -2 ^ 63 := by decide
  rw [int64?, read, Option.bind_some]
  by_cases fits : -2 ^ 63 ≤ i ∧ i < 2 ^ 63
  · rw [if_pos fits, if_pos (by omega)]
  · rw [if_neg fits, if_neg (by omega)]

/-- A decimal integer numeral: digits, of any number, behind a minus sign or none. -/
structure Decimal where
  negative : Bool
  digits : List Char
  present : digits ≠ []
  decimal : digits.all Char.isDigit = true

namespace Decimal

def text (numeral : Decimal) : String :=
  String.ofList (if numeral.negative then '-' :: numeral.digits else numeral.digits)

def value (numeral : Decimal) : Int :=
  let magnitude := Int.ofNat (Nat.ofDigitChars 10 numeral.digits 0)
  if numeral.negative then -magnitude else magnitude

variable (numeral : Decimal)

theorem digits?_digits : digits? numeral.digits = some (Nat.ofDigitChars 10 numeral.digits 0) := by
  rw [digits?, if_pos ⟨numeral.present, numeral.decimal⟩]
  rfl

theorem integer?_text : integer? numeral.text = some numeral.value := by
  obtain ⟨negative, digits, present, decimal⟩ := numeral
  have read := digits?_digits ⟨negative, digits, present, decimal⟩
  unfold integer? text value
  rw [String.toList_ofList]
  cases negative with
  | true => simp [read]
  | false =>
    -- The first digit is no sign.
    cases digits with
    | nil => exact absurd rfl present
    | cons c rest =>
      have first := List.all_eq_true.mp decimal c List.mem_cons_self
      simp only [Bool.false_eq_true, if_false]
      split
      next same =>
        cases same
        cases first
      next same =>
        cases same
        cases first
      next => rw [read]; rfl

/-- 64 bits hold the integer that a numeral writes. -/
def Fits : Prop := -2 ^ 63 ≤ numeral.value ∧ numeral.value < 2 ^ 63

instance : Decidable numeral.Fits := inferInstanceAs (Decidable (_ ∧ _))

variable {numeral}

theorem int64?_of_fits (fits : numeral.Fits) : ∃ i, int64? numeral.text = some i ∧ i.toInt = numeral.value := by
  obtain ⟨above, below⟩ := fits
  refine ⟨Int64.ofInt numeral.value, ?_, Int64.toInt_ofInt_of_le above (by omega)⟩
  rw [int64?_of_integer? numeral.integer?_text, if_pos ⟨above, below⟩]

theorem int64?_of_not_fits (wide : ¬ numeral.Fits) : int64? numeral.text = none := by
  rw [int64?_of_integer? numeral.integer?_text]
  exact if_neg wide

end Decimal

end Numeral

namespace Value

open Numeral (Decimal)

theorem fieldItems_eq_mapM (key : String) (items : List Value) : fieldItems key items = items.mapM (field key) := by
  induction items with
  | nil => rfl
  | cons item rest ih =>
    rw [fieldItems, ih, List.mapM_cons]
    rfl

section

variable {items : List Value} {numeral : Decimal}

theorem field_of_fits (few : items.length < 2 ^ 63) (fits : numeral.Fits) :
    (Value.array items).field numeral.text = .ok (itemAt items numeral.value) := by
  obtain ⟨i, read, value⟩ := Decimal.int64?_of_fits fits
  rw [field, read, ← value]
  exact index_eq few i

/-- A segment that is no index is asked of all items. -/
theorem field_of_not_fits (wide : ¬ numeral.Fits) :
    (Value.array items).field numeral.text = (items.mapM (field numeral.text)).map Value.array := by
  rw [field, Decimal.int64?_of_not_fits wide, fieldItems_eq_mapM]

/-- What the items are asked for comes back as an array, where the integer addresses nothing and so means null. -/
theorem field_ne_of_not_fits (few : items.length < 2 ^ 63) (wide : ¬ numeral.Fits) :
    (Value.array items).field numeral.text ≠ .ok (itemAt items numeral.value) := by
  have nothing : itemAt items numeral.value = .null := by
    unfold Decimal.Fits at wide
    rw [itemAt, addressed?_eq_none (by omega)]
    rfl
  rw [field_of_not_fits wide, nothing]
  cases items.mapM (field numeral.text) with
  | ok found => exact nofun
  | error e => exact nofun

end

/-- A decimal segment gives the item of an array that its integer addresses, or null if there is none, whatever the items
are, exactly if 64 bits hold the integer. A longer one is asked of every item as a name is, so it gives an array or fails.
No array has 2 ^ 63 items: memory does not hold them. -/
theorem field_decimal_iff (items : List Value) (few : items.length < 2 ^ 63) (numeral : Decimal) :
    ((Value.array items).field numeral.text = .ok (itemAt items numeral.value) ↔ numeral.Fits) ∧
    (¬ numeral.Fits →
      (Value.array items).field numeral.text = (items.mapM (field numeral.text)).map Value.array) := by
  refine ⟨⟨?_, field_of_fits few⟩, field_of_not_fits⟩
  intro indexed
  by_cases fits : numeral.Fits
  · exact fits
  · exact absurd indexed (field_ne_of_not_fits few fits)

/-- The greatest and the least integer of 64 bits, and the last item but one, of items that have no fields. -/
theorem field_decimal_iff_ends :
    let items := [Value.bool true, .int 7, .string "x"]
    (Value.array items).field "9223372036854775807" = .ok .null ∧
      (Value.array items).field "-9223372036854775808" = .ok .null ∧
      (Value.array items).field "-0002" = .ok (.int 7) := by
  intro items
  have few : items.length < 2 ^ 63 := by decide
  let greatest : Decimal := ⟨false, "9223372036854775807".toList, by decide, by decide⟩
  let least : Decimal := ⟨true, "9223372036854775808".toList, by decide, by decide⟩
  let second : Decimal := ⟨true, "0002".toList, by decide, by decide⟩
  exact ⟨(field_decimal_iff items few greatest).1.mpr (by decide), (field_decimal_iff items few least).1.mpr (by decide),
    (field_decimal_iff items few second).1.mpr (by decide)⟩

/-- One more than the greatest integer of 64 bits. -/
def beyond : Decimal := ⟨false, "9223372036854775808".toList, by decide, by decide⟩

/-- It addresses nothing, and fails at the first item, which has no fields. -/
theorem wide_decimal_spreads :
    (Value.array [.int 1, .int 2]).field beyond.text = .error (.typeMismatch "object" .integer) ∧
      (Value.array [.int 1, .int 2]).field beyond.text ≠ .ok (itemAt [.int 1, .int 2] beyond.value) := by
  have failed : (Value.array [.int 1, .int 2]).field beyond.text = .error (.typeMismatch "object" .integer) := rfl
  refine ⟨failed, ?_⟩
  rw [failed]
  exact nofun

end Value

end RecordQuery
