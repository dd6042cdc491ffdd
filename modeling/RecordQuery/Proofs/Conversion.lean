import RecordQuery.Proofs.Finite

/-!
# There and back

Conversion to JSON fails at a NaN or an infinity and nowhere else, and a value that is converted is the value of what
it is converted to: an integer stays one, a float keeps its bits. The other way round every JSON value comes back, as it
was unless it has an integer that needs all 64 bits, in whose place the nearest float stands (`toJson_inverse`).
-/

namespace RecordQuery

namespace Binary64

/-- The bits of a float by its fields. -/
theorem toNat_bits (x : Binary64) :
    x.bits.toNat = x.exponentField * leadingBit + x.fraction + if x.negative then signBit else 0 := by
  have small := x.bits.toNat_lt
  simp only [exponentField, fraction, Binary64.negative, decide_eq_true_iff]
  unfold leadingBit signBit
  split <;> omega

theorem isFinite_infinity (sign : Bool) : (infinity sign).isFinite = false := by
  unfold isFinite infinity
  rw [exponentField_ofMagnitude sign (by decide)]
  decide

/-- What is not finite is a NaN or one of the two infinities. -/
theorem isFinite_eq_false_iff {x : Binary64} : x.isFinite = false ↔ x.isNaN = true ∨ x = infinity x.negative := by
  constructor
  · intro notFinite
    have field : x.exponentField = 2047 := by simpa [isFinite] using notFinite
    by_cases zero : x.fraction = 0
    · right
      have same : x.bits.toNat = (infinity x.negative).bits.toNat := by
        rw [toNat_bits, field, zero, infinity, toNat_bits_ofMagnitude _ (by decide)]
        rfl
      cases x
      exact congrArg _ (UInt64.toNat_inj.mp same)
    · left
      simp [isNaN, field, zero]
  · rintro (isNaN | same)
    · obtain ⟨field, -⟩ : x.exponentField = 2047 ∧ x.fraction ≠ 0 := by simpa [Binary64.isNaN] using isNaN
      simp [isFinite, field]
    · rw [same]
      exact isFinite_infinity _

end Binary64

/-- A value holds the number as it is: an integer that 64 bits with sign hold, or a float. -/
def JsonNumber.Exact : JsonNumber → Prop
  | .natural n => n.toNat ≤ Int64.maxValue.toInt
  | .negative .. | .float .. => True

instance : DecidablePred JsonNumber.Exact
  | .natural n => inferInstanceAs (Decidable (n.toNat ≤ Int64.maxValue.toInt))
  | .negative .. | .float .. => instDecidableTrue

mutual

/-- The numbers in a JSON value, at every depth. -/
def Json.numbers : Json → List JsonNumber
  | .number n => [n]
  | .array items => Json.numbersItems items
  | .object members => Json.numbersMembers members
  | .null | .bool _ | .string _ => []

def Json.numbersItems : List Json → List JsonNumber
  | [] => []
  | item :: rest => item.numbers ++ Json.numbersItems rest

def Json.numbersMembers : List (String × Json) → List JsonNumber
  | [] => []
  | (_, member) :: rest => member.numbers ++ Json.numbersMembers rest

end

namespace Eval.Within

variable {α β : Type} {V : α → Prop} {W : β → Prop} {E E' : Error → Prop} {x : Except Error α}

theorem map {f : α → β} (within : Within V E x) (kept : ∀ a, V a → W (f a)) : Within W E (x.map f) := by
  cases x with
  | ok a => exact kept a within
  | error e => exact within

theorem bind {f : α → Except Error β} (within : Within V E x) (next : ∀ a, V a → Within W E (f a)) :
    Within W E (x >>= f) := by
  cases x with
  | ok a => exact next a within
  | error e => exact within

theorem mono (within : Within V E x) (weaker : ∀ e, E e → E' e) : Within V E' x := by
  cases x with
  | ok a => exact within
  | error e => exact weaker e within

end Eval.Within

namespace Value

open Eval (Within)

/-- The error of a conversion tells a NaN or an infinity of the value. -/
def Unconvertible (floats : List Binary64) (e : Error) : Prop :=
  ∃ x ∈ floats, x.isFinite = false ∧ e = .json ("invalid float: " ++ Binary64.plainLayout.render x)

theorem Unconvertible.mono {floats more : List Binary64} (among : floats ⊆ more) {e : Error}
    (invalid : Unconvertible floats e) : Unconvertible more e := by
  obtain ⟨x, isFloat, told⟩ := invalid
  exact ⟨x, among isFloat, told⟩

theorem ofJsonNumber_jsonInt (i : Int64) : ofJsonNumber (jsonInt i) = .int i := by
  unfold jsonInt
  split
  next => rfl
  next forward =>
    have positive : 0 ≤ i := Int64.not_lt.mp forward
    have same : i.toUInt64.toNat = i.toNatClampNeg := Int64.toNat_toUInt64_of_le positive
    have fits : Int.ofNat i.toNatClampNeg ≤ Int64.maxValue.toInt := by
      rw [Int.ofNat_eq_natCast, ← Int64.toInt_eq_toNatClampNeg positive]
      exact Int64.le_iff_toInt_le.mp (Int64.le_maxValue i)
    rw [ofJsonNumber, same, if_pos fits, Int64.ofNat_toNatClampNeg i positive]

theorem jsonInt_ofNat {n : UInt64} (fits : Int.ofNat n.toNat ≤ Int64.maxValue.toInt) :
    jsonInt (Int64.ofNat n.toNat) = .natural n := by
  have most : Int64.maxValue.toInt = 2 ^ 63 - 1 := by decide
  have small : n.toNat < 2 ^ 63 := by
    rw [Int.ofNat_eq_natCast] at fits
    omega
  have value : (Int64.ofNat n.toNat).toInt = n.toNat := Int64.toInt_ofNat_of_lt small
  have positive : 0 ≤ Int64.ofNat n.toNat := by
    rw [Int64.le_iff_toInt_le, value, Int64.toInt_zero]
    omega
  have same : (Int64.ofNat n.toNat).toUInt64 = n := by
    rw [← UInt64.toNat_inj, Int64.toNat_toUInt64_of_le positive, ← Int64.toNat_toInt, value, Int.toNat_natCast]
  rw [jsonInt, dif_neg (Int64.not_lt.mpr positive), same]

theorem jsonFloat_within (x : Binary64) :
    Within (fun n => ofJsonNumber n = .float x) (Unconvertible [x]) (jsonFloat x) := by
  unfold jsonFloat JsonNumber.ofFloat?
  by_cases finite : x.isFinite = true
  · rw [dif_pos finite]
    rfl
  · rw [dif_neg finite]
    exact ⟨x, List.mem_singleton_self x, by simpa using finite, rfl⟩

/-! ## There and back -/

mutual

theorem toJson_within : (v : Value) → Within (fun json => ofJson json = v) (Unconvertible v.floats) v.toJson
  | .null | .bool _ | .string _ => rfl
  | .int i => ofJsonNumber_jsonInt i
  | .float x => (jsonFloat_within x).map fun _ same => same
  | .array items => (toJsonItems_within items).map fun _ same => congrArg Value.array same
  | .object members => (toJsonMembers_within members).map fun _ same => congrArg Value.object same

theorem toJsonItems_within : (items : List Value) →
    Within (fun all => ofJsonItems all = items) (Unconvertible (floatsItems items)) (toJsonItems items)
  | [] => rfl
  | item :: items => by
    have first := (toJson_within item).mono fun _ => Unconvertible.mono (List.subset_append_left _ (floatsItems items))
    have others := (toJsonItems_within items).mono fun _ => Unconvertible.mono (List.subset_append_right item.floats _)
    refine first.bind fun head sameHead => others.bind fun tail sameTail => ?_
    rw [Within, ofJsonItems, sameHead, sameTail]

theorem toJsonMembers_within : (members : List (String × Value)) →
    Within (fun all => ofJsonMembers all = members) (Unconvertible (floatsMembers members)) (toJsonMembers members)
  | [] => rfl
  | (key, member) :: members => by
    have first := (toJson_within member).mono fun _ => Unconvertible.mono (List.subset_append_left _ (floatsMembers members))
    have others := (toJsonMembers_within members).mono fun _ => Unconvertible.mono (List.subset_append_right member.floats _)
    refine first.bind fun head sameHead => others.bind fun tail sameTail => ?_
    rw [Within, ofJsonMembers, sameHead, sameTail]

end

theorem toJson_ofJsonNumber (n : JsonNumber) :
    ∃ back, (ofJsonNumber n).toJson = .ok (.number back) ∧ (back = n ↔ n.Exact) := by
  have ofFloat {x : Binary64} (finite : x.isFinite = true) : (Value.float x).toJson = .ok (.number (.float x finite)) := by
    simp [toJson, jsonFloat, JsonNumber.ofFloat?, finite, Except.map]
  cases n with
  | natural n =>
    rw [ofJsonNumber]
    by_cases fits : Int.ofNat n.toNat ≤ Int64.maxValue.toInt
    · rw [if_pos fits]
      exact ⟨_, rfl, iff_of_true (jsonInt_ofNat fits) fits⟩
    · have small : (Int.ofNat n.toNat).natAbs < 2 ^ 64 := n.toNat_lt
      rw [if_neg fits]
      exact ⟨_, ofFloat (Binary64.isFinite_ofInt small), iff_of_false (fun same => by cases same) fits⟩
  | negative i below => exact ⟨.negative i below, by simp [ofJsonNumber, toJson, jsonInt, below], iff_of_true rfl trivial⟩
  | float x finite => exact ⟨_, ofFloat finite, iff_of_true rfl trivial⟩

mutual

theorem toJson_ofJson : (json : Json) →
    ∃ back, (ofJson json).toJson = .ok back ∧ (back = json ↔ ∀ n ∈ json.numbers, n.Exact)
  | .number n => by
    obtain ⟨back, converted, same⟩ := toJson_ofJsonNumber n
    exact ⟨.number back, converted, by simp [same, Json.numbers]⟩
  | .array items => by
    obtain ⟨all, converted, same⟩ := toJsonItems_ofJsonItems items
    exact ⟨.array all, by rw [ofJson, toJson, converted]; rfl, by rw [Json.numbers, Json.array.injEq, same]⟩
  | .object members => by
    obtain ⟨all, converted, same⟩ := toJsonMembers_ofJsonMembers members
    exact ⟨.object all, by rw [ofJson, toJson, converted]; rfl, by rw [Json.numbers, Json.object.injEq, same]⟩
  | .null => ⟨.null, rfl, by simp [Json.numbers]⟩
  | .bool b => ⟨.bool b, rfl, by simp [Json.numbers]⟩
  | .string s => ⟨.string s, rfl, by simp [Json.numbers]⟩

theorem toJsonItems_ofJsonItems : (items : List Json) →
    ∃ all, toJsonItems (ofJsonItems items) = .ok all ∧ (all = items ↔ ∀ n ∈ Json.numbersItems items, n.Exact)
  | [] => ⟨[], rfl, by simp [Json.numbersItems]⟩
  | item :: items => by
    obtain ⟨head, first, same⟩ := toJson_ofJson item
    obtain ⟨tail, others, same'⟩ := toJsonItems_ofJsonItems items
    refine ⟨head :: tail, by rw [ofJsonItems, toJsonItems, first, others]; rfl, ?_⟩
    rw [Json.numbersItems, List.forall_mem_append, List.cons.injEq, same, same']

theorem toJsonMembers_ofJsonMembers : (members : List (String × Json)) →
    ∃ all, toJsonMembers (ofJsonMembers members) = .ok all ∧
      (all = members ↔ ∀ n ∈ Json.numbersMembers members, n.Exact)
  | [] => ⟨[], rfl, by simp [Json.numbersMembers]⟩
  | (key, member) :: members => by
    obtain ⟨head, first, same⟩ := toJson_ofJson member
    obtain ⟨tail, others, same'⟩ := toJsonMembers_ofJsonMembers members
    refine ⟨(key, head) :: tail, by rw [ofJsonMembers, toJsonMembers, first, others]; rfl, ?_⟩
    rw [Json.numbersMembers, List.forall_mem_append, List.cons.injEq, Prod.mk.injEq, same, same']
    simp

end

/-- A value is converted to JSON unless a NaN or an infinity is in it, and then it is the value of the result, else one of
these is told; a JSON value comes back from its value, as it was if 64 bits with sign hold its integers. -/
theorem toJson_inverse :
    (∀ v : Value, ((∃ e, v.toJson = .error e) ↔ ∃ x ∈ v.floats, x.isNaN = true ∨ x = .infinity x.negative) ∧
      (∀ e, v.toJson = .error e → Unconvertible v.floats e) ∧ ∀ json, v.toJson = .ok json → ofJson json = v) ∧
    ∀ json, ∃ back, (ofJson json).toJson = .ok back ∧ (back = json ↔ ∀ n ∈ json.numbers, n.Exact) := by
  refine ⟨fun v => ?_, toJson_ofJson⟩
  simp only [← Binary64.isFinite_eq_false_iff]
  have within := toJson_within v
  cases converted : v.toJson with
  | error e =>
    rw [converted] at within
    obtain ⟨x, isFloat, infinite, -⟩ := id within
    refine ⟨iff_of_true ⟨e, rfl⟩ ⟨x, isFloat, infinite⟩, ?_, nofun⟩
    rintro _ ⟨⟩
    exact within
  | ok json =>
    rw [converted] at within
    have same : ofJson json = v := within
    have finite : v.Finite := same ▸ finite_ofJson json
    refine ⟨iff_of_false nofun ?_, nofun, ?_⟩
    · rintro ⟨x, isFloat, infinite⟩
      exact absurd (finite x isFloat) (by simp [infinite])
    · rintro _ ⟨⟩
      exact same

theorem toJson_inverse_survey :
    let survey := Value.object [("bay", .null), ("sizes", .array [.float ⟨0x4008000000000000⟩, .float ⟨0x8000000000000000⟩])]
    let broken := Value.object [("sizes", .array [.int 3, .float ⟨0x7FF8000000000000⟩])]
    let most := Json.array [.number (.natural 0x7FFFFFFFFFFFFFFF), .number (.negative (-9223372036854775808) (by decide))]
    (∃ json, survey.toJson = .ok json ∧ ofJson json = survey) ∧
      (∃ e, broken.toJson = .error e ∧ Unconvertible broken.floats e) ∧ (ofJson most).toJson = .ok most := by
  intro survey broken most
  refine ⟨?_, ?_, ?_⟩
  · obtain ⟨json, converted⟩ := Finite.toJson survey (by decide)
    exact ⟨json, converted, (toJson_inverse.1 survey).2.2 json converted⟩
  · obtain ⟨fails, told, -⟩ := toJson_inverse.1 broken
    obtain ⟨e, failed⟩ := fails.mpr ⟨⟨0x7FF8000000000000⟩, List.mem_singleton_self _, .inl (by decide)⟩
    exact ⟨e, failed, told e failed⟩
  · obtain ⟨back, converted, same⟩ := toJson_inverse.2 most
    rwa [same.mpr (by decide)] at converted

end Value

end RecordQuery
