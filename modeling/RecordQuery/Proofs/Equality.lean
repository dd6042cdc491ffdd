import Mathlib.Data.List.Forall2
import Mathlib.Data.List.Perm.Subperm
import RecordQuery.Proofs.Canonical
import RecordQuery.Proofs.WholeNumbers

/-!
# Equality

Equality of values is symmetric, it holds between a value and itself unless a NaN is in it, and without floats it is
sameness (`equal_symmetric`). It is not transitive: two integers of more than 53 bits can be rounded to one float, which
then equals both of them (`equal_not_transitive`). Nothing else is in the way (`equal_trans_iff`).
-/

namespace RecordQuery

section Lists

variable {α β γ : Type} {as : List α} {bs : List β} {cs : List γ}

theorem exists_mem_of_forall₂ {R : α → β → Prop} (each : List.Forall₂ R as bs) {a : α} (member : a ∈ as) :
    ∃ b ∈ bs, R a b := by
  induction each with
  | nil => cases member
  | cons first others ih =>
    rcases List.mem_cons.mp member with rfl | member
    · exact ⟨_, List.mem_cons_self, first⟩
    · obtain ⟨b, isOther, related⟩ := ih member
      exact ⟨b, List.mem_cons_of_mem _ isOther, related⟩

/-- Between two that are at the same place in a first and a third list stands one of the second. -/
theorem exists_zip_of_forall₂ {R : α → β → Prop} {S : β → γ → Prop} (each : List.Forall₂ R as bs)
    (each' : List.Forall₂ S bs cs) {a : α} {c : γ} (place : (a, c) ∈ as.zip cs) :
    ∃ b, (a, b) ∈ as.zip bs ∧ R a b ∧ S b c := by
  induction each generalizing cs with
  | nil => cases place
  | @cons a' b' as bs related others ih =>
    obtain ⟨c', cs, related', others', rfl⟩ := List.forall₂_cons_left_iff.mp each'
    rcases List.mem_cons.mp place with same | later
    · obtain ⟨rfl, rfl⟩ : a = a' ∧ c = c' := by simpa using same
      exact ⟨b', List.mem_cons_self, related, related'⟩
    · obtain ⟨b, between, pair⟩ := ih others' later
      exact ⟨b, List.mem_cons_of_mem _ between, pair⟩

end Lists

namespace Binary64

/-- Equal floats of one sign are one float: of the two zeros each equals the other. -/
theorem eq_of_numericEq {x y : Binary64} (equal : x.numericEq y = true) (signs : x.negative = y.negative) : x = y := by
  obtain ⟨bits⟩ := x
  obtain ⟨bits'⟩ := y
  simp only [numericEq, isZero, Bool.and_eq_true, Bool.or_eq_true, beq_iff_eq] at equal
  obtain ⟨-, same | ⟨left, right⟩⟩ := equal
  · rw [same]
  · unfold Binary64.negative at signs
    rw [decide_eq_decide] at signs
    simp only [Binary64.magnitude, signBit] at left right signs
    have small := bits.toNat_lt
    have small' := bits'.toNat_lt
    have same : bits.toNat = bits'.toNat := by omega
    rw [UInt64.toNat_inj.mp same]

theorem numericEq_comm (x y : Binary64) : x.numericEq y = y.numericEq x := by
  rw [numericEq, numericEq, Bool.and_comm (!x.isNaN), Bool.and_comm x.isZero, Bool.beq_comm (a := x.bits)]

theorem numericEq_self (x : Binary64) : x.numericEq x = !x.isNaN := by simp [numericEq]

theorem numericEq_trans {x y z : Binary64} (first : x.numericEq y = true) (second : y.numericEq z = true) :
    x.numericEq z = true := by
  have isZero_congr {x y : Binary64} (same : x.bits = y.bits) : x.isZero = y.isZero := by
    simp only [isZero, magnitude, same]
  simp only [numericEq, Bool.and_eq_true, Bool.or_eq_true, beq_iff_eq] at first second ⊢
  obtain ⟨⟨number, -⟩, same | ⟨left, right⟩⟩ := first
  · obtain ⟨⟨-, number'⟩, same' | ⟨left', right'⟩⟩ := second
    · exact ⟨⟨number, number'⟩, .inl (same.trans same')⟩
    · exact ⟨⟨number, number'⟩, .inr ⟨(isZero_congr same).trans left', right'⟩⟩
  · obtain ⟨⟨-, number'⟩, same' | ⟨left', right'⟩⟩ := second
    · exact ⟨⟨number, number'⟩, .inr ⟨left, (isZero_congr same').symm.trans right⟩⟩
    · exact ⟨⟨number, number'⟩, .inr ⟨left, right'⟩⟩

end Binary64

namespace Value

/-! ## Parts -/

theorem equalItems_iff {as bs : List Value} :
    equalItems as bs = true ↔ List.Forall₂ (fun a b => a.equal b = true) as bs := by
  induction as generalizing bs with
  | nil => cases bs <;> simp [equalItems]
  | cons a as ih => cases bs <;> simp [equalItems, ih]

/-- What is no number and has no parts equals nothing else. -/
theorem eq_of_plain {a b : Value} (plain : a.kind = .null ∨ a.kind = .boolean ∨ a.kind = .string)
    (equal : a.equal b = true) : a = b := by
  cases a with
  | null =>
    cases b with
    | null => rfl
    | _ => cases equal
  | bool p =>
    cases b with
    | bool q => exact congrArg _ (eq_of_beq equal)
    | _ => cases equal
  | string s =>
    cases b with
    | string t => exact congrArg _ (eq_of_beq equal)
    | _ => cases equal
  | _ => simp [kind] at plain

/-- An array equals the arrays of equal items. -/
theorem equal_array {as : List Value} {b : Value} :
    (Value.array as).equal b = true ↔ ∃ bs, b = .array bs ∧ List.Forall₂ (fun a b => a.equal b = true) as bs := by
  constructor
  · intro equal
    cases b with
    | array bs => exact ⟨bs, rfl, equalItems_iff.mp equal⟩
    | _ => cases equal
  · rintro ⟨bs, rfl, each⟩
    exact equalItems_iff.mpr each

theorem equalMembers_iff {as bs : List (String × Value)} :
    equalMembers as bs = true ↔ ∀ member ∈ as, ∃ b, bs.lookup member.1 = some b ∧ member.2.equal b = true := by
  induction as with
  | nil => simp [equalMembers]
  | cons member as ih =>
    obtain ⟨key, a⟩ := member
    rw [equalMembers, Bool.and_eq_true, ih, List.forall_mem_cons]
    refine and_congr_left' ?_
    cases bs.lookup key <;> simp

/-- The keys of equal objects are the same, since they are as many. -/
theorem keys_eq_of_equalMembers {as bs : List (String × Value)} (ascending : Ascending as) (ascending' : Ascending bs)
    (length : as.length = bs.length) (equal : equalMembers as bs = true) : as.map Prod.fst = bs.map Prod.fst := by
  have among : as.map Prod.fst ⊆ bs.map Prod.fst := by
    intro key isKey
    obtain ⟨member, isMember, rfl⟩ := List.mem_map.mp isKey
    obtain ⟨b, found, -⟩ := equalMembers_iff.mp equal member isMember
    exact List.mem_map.mpr ⟨(member.1, b), mem_of_lookup found, rfl⟩
  have same : (as.map Prod.fst).Perm (bs.map Prod.fst) :=
    (ascending.nodup.subperm among).perm_of_length_le (by simp [length])
  refine same.eq_of_pairwise (fun key key' _ _ below above => ?_) (List.pairwise_map.mpr ascending)
    (List.pairwise_map.mpr ascending')
  exact absurd (String.lt_trans below above) (String.lt_irrefl _)

/-- Two members of one key that are equal. -/
def EqualMember (left right : String × Value) : Prop := left.1 = right.1 ∧ left.2.equal right.2 = true

/-- An object equals the objects of equal members in the same order: it is enough that they are as many and that each
has an equal one somewhere. -/
theorem equal_object {as : List (String × Value)} {b : Value} (ascending : Ascending as) (canonical : b.Canonical) :
    (Value.object as).equal b = true ↔ ∃ bs, b = .object bs ∧ List.Forall₂ EqualMember as bs := by
  constructor
  · intro equal
    cases b with
    | object bs =>
      have ascending' : Ascending bs := canonical.1
      rw [Value.equal, Bool.and_eq_true, beq_iff_eq] at equal
      obtain ⟨length, equal⟩ := equal
      have keys : List.Forall₂ (fun left right => left.1 = right.1) as bs := by
        have same := keys_eq_of_equalMembers ascending ascending' length equal
        rwa [← List.forall₂_eq_eq_eq, List.forall₂_map_left_iff, List.forall₂_map_right_iff] at same
      refine ⟨bs, rfl, List.forall₂_iff_zip.mpr ⟨length, fun {left right} place => ?_⟩⟩
      have sameKey : left.1 = right.1 := (List.forall₂_iff_zip.mp keys).2 place
      obtain ⟨isLeft, isRight⟩ := List.of_mem_zip place
      obtain ⟨b, found, equalMember⟩ := equalMembers_iff.mp equal left isLeft
      rw [sameKey, ascending'.lookup_of_mem isRight] at found
      obtain rfl := Option.some.inj found
      exact ⟨sameKey, equalMember⟩
    | _ => cases equal
  · rintro ⟨bs, rfl, each⟩
    rw [Value.equal, Bool.and_eq_true, beq_iff_eq]
    refine ⟨each.length_eq, equalMembers_iff.mpr fun left isLeft => ?_⟩
    obtain ⟨right, isRight, sameKey, equal⟩ := exists_mem_of_forall₂ each isLeft
    exact ⟨right.2, sameKey ▸ canonical.1.lookup_of_mem isRight, equal⟩

/-- In two values of one shape, two parts are at the same place. -/
inductive Faces : Value → Value → Value → Value → Prop
  | here (a b : Value) : Faces a b a b
  | item {as bs : List Value} {a b m n : Value} (place : (a, b) ∈ as.zip bs) (within : Faces a b m n) :
      Faces (.array as) (.array bs) m n
  | member {as bs : List (String × Value)} {key : String} {a b m n : Value} (left : (key, a) ∈ as) (right : (key, b) ∈ bs)
      (within : Faces a b m n) : Faces (.object as) (.object bs) m n

/-! ## Symmetry -/

theorem equal_comm_of_flat (a b : Value) (flat : a.kind ≠ .array) (flat' : a.kind ≠ .object) :
    a.equal b = b.equal a := by
  cases a with
  | array _ => exact absurd rfl flat
  | object _ => exact absurd rfl flat'
  | _ => cases b <;> simp [Value.equal, Bool.beq_comm, Binary64.numericEq_comm]

mutual

theorem equal_symm : (a b : Value) → a.Canonical → b.Canonical → a.equal b = true → b.equal a = true
  | .array as, b, canonical, canonical', equal => by
    obtain ⟨bs, rfl, each⟩ := equal_array.mp equal
    exact equal_array.mpr ⟨as, rfl, equalItems_symm as bs canonical canonical' each⟩
  | .object as, b, canonical, canonical', equal => by
    obtain ⟨bs, rfl, each⟩ := (equal_object canonical.1 canonical').mp equal
    have symmetric := equalMembers_symm as bs canonical.2 canonical'.2 each
    exact (equal_object canonical'.1 canonical).mpr ⟨as, rfl, symmetric⟩
  | .null, b, _, _, equal => (equal_comm_of_flat .null b nofun nofun).symm.trans equal
  | .bool p, b, _, _, equal => (equal_comm_of_flat (.bool p) b nofun nofun).symm.trans equal
  | .int i, b, _, _, equal => (equal_comm_of_flat (.int i) b nofun nofun).symm.trans equal
  | .float x, b, _, _, equal => (equal_comm_of_flat (.float x) b nofun nofun).symm.trans equal
  | .string s, b, _, _, equal => (equal_comm_of_flat (.string s) b nofun nofun).symm.trans equal

theorem equalItems_symm : (as bs : List Value) → CanonicalItems as → CanonicalItems bs →
    List.Forall₂ (fun a b => a.equal b = true) as bs → List.Forall₂ (fun b a => b.equal a = true) bs as
  | [], _, _, _, .nil => .nil
  | a :: as, b :: bs, canonical, canonical', .cons equal each =>
    .cons (equal_symm a b canonical.1 canonical'.1 equal) (equalItems_symm as bs canonical.2 canonical'.2 each)

theorem equalMembers_symm : (as bs : List (String × Value)) → CanonicalMembers as → CanonicalMembers bs →
    List.Forall₂ EqualMember as bs → List.Forall₂ EqualMember bs as
  | [], _, _, _, .nil => .nil
  | (_, a) :: as, (_, b) :: bs, canonical, canonical', .cons equal each =>
    .cons ⟨equal.1.symm, equal_symm a b canonical.1 canonical'.1 equal.2⟩
      (equalMembers_symm as bs canonical.2 canonical'.2 each)

end

/-! ## Reflexivity -/

mutual

theorem equal_self_iff : (a : Value) → a.Canonical → (a.equal a = true ↔ ∀ x ∈ a.floats, x.isNaN = false)
  | .array items, canonical => by
    have itself : (Value.array items).equal (.array items) = true ↔ ∀ item ∈ items, item.equal item = true :=
      equalItems_iff.trans List.forall₂_same
    rw [itself, floats, forall_floatsItems, forall₂_congr (equalItems_self_iff items canonical)]
  | .object members, canonical => by
    have itself : (Value.object members).equal (.object members) = true ↔
        ∀ member ∈ members, member.2.equal member.2 = true := by
      rw [equal_object canonical.1 canonical]
      simp [List.forall₂_same, EqualMember]
    rw [itself, floats, forall_floatsMembers, forall₂_congr (equalMembers_self_iff members canonical.2)]
  | .float x, _ => by simp [Value.equal, floats, Binary64.numericEq_self]
  | .null, _ | .bool _, _ | .int _, _ | .string _, _ => by simp [Value.equal, floats]

theorem equalItems_self_iff : (items : List Value) → CanonicalItems items →
    ∀ item ∈ items, (item.equal item = true ↔ ∀ x ∈ item.floats, x.isNaN = false)
  | [], _ => List.forall_mem_nil _
  | item :: items, canonical =>
    List.forall_mem_cons.mpr ⟨equal_self_iff item canonical.1, equalItems_self_iff items canonical.2⟩

theorem equalMembers_self_iff : (members : List (String × Value)) → CanonicalMembers members →
    ∀ member ∈ members, (member.2.equal member.2 = true ↔ ∀ x ∈ member.2.floats, x.isNaN = false)
  | [], _ => List.forall_mem_nil _
  | (_, member) :: members, canonical =>
    List.forall_mem_cons.mpr ⟨equal_self_iff member canonical.1, equalMembers_self_iff members canonical.2⟩

end

/-! ## Sameness -/

mutual

theorem eq_of_equal : (a b : Value) → a.Canonical → b.Canonical → a.floats = [] → b.floats = [] →
    a.equal b = true → a = b
  | .array as, b, canonical, canonical', floatless, floatless', equal => by
    obtain ⟨bs, rfl, each⟩ := equal_array.mp equal
    rw [eq_of_equalItems as bs canonical canonical' floatless floatless' each]
  | .object as, b, canonical, canonical', floatless, floatless', equal => by
    obtain ⟨bs, rfl, each⟩ := (equal_object canonical.1 canonical').mp equal
    rw [eq_of_equalMembers as bs canonical.2 canonical'.2 floatless floatless' each]
  | .int i, b, _, _, _, floatless', equal => by
    cases b with
    | int j => exact congrArg _ (eq_of_beq equal)
    | float _ => cases floatless'
    | _ => cases equal
  | .null, _, _, _, _, _, equal => eq_of_plain (.inl rfl) equal
  | .bool _, _, _, _, _, _, equal => eq_of_plain (.inr (.inl rfl)) equal
  | .string _, _, _, _, _, _, equal => eq_of_plain (.inr (.inr rfl)) equal

theorem eq_of_equalItems : (as bs : List Value) → CanonicalItems as → CanonicalItems bs → floatsItems as = [] →
    floatsItems bs = [] → List.Forall₂ (fun a b => a.equal b = true) as bs → as = bs
  | [], _, _, _, _, _, .nil => rfl
  | a :: as, b :: bs, canonical, canonical', floatless, floatless', .cons equal each => by
    rw [floatsItems, List.append_eq_nil_iff] at floatless floatless'
    rw [eq_of_equal a b canonical.1 canonical'.1 floatless.1 floatless'.1 equal,
      eq_of_equalItems as bs canonical.2 canonical'.2 floatless.2 floatless'.2 each]

theorem eq_of_equalMembers : (as bs : List (String × Value)) → CanonicalMembers as → CanonicalMembers bs →
    floatsMembers as = [] → floatsMembers bs = [] → List.Forall₂ EqualMember as bs → as = bs
  | [], _, _, _, _, _, .nil => rfl
  | (key, a) :: as, (key', b) :: bs, canonical, canonical', floatless, floatless', .cons equal each => by
    rw [floatsMembers, List.append_eq_nil_iff] at floatless floatless'
    obtain rfl : key = key' := equal.1
    rw [eq_of_equal a b canonical.1 canonical'.1 floatless.1 floatless'.1 equal.2,
      eq_of_equalMembers as bs canonical.2 canonical'.2 floatless.2 floatless'.2 each]

end

/-- Equality is symmetric, a value equals itself unless a NaN is in it, and without floats only the same value does. The
members of objects ascend, so the same value it is whatever their order was. -/
theorem equal_symmetric (a b : Value) (canonical : a.Canonical) (canonical' : b.Canonical) :
    (a.equal b = true ↔ b.equal a = true) ∧
      (a.equal a = true ↔ ∀ x ∈ a.floats, x.isNaN = false) ∧
      (a.floats = [] → b.floats = [] → (a.equal b = true ↔ a = b)) := by
  refine ⟨⟨equal_symm a b canonical canonical', equal_symm b a canonical' canonical⟩, equal_self_iff a canonical, ?_⟩
  intro floatless floatless'
  constructor
  · exact eq_of_equal a b canonical canonical' floatless floatless'
  · rintro rfl
    exact (equal_self_iff a canonical).mpr (by simp [floatless])

theorem equal_symmetric_depth :
    let depth := Value.object [("depth", .int 12), ("span", .array [.float ⟨0⟩])]
    let depth' := Value.object [("depth", .float ⟨0x4028000000000000⟩), ("span", .array [.float ⟨0x8000000000000000⟩])]
    let unknown := Value.array [.int 12, .float ⟨0x7FF8000000000000⟩]
    let metres := Value.array [.int 12, .string "m"]
    let feet := Value.array [.int 12, .string "ft"]
    depth'.equal depth = true ∧ unknown.equal unknown = false ∧ metres.equal feet = false := by
  intro depth depth' unknown metres feet
  have ascending (a b : Value) : Ascending [("depth", a), ("span", b)] :=
    List.pairwise_pair.mpr (show "depth" < "span" by decide)
  have canonical : depth.Canonical := ⟨ascending _ _, trivial, ⟨trivial, trivial⟩, trivial⟩
  have canonical' : depth'.Canonical := ⟨ascending _ _, trivial, ⟨trivial, trivial⟩, trivial⟩
  have pair (a b : Value) (flat : a.Canonical) (flat' : b.Canonical) : (Value.array [a, b]).Canonical :=
    ⟨flat, flat', trivial⟩
  have nan := (equal_symmetric unknown unknown (pair _ _ trivial trivial) (pair _ _ trivial trivial)).2.1
  have same := (equal_symmetric metres feet (pair _ _ trivial trivial) (pair _ _ trivial trivial)).2.2 rfl rfl
  refine ⟨(equal_symmetric depth depth' canonical canonical').1.mp (by decide +kernel), ?_, ?_⟩
  · rw [Bool.eq_false_iff, ne_eq, nan]
    decide
  · rw [Bool.eq_false_iff, ne_eq, same]
    simp [metres, feet]

/-! ## Transitivity -/

/-- Integers at the same place in two values are the same. -/
def IntegersAgree (a b : Value) : Prop := ∀ i j, Faces a b (.int i) (.int j) → i = j

theorem IntegersAgree.item {as bs : List Value} (agree : IntegersAgree (.array as) (.array bs)) {a b : Value}
    (place : (a, b) ∈ as.zip bs) : IntegersAgree a b := fun i j faces => agree i j (.item place faces)

theorem IntegersAgree.member {as bs : List (String × Value)} (agree : IntegersAgree (.object as) (.object bs))
    {key : String} {a b : Value} (left : (key, a) ∈ as) (right : (key, b) ∈ bs) : IntegersAgree a b :=
  fun i j faces => agree i j (.member left right faces)

mutual

theorem equal_trans : (a b c : Value) → a.Canonical → b.Canonical → c.Canonical → a.equal b = true →
    b.equal c = true → IntegersAgree a c → a.equal c = true
  | .array as, b, c, canonical, canonical', canonical'', first, second, agree => by
    obtain ⟨bs, rfl, each⟩ := equal_array.mp first
    obtain ⟨cs, rfl, each'⟩ := equal_array.mp second
    refine equal_array.mpr ⟨cs, rfl, ?_⟩
    exact equalItems_trans as bs cs canonical canonical' canonical'' each each' fun _ _ => agree.item
  | .object as, b, c, canonical, canonical', canonical'', first, second, agree => by
    obtain ⟨bs, rfl, each⟩ := (equal_object canonical.1 canonical').mp first
    obtain ⟨cs, rfl, each'⟩ := (equal_object canonical'.1 canonical'').mp second
    refine (equal_object canonical.1 canonical'').mpr ⟨cs, rfl, ?_⟩
    exact equalMembers_trans as bs cs canonical.2 canonical'.2 canonical''.2 each each' fun _ _ _ => agree.member
  | .null, b, c, _, _, _, first, second, _ => by
    obtain rfl : .null = b := eq_of_plain (.inl rfl) first
    exact second
  | .bool p, b, c, _, _, _, first, second, _ => by
    obtain rfl : .bool p = b := eq_of_plain (.inr (.inl rfl)) first
    exact second
  | .string s, b, c, _, _, _, first, second, _ => by
    obtain rfl : .string s = b := eq_of_plain (.inr (.inr rfl)) first
    exact second
  | .int i, b, c, _, _, _, first, second, agree => by
    cases b with
    | int j =>
      obtain rfl : i = j := eq_of_beq first
      exact second
    | float y =>
      cases c with
      -- the float is the nearest one to both integers, which need not be the same
      | int k => exact beq_iff_eq.mpr (agree i k (.here _ _))
      | float z => exact Binary64.numericEq_trans first second
      | _ => cases second
    | _ => cases first
  | .float x, b, c, _, _, _, first, second, agree => by
    cases b with
    | int j =>
      cases c with
      | int k =>
        obtain rfl : j = k := eq_of_beq second
        exact first
      | float z => exact Binary64.numericEq_trans first second
      | _ => cases second
    | float y =>
      cases c with
      | int k => exact Binary64.numericEq_trans first second
      | float z => exact Binary64.numericEq_trans first second
      | _ => cases second
    | _ => cases first

theorem equalItems_trans : (as bs cs : List Value) → CanonicalItems as → CanonicalItems bs → CanonicalItems cs →
    List.Forall₂ (fun a b => a.equal b = true) as bs → List.Forall₂ (fun b c => b.equal c = true) bs cs →
    (∀ a c, (a, c) ∈ as.zip cs → IntegersAgree a c) → List.Forall₂ (fun a c => a.equal c = true) as cs
  | [], _, _, _, _, _, .nil, .nil, _ => .nil
  | a :: as, b :: bs, c :: cs, canonical, canonical', canonical'', .cons first each, .cons second each', agree =>
    .cons (equal_trans a b c canonical.1 canonical'.1 canonical''.1 first second (agree a c List.mem_cons_self))
      (equalItems_trans as bs cs canonical.2 canonical'.2 canonical''.2 each each' fun a c place =>
        agree a c (List.mem_cons_of_mem _ place))

theorem equalMembers_trans : (as bs cs : List (String × Value)) → CanonicalMembers as → CanonicalMembers bs →
    CanonicalMembers cs → List.Forall₂ EqualMember as bs → List.Forall₂ EqualMember bs cs →
    (∀ key a c, (key, a) ∈ as → (key, c) ∈ cs → IntegersAgree a c) → List.Forall₂ EqualMember as cs
  | [], _, _, _, _, _, .nil, .nil, _ => .nil
  | (key, a) :: as, (key', b) :: bs, (key'', c) :: cs, canonical, canonical', canonical'', .cons first each,
      .cons second each', agree => by
    have sameKey : key = key'' := first.1.trans second.1
    refine .cons ⟨sameKey, equal_trans a b c canonical.1 canonical'.1 canonical''.1 first.2 second.2 ?_⟩ ?_
    · exact agree key a c List.mem_cons_self (sameKey ▸ List.mem_cons_self)
    · exact equalMembers_trans as bs cs canonical.2 canonical'.2 canonical''.2 each each' fun key a c left right =>
        agree key a c (List.mem_cons_of_mem _ left) (List.mem_cons_of_mem _ right)

end

namespace Faces

variable {a b c m n : Value}

/-- In equal values what is at the same place is equal. -/
theorem equal (faces : Faces a b m n) (canonical : b.Canonical) (equal : a.equal b = true) : m.equal n = true := by
  induction faces with
  | here => exact equal
  | @item as bs a b m n place within ih =>
    obtain ⟨-, isRight⟩ := List.of_mem_zip place
    exact ih (canonicalItems_iff.mp canonical b isRight) ((List.forall₂_iff_zip.mp (equalItems_iff.mp equal)).2 place)
  | @member as bs key a b m n left right within ih =>
    have members : (as.length == bs.length && equalMembers as bs) = true := equal
    rw [Bool.and_eq_true] at members
    obtain ⟨_, found, equal⟩ := equalMembers_iff.mp members.2 (key, a) left
    rw [canonical.1.lookup_of_mem right] at found
    obtain rfl := Option.some.inj found
    exact ih (canonicalMembers_iff.mp canonical.2 (key, b) right) equal

/-- In a value between two others that equals them, something stands between what is at the same place in these. -/
theorem between (faces : Faces a c m n) (canonical : a.Canonical) (canonical' : b.Canonical) (canonical'' : c.Canonical)
    (first : a.equal b = true) (second : b.equal c = true) :
    ∃ k, Faces a b m k ∧ m.equal k = true ∧ k.equal n = true := by
  induction faces generalizing b with
  | here => exact ⟨b, .here _ _, first, second⟩
  | @item as cs a c m n place within ih =>
    obtain ⟨bs, rfl, each⟩ := equal_array.mp first
    obtain ⟨b, between, equal, equal'⟩ := exists_zip_of_forall₂ each (equalItems_iff.mp second) place
    obtain ⟨isLeft, isRight⟩ := List.of_mem_zip place
    obtain ⟨-, isBetween⟩ := List.of_mem_zip between
    obtain ⟨k, faces, pair⟩ := ih (canonicalItems_iff.mp canonical a isLeft) (canonicalItems_iff.mp canonical' b isBetween)
      (canonicalItems_iff.mp canonical'' c isRight) equal equal'
    exact ⟨k, .item between faces, pair⟩
  | @member as cs key a c m n left right within ih =>
    obtain ⟨bs, rfl, each⟩ := (equal_object canonical.1 canonical').mp first
    obtain ⟨⟨_, b⟩, isBetween, rfl, equal⟩ := exists_mem_of_forall₂ each left
    have equal' : b.equal c = true := (Faces.member isBetween right (.here b c)).equal canonical'' second
    obtain ⟨k, faces, pair⟩ := ih (canonicalMembers_iff.mp canonical.2 _ left)
      (canonicalMembers_iff.mp canonical'.2 _ isBetween) (canonicalMembers_iff.mp canonical''.2 _ right) equal equal'
    exact ⟨k, .member left isBetween faces, pair⟩

end Faces

/-- Equality is transitive but where a float comes between two different integers: these have more than 53 bits. -/
theorem equal_trans_iff (a b c : Value) (canonical : a.Canonical) (canonical' : b.Canonical) (canonical'' : c.Canonical)
    (first : a.equal b = true) (second : b.equal c = true) :
    (a.equal c = true ↔ IntegersAgree a c) ∧
      ((∀ i x, Faces a b (.int i) (.float x) → i.toInt.natAbs < 2 ^ 53) → a.equal c = true) := by
  have transitive := equal_trans a b c canonical canonical' canonical'' first second
  refine ⟨⟨fun equal i j faces => ?_, transitive⟩, fun small => transitive fun i j faces => ?_⟩
  · exact eq_of_beq (faces.equal canonical'' equal)
  · obtain ⟨k, between, left, right⟩ := faces.between canonical canonical' canonical'' first second
    cases k with
    | int k =>
      obtain rfl : i = k := eq_of_beq left
      exact eq_of_beq right
    | float x =>
      have equal : (Binary64.ofInt i.toInt).numericEq (Binary64.ofInt j.toInt) = true := Binary64.numericEq_trans left right
      refine Int64.toInt_inj.mp (Binary64.eq_of_numericEq_ofInt (small i x between) ?_ equal)
      have := j.toInt_lt
      have := j.le_toInt
      omega
    | _ => cases left

theorem equal_trans_iff_sizes :
    let sizes := Value.object [("sizes", .array [.int 3, .float ⟨0x8000000000000000⟩])]
    let sizes' := Value.object [("sizes", .array [.float ⟨0x4008000000000000⟩, .int 0])]
    let sizes'' := Value.object [("sizes", .array [.int 3, .float ⟨0⟩])]
    sizes.equal sizes' = true ∧ sizes'.equal sizes'' = true ∧ IntegersAgree sizes sizes'' ∧
      sizes.equal sizes'' = true := by
  intro sizes sizes' sizes''
  have first : sizes.equal sizes' = true := by decide +kernel
  have second : sizes'.equal sizes'' = true := by decide +kernel
  have canonical (a b : Value) (flat : a.Canonical) (flat' : b.Canonical) :
      (Value.object [("sizes", .array [a, b])]).Canonical :=
    ⟨List.pairwise_singleton _ _, ⟨flat, flat', trivial⟩, trivial⟩
  have small : ∀ i x, Faces sizes sizes' (.int i) (.float x) → i.toInt.natAbs < 2 ^ 53 := by
    intro i x faces
    unfold sizes sizes' at faces
    cases faces with
    | @member _ _ key items items' _ _ left right within =>
      obtain ⟨-, rfl⟩ : key = "sizes" ∧ items = .array [.int 3, .float ⟨0x8000000000000000⟩] := by simpa using left
      obtain ⟨-, rfl⟩ : key = "sizes" ∧ items' = .array [.float ⟨0x4008000000000000⟩, .int 0] := by simpa using right
      cases within with
      | item place within =>
        rcases List.mem_pair.mp place with same | same <;> cases same <;> cases within
        decide
  obtain ⟨agree, transitive⟩ := equal_trans_iff sizes sizes' sizes'' (canonical _ _ trivial trivial)
    (canonical _ _ trivial trivial) (canonical _ _ trivial trivial) first second
  have equal := transitive small
  exact ⟨first, second, agree.mp equal, equal⟩

/-- The first value equals the second and the second the third, but the first does not equal the third. -/
def partedBetween (a b c : Value) : Bool := a.equal b && b.equal c && !a.equal c

/-- Integers of more than 53 bits are parted where both are rounded to one float: the first two of them, the two
greatest and the two least of all, on their own and within a list in an object. -/
theorem equal_not_transitive :
    partedBetween (.int 9007199254740993) (.float ⟨0x4340000000000000⟩) (.int 9007199254740992) = true ∧
      partedBetween (.int 9223372036854775807) (.float ⟨0x43E0000000000000⟩) (.int 9223372036854775806) = true ∧
      partedBetween (.int (-9223372036854775807)) (.float ⟨0xC3E0000000000000⟩) (.int (-9223372036854775808)) = true ∧
      partedBetween (.object [("sizes", .array [.int 9007199254740993])])
        (.object [("sizes", .array [.float ⟨0x4340000000000000⟩])])
        (.object [("sizes", .array [.int 9007199254740992])]) = true := by
  decide +kernel

end Value

end RecordQuery
