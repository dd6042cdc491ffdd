import RecordQuery.Proofs.Equality

/-!
# Seeds of equal values

Equality does not tell a number from another of the same size, but the seed of a number is taken from its bits, and
the seed of a list or an object from its text. So there are equal values with different seeds: `1` and `1.0`, the two
zeros, lists of such, and two integers of more than 53 bits that are rounded to one float
(`equal_seeds_differ`). Equal values of one kind have one seed, and one text, if numbers at the same places in
them have the same sign, and where an integer faces a float it has no more than 53 bits (`equal_seeds`).
-/

namespace RecordQuery

namespace Value

def isNegative : Value → Bool
  | .int i => i.toInt < 0
  | .float x => x.negative
  | _ => false

/-- Numbers at the same place have the same sign, zeros too, and an integer that faces a float has no more than 53
bits. -/
structure Level (a b : Value) : Prop where
  signs : ∀ m n, Faces a b m n → m.isNegative = n.isNegative
  small : ∀ i x, Faces a b (.int i) (.float x) ∨ Faces a b (.float x) (.int i) → i.toInt.natAbs < 2 ^ 53

/-- Two canonical values that are equal and level. -/
structure Matching (a b : Value) : Prop where
  canonical : a.Canonical
  canonical' : b.Canonical
  equal : a.equal b = true
  level : Level a b

theorem level_array {as bs : List Value} : Level (.array as) (.array bs) ↔ ∀ a b, (a, b) ∈ as.zip bs → Level a b := by
  constructor
  · intro level a b place
    exact ⟨fun m n faces => level.signs m n (.item place faces),
      fun i x faces => level.small i x (faces.imp (.item place) (.item place))⟩
  · intro each
    constructor
    · intro m n faces
      cases faces with
      | here => rfl
      | item place within => exact (each _ _ place).signs m n within
    · rintro i x (faces | faces) <;> cases faces with
      | item place within => exact (each _ _ place).small i x (by simp [within])

theorem level_object {as bs : List (String × Value)} :
    Level (.object as) (.object bs) ↔ ∀ key a b, (key, a) ∈ as → (key, b) ∈ bs → Level a b := by
  constructor
  · intro level key a b left right
    exact ⟨fun m n faces => level.signs m n (.member left right faces),
      fun i x faces => level.small i x (faces.imp (.member left right) (.member left right))⟩
  · intro each
    constructor
    · intro m n faces
      cases faces with
      | here => rfl
      | member left right within => exact (each _ _ _ left right).signs m n within
    · rintro i x (faces | faces) <;> cases faces with
      | member left right within => exact (each _ _ _ left right).small i x (by simp [within])

/-! ## Parts -/

namespace Matching

variable {a b : Value}

theorem items {as bs : List Value} (matching : Matching (.array as) (.array bs)) : List.Forall₂ Matching as bs := by
  obtain ⟨length, equal⟩ := List.forall₂_iff_zip.mp (equalItems_iff.mp matching.equal)
  refine List.forall₂_iff_zip.mpr ⟨length, fun {a b} place => ?_⟩
  obtain ⟨left, right⟩ := List.of_mem_zip place
  exact ⟨canonicalItems_iff.mp matching.canonical a left, canonicalItems_iff.mp matching.canonical' b right, equal place,
    level_array.mp matching.level a b place⟩

theorem members {as bs : List (String × Value)} (matching : Matching (.object as) (.object bs)) :
    List.Forall₂ (fun left right => left.1 = right.1 ∧ Matching left.2 right.2) as bs := by
  obtain ⟨_, ⟨⟩, each⟩ := (equal_object matching.canonical.1 matching.canonical').mp matching.equal
  obtain ⟨length, each⟩ := List.forall₂_iff_zip.mp each
  refine List.forall₂_iff_zip.mpr ⟨length, fun {left right} place => ?_⟩
  obtain ⟨sameKey, equal⟩ := each place
  obtain ⟨isLeft, isRight⟩ := List.of_mem_zip place
  have level : Level left.2 right.2 := level_object.mp matching.level right.1 _ _ (sameKey ▸ isLeft) isRight
  exact ⟨sameKey, canonicalMembers_iff.mp matching.canonical.2 left isLeft,
    canonicalMembers_iff.mp matching.canonical'.2 right isRight, equal, level⟩

theorem render_eq_toString {i : Int64} {x : Binary64} (equal : (Binary64.ofInt i.toInt).numericEq x = true)
    (signs : decide (i.toInt < 0) = x.negative) (small : i.toInt.natAbs < 2 ^ 53) :
    Binary64.plainLayout.render x = toString i.toInt := by
  have sign : (Binary64.ofInt i.toInt).negative = x.negative := by
    rw [← signs]
    exact Binary64.negative_ofMagnitude _ ((Binary64.magnitudeOfRatio_one_lt (small.trans (by decide))).trans (by decide))
  rw [← Binary64.eq_of_numericEq equal sign]
  exact Binary64.render_ofInt small

/-- Without parts, equal values of one kind are the same. -/
theorem eq_of_flat (matching : Matching a b) (kinds : a.kind = b.kind) (flat : a.kind ≠ .array) (flat' : a.kind ≠ .object) :
    a = b := by
  cases a with
  | null => exact eq_of_plain (.inl rfl) matching.equal
  | bool _ => exact eq_of_plain (.inr (.inl rfl)) matching.equal
  | string _ => exact eq_of_plain (.inr (.inr rfl)) matching.equal
  | int i => cases b with
    | int j => exact congrArg _ (eq_of_beq matching.equal)
    | _ => cases kinds
  | float x => cases b with
    | float y => exact congrArg _ (Binary64.eq_of_numericEq matching.equal (matching.level.signs _ _ (.here _ _)))
    | _ => cases kinds
  | array _ => exact absurd rfl flat
  | object _ => exact absurd rfl flat'

mutual

theorem text_eq : (a b : Value) → Matching a b → a.text = b.text
  | .null, b, matching => by
    cases b with
    | null => rfl
    | _ => cases matching.equal
  | .bool _, b, matching => by
    cases b with
    | bool _ => rw [matching.eq_of_flat rfl nofun nofun]
    | _ => cases matching.equal
  | .int i, b, matching => by
    have signs := matching.level.signs _ _ (.here _ _)
    cases b with
    | int _ => rw [matching.eq_of_flat rfl nofun nofun]
    | float x => exact (render_eq_toString matching.equal signs (matching.level.small i x (.inl (.here _ _)))).symm
    | _ => cases matching.equal
  | .float x, b, matching => by
    have signs := matching.level.signs _ _ (.here _ _)
    cases b with
    | float _ => rw [matching.eq_of_flat rfl nofun nofun]
    | int i =>
      have equal := (Binary64.numericEq_comm _ _).trans matching.equal
      exact render_eq_toString equal signs.symm (matching.level.small i x (.inr (.here _ _)))
    | _ => cases matching.equal
  | .string _, b, matching => by
    cases b with
    | string _ => rw [matching.eq_of_flat rfl nofun nofun]
    | _ => cases matching.equal
  | .array as, b, matching => by
    cases b with
    | array bs => rw [text, text, textItems_eq as bs matching.items]
    | _ => cases matching.equal
  | .object as, b, matching => by
    cases b with
    | object bs => rw [text, text, textMembers_eq as bs matching.members]
    | _ => cases matching.equal

theorem textItems_eq : (as bs : List Value) → List.Forall₂ Matching as bs → textItems as = textItems bs
  | [], _, .nil => rfl
  | a :: as, _, .cons first others => by
    rw [textItems, textItems, text_eq a _ first, textItems_eq as _ others]

theorem textMembers_eq : (as bs : List (String × Value)) →
    List.Forall₂ (fun left right => left.1 = right.1 ∧ Matching left.2 right.2) as bs →
    textMembers as = textMembers bs
  | [], _, .nil => rfl
  | (key, a) :: as, _, .cons ⟨sameKey, first⟩ others => by
    rw [textMembers, textMembers, text_eq a _ first, textMembers_eq as _ others, ← sameKey]

end

/-- Of what has parts the seed is taken from the text. -/
theorem seedOf_eq (matching : Matching a b) (kinds : a.kind = b.kind) : seedOf a = seedOf b := by
  have text := text_eq a b matching
  by_cases parts : a.kind = .array ∨ a.kind = .object
  · have hashed (v : Value) (parts : v.kind = .array ∨ v.kind = .object) :
        seedOf v = hash (Utf8.encode v.text) := by
      cases v <;> first | rfl | simp [kind] at parts
    rw [hashed a parts, hashed b (kinds ▸ parts), text]
  · obtain ⟨flat, flat'⟩ := not_or.mp parts
    rw [matching.eq_of_flat kinds flat flat']

end Matching

end Value

/-! ## Draws -/

/-- What a seed that is a query gives depends on its value alone, however often it was evaluated before. -/
theorem Query.run_randomIntFrom {world : World} {bound : Nat} {q : Query} {ctx : Context} {s t : Store} {seed : Value}
    (ends : (q.eval world bound ctx).run.run s = some (.ok seed, t)) (cell : Nat) :
    ∃ u, ((Query.randomIntFrom (.query q) cell).eval world bound ctx).run.run s =
      some (.ok (.int (intOfSeed (seedOf seed))), u) := by
  rw [eval_eq_evalWith] at ends ⊢
  rw [evalWith, run_bind, ends]
  exact ⟨_, rfl⟩

/-- Equal values of one kind have one seed if they are level, and so two integers with such values of queries as
their seeds are the same. -/
theorem equal_seeds (a b : Value) (canonical : a.Canonical) (canonical' : b.Canonical) (equal : a.equal b = true)
    (kinds : a.kind = b.kind) (level : a.Level b) :
    seedOf a = seedOf b ∧
      ∀ (world world' : World) (bound bound' : Nat) (q q' : Query) (ctx ctx' : Context) (s s' t t' : Store) (cell cell' : Nat),
        (q.eval world bound ctx).run.run s = some (.ok a, t) → (q'.eval world' bound' ctx').run.run s' = some (.ok b, t') →
        ∃ i u u', ((Query.randomIntFrom (.query q) cell).eval world bound ctx).run.run s = some (.ok (.int i), u) ∧
          ((Query.randomIntFrom (.query q') cell').eval world' bound' ctx').run.run s' = some (.ok (.int i), u') := by
  have same : seedOf a = seedOf b := Value.Matching.seedOf_eq ⟨canonical, canonical', equal, level⟩ kinds
  refine ⟨same, ?_⟩
  intro world world' bound bound' q q' ctx ctx' s s' t t' cell cell' ends ends'
  obtain ⟨u, drawn⟩ := Query.run_randomIntFrom ends cell
  obtain ⟨u', drawn'⟩ := Query.run_randomIntFrom ends' cell'
  rw [← same] at drawn'
  exact ⟨_, u, u', drawn, drawn'⟩

/-- A number in a list, under a name. -/
def measured (number : Value) : Value := .object [("sizes", .array [number])]

theorem canonical_measured {number : Value} (canonical : number.Canonical) : (measured number).Canonical :=
  ⟨List.pairwise_singleton _ _, ⟨canonical, trivial⟩, trivial⟩

theorem level_measured {a b : Value} (level : a.Level b) : (measured a).Level (measured b) := by
  refine Value.level_object.mpr fun key left right isLeft isRight => ?_
  obtain ⟨-, rfl⟩ : key = "sizes" ∧ left = .array [a] := by simpa using isLeft
  obtain ⟨-, rfl⟩ : key = "sizes" ∧ right = .array [b] := by simpa using isRight
  refine Value.level_array.mpr fun item item' place => ?_
  obtain ⟨rfl, rfl⟩ : item = a ∧ item' = b := by simpa using place
  exact level

theorem equal_seeds_measured :
    let one := measured (.int 1)
    let one' := measured (.float ⟨0x3FF0000000000000⟩)
    seedOf one = seedOf one' ∧
      ∃ i u u', ((Query.randomIntFrom (.query (.literal one)) 0).eval .blank 0 {}).run.run {} = some (.ok (.int i), u) ∧
        ((Query.randomIntFrom (.query (.field ["x"])) 0).eval .blank 0 { bound := some (.object [("x", one')]) }).run.run {} =
          some (.ok (.int i), u') := by
  intro one one'
  have level : (Value.int 1).Level (.float ⟨0x3FF0000000000000⟩) := by
    constructor
    · intro m n faces
      cases faces
      decide
    · rintro i x (faces | faces) <;> cases faces
      decide
  have ends : ((Query.literal one).eval .blank 0 {}).run.run {} = some (.ok one, {}) := rfl
  have ends' : ((Query.field ["x"]).eval .blank 0 { bound := some (.object [("x", one')]) }).run.run {} =
      some (.ok one', {}) := rfl
  obtain ⟨seeds, draws⟩ := equal_seeds one one' (canonical_measured trivial) (canonical_measured trivial) (by decide) rfl
    (level_measured level)
  exact ⟨seeds, draws _ _ _ _ _ _ _ _ _ _ _ _ 0 0 ends ends'⟩

/-- The integer that is drawn with the value of a query as the seed. -/
def drawnFrom (seed : Value) : Option Int64 :=
  (((Query.randomIntFrom (.query (.literal seed)) 0).eval .blank 0 {}).run.run {}).bind fun ended =>
    ended.1.toOption.bind Value.asInt?

/-- Equal values with different seeds, with which different integers are drawn. -/
def partedBySeed (a b : Value) : Bool := a.equal b && seedOf a != seedOf b && drawnFrom a != drawnFrom b

/-- Parted are an integer and its float, the two zeros, also in lists, and, only in lists, an integer of more than 53
bits and the float that it is rounded to. -/
theorem equal_seeds_differ :
    partedBySeed (.int 1) (.float ⟨0x3FF0000000000000⟩) = true ∧
      partedBySeed (.float ⟨0⟩) (.float ⟨0x8000000000000000⟩) = true ∧
      partedBySeed (.array [.float ⟨0⟩]) (.array [.float ⟨0x8000000000000000⟩]) = true ∧
      partedBySeed (.array [.int 9007199254740993]) (.array [.float ⟨0x4340000000000000⟩]) = true := by
  decide +kernel

end RecordQuery
