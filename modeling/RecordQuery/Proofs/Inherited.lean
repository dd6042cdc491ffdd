import RecordQuery.Proofs.Outcomes
import RecordQuery.Proofs.Tables

/-!
# What paths keep

A path into a value leads to a part of it, to null, or, where it spreads over an array, to an array of such. So both
walks keep a property that null has, that parts inherit, and that an array has if its items do
(`Value.Inherited.fieldPath`, `Value.Inherited.lookupPath`). What all floats of a value have in common is one
(`Value.inherited_floats`).
-/

namespace RecordQuery.Value

/-- A property that null has, that members and items inherit, and that items make an array have. -/
structure Inherited (V : Value → Prop) : Prop where
  null : V .null
  array : ∀ items, V (.array items) ↔ ∀ item ∈ items, V item
  object : ∀ members, V (.object members) → ∀ member ∈ members, V member.2

namespace Inherited

variable {V : Value → Prop}

theorem index (inherited : Inherited V) {v found : Value} {i : Int64} (holds : V v)
    (same : v.index i = .ok found) : V found := by
  unfold Value.index at same
  split at same
  next items =>
    have atPlace (place : Nat) : V (items[place]?.getD .null) := by
      cases inside : items[place]? with
      | none => exact inherited.null
      | some item => exact (inherited.array items).mp holds item (List.mem_of_getElem? inside)
    have either (within : Prop) [Decidable within] (place : Nat) : V (if within then items[place]?.getD .null else .null) := by
      split
      · exact atPlace place
      · exact inherited.null
    obtain rfl := Except.ok.inj same
    exact either _ _
  next =>
    cases same
    exact inherited.null
  next => cases same

theorem lookup (inherited : Inherited V) {members : List (String × Value)} (holds : V (.object members))
    {key : String} {found : Value} (same : members.lookup key = some found) : V found :=
  inherited.object members holds (key, found) (mem_of_lookup same)

mutual

theorem field (inherited : Inherited V) (key : String) : (v : Value) → V v → ∀ found, v.field key = .ok found → V found
  | .null, _, found, same => by
    cases same
    exact inherited.null
  | .object members, holds, found, same => by
    cases same
    cases inside : members.lookup key with
    | none => exact inherited.null
    | some member => exact inherited.lookup holds inside
  | .array items, holds, found, same => by
    rw [Value.field] at same
    split at same
    next i => exact inherited.index holds same
    next =>
      cases each : Value.fieldItems key items with
      | error e =>
        rw [each] at same
        cases same
      | ok all =>
        rw [each] at same
        cases same
        exact (inherited.array all).mpr (fieldItems inherited key items ((inherited.array items).mp holds) all each)
  | .bool _, _, found, same => by cases same
  | .int _, _, found, same => by cases same
  | .float _, _, found, same => by cases same
  | .string _, _, found, same => by cases same

theorem fieldItems (inherited : Inherited V) (key : String) : (items : List Value) → (∀ item ∈ items, V item) →
    ∀ found, Value.fieldItems key items = .ok found → ∀ item ∈ found, V item
  | [], _, found, same => by
    cases same
    exact List.forall_mem_nil _
  | item :: items, holds, found, same => by
    obtain ⟨first, others⟩ := List.forall_mem_cons.mp holds
    rw [Value.fieldItems] at same
    cases step : item.field key with
    | error e =>
      rw [step] at same
      cases same
    | ok head =>
      cases steps : Value.fieldItems key items with
      | error e =>
        rw [step, steps] at same
        cases same
      | ok tail =>
        rw [step, steps] at same
        cases same
        have ofHead := field inherited key item first head step
        exact List.forall_mem_cons.mpr ⟨ofHead, fieldItems inherited key items others tail steps⟩

end

theorem fieldPath (inherited : Inherited V) {v found : Value} {path : List String} (holds : V v)
    (same : v.fieldPath path = .ok found) : V found := by
  unfold Value.fieldPath at same
  induction path generalizing v with
  | nil =>
    cases same
    exact holds
  | cons key path ih =>
    rw [List.foldlM_cons] at same
    cases step : v.field key with
    | error e =>
      rw [step] at same
      cases same
    | ok next =>
      rw [step] at same
      exact ih (inherited.field key v holds next step) same

theorem lookupFrom (inherited : Inherited V) {v found : Value} {path : String} {keys : List String} (holds : V v)
    (same : v.lookupFrom path keys = .ok found) : V found := by
  induction keys generalizing v with
  | nil =>
    cases same
    exact holds
  | cons key keys ih =>
    unfold Value.lookupFrom at same
    split at same
    next members =>
      split at same
      next member inside => exact ih (inherited.lookup holds inside) same
      next => cases same
    next items =>
      split at same
      next item inside =>
        obtain ⟨place, -, atPlace⟩ := Option.bind_eq_some_iff.mp inside
        exact ih ((inherited.array items).mp holds item (List.mem_of_getElem? atPlace)) same
      next => cases same
    next => cases same

theorem lookupPath (inherited : Inherited V) {v found : Value} {path : List String} (holds : V v)
    (same : v.lookupPath path = .ok found) : V found :=
  inherited.lookupFrom holds same

end Inherited

/-! ## Floats -/

mutual

/-- The floats in a value, at every depth. -/
def floats : Value → List Binary64
  | .float x => [x]
  | .array items => floatsItems items
  | .object members => floatsMembers members
  | .null | .bool _ | .int _ | .string _ => []

def floatsItems : List Value → List Binary64
  | [] => []
  | item :: rest => item.floats ++ floatsItems rest

def floatsMembers : List (String × Value) → List Binary64
  | [] => []
  | (_, member) :: rest => member.floats ++ floatsMembers rest

end

theorem mem_floatsItems {items : List Value} {x : Binary64} : x ∈ floatsItems items ↔ ∃ item ∈ items, x ∈ item.floats := by
  induction items with
  | nil => simp [floatsItems]
  | cons item items ih => simp [floatsItems, ih]

theorem mem_floatsMembers {members : List (String × Value)} {x : Binary64} :
    x ∈ floatsMembers members ↔ ∃ member ∈ members, x ∈ member.2.floats := by
  induction members with
  | nil => simp [floatsMembers]
  | cons member members ih => simp [floatsMembers, ih]

theorem forall_floatsItems {P : Binary64 → Prop} {items : List Value} :
    (∀ x ∈ floatsItems items, P x) ↔ ∀ item ∈ items, ∀ x ∈ item.floats, P x := by
  simp only [mem_floatsItems]
  exact ⟨fun all item isItem x isFloat => all x ⟨item, isItem, isFloat⟩,
    fun each x ⟨item, isItem, isFloat⟩ => each item isItem x isFloat⟩

theorem forall_floatsMembers {P : Binary64 → Prop} {members : List (String × Value)} :
    (∀ x ∈ floatsMembers members, P x) ↔ ∀ member ∈ members, ∀ x ∈ member.2.floats, P x := by
  simp only [mem_floatsMembers]
  exact ⟨fun all member isMember x isFloat => all x ⟨member, isMember, isFloat⟩,
    fun each x ⟨member, isMember, isFloat⟩ => each member isMember x isFloat⟩

theorem inherited_floats (P : Binary64 → Prop) : Inherited fun v => ∀ x ∈ v.floats, P x where
  null := List.forall_mem_nil _
  array items := by
    rw [floats]
    exact forall_floatsItems
  object members := by
    rw [floats]
    exact forall_floatsMembers.mp

end RecordQuery.Value
