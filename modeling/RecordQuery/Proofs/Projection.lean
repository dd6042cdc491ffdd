import Mathlib.Algebra.Group.Nat.Defs
import RecordQuery.Proofs.Extension
import RecordQuery.Proofs.InStep
import RecordQuery.Proofs.Positions
import RecordQuery.Proofs.Remainders
import RecordQuery.Query.Builder

/-!
# Strict and lenient paths

What a strict path finds the lenient path finds too: the positions that the one reads are among the integers that the
other reads, with the same item there. Without arrays the strict outcome tells the lenient one: where the strict path
ends at a missing key or at null the lenient one gives null, and any other failure is the same. So a record that `json`
reads by a path is read the same by `get` and by a field (`strict_and_lenient_agree`).
-/

namespace RecordQuery

namespace Numeral

theorem digits?_minus (rest : List Char) : digits? ('-' :: rest) = none := by
  have noDigit : Char.isDigit '-' = false := by decide
  simp [digits?, noDigit]

/-- A position is an integer without a minus sign. -/
theorem integer?_of_position? {text : String} {n : Nat} (position : position? text = some n) :
    integer? text = some (n : Int) := by
  obtain ⟨m, digits, small⟩ := Option.bind_eq_some_iff.mp position
  obtain rfl : m = n := by
    split at small
    · exact Option.some.inj small
    · cases small
  unfold integer?
  split
  next rest spelled =>
    rw [spelled] at digits
    exact absurd ((digits?_minus rest).symm.trans digits) nofun
  next rest spelled =>
    have digits : digits? rest = some m := by rwa [spelled] at digits
    rw [digits]
    rfl
  next noMinus noPlus =>
    split at digits
    next rest spelled => exact absurd spelled (noPlus rest)
    next =>
      rw [digits]
      rfl

theorem int64?_of_position? {text : String} {n : Nat} (position : position? text = some n) (small : n < 2 ^ 63) :
    int64? text = some (Int64.ofInt n) := by
  rw [int64?_of_integer? (integer?_of_position? position), if_pos (by omega)]

end Numeral

namespace Value

/-! ## One segment -/

theorem index_ofInt {items : List Value} {n : Nat} {item : Value} (few : items.length < 2 ^ 63)
    (found : items[n]? = some item) : (Value.array items).index (Int64.ofInt n) = .ok item := by
  obtain ⟨inside, -⟩ := List.getElem?_eq_some_iff.mp found
  have place : (Int64.ofInt n).toInt = n := Int64.toInt_ofInt_of_le (by omega) (by omega)
  rw [index_eq few, place, itemAt, addressed?, if_pos (by omega), Int.toNat_natCast, Option.bind_some, found]
  rfl

/-- The item at a position, read with a sign or without. -/
theorem field_of_position {items : List Value} {key : String} {item : Value} (few : items.length < 2 ^ 63)
    (found : (Numeral.position? key).bind (items[·]?) = some item) : (Value.array items).field key = .ok item := by
  obtain ⟨n, position, atPlace⟩ := Option.bind_eq_some_iff.mp found
  obtain ⟨inside, -⟩ := List.getElem?_eq_some_iff.mp atPlace
  rw [field, Numeral.int64?_of_position? position (by omega)]
  exact index_ofInt few atPlace

theorem field_of_lookup {members : List (String × Value)} {key : String} {member : Value}
    (found : members.lookup key = some member) : (Value.object members).field key = .ok member := by
  rw [field, found]
  rfl

theorem fieldPath_cons {v next : Value} {key : String} {rest : List String} (step : v.field key = .ok next) :
    v.fieldPath (key :: rest) = next.fieldPath rest := by
  rw [fieldPath, List.foldlM_cons, step]
  rfl

theorem fieldPath_cons_error {v : Value} {key : String} {rest : List String} {e : Error} (step : v.field key = .error e) :
    v.fieldPath (key :: rest) = .error e := by
  rw [fieldPath, List.foldlM_cons, step]
  rfl

theorem fieldPath_null (path : List String) : Value.null.fieldPath path = .ok .null := by
  induction path with
  | nil => rfl
  | cons key rest ih => exact (fieldPath_cons rfl).trans ih

/-! ## Paths -/

theorem fieldPath_of_lookupFrom {path : String} {v found : Value} {keys : List String} (below : v.ArraysBelow (2 ^ 63))
    (same : v.lookupFrom path keys = .ok found) : v.fieldPath keys = .ok found := by
  induction keys generalizing v with
  | nil => exact same
  | cons key rest ih =>
    unfold lookupFrom at same
    split at same
    next members =>
      split at same
      next member inside =>
        have ofMember := arraysBelow_object.mp below (key, member) (mem_of_lookup inside)
        exact (fieldPath_cons (field_of_lookup inside)).trans (ih ofMember same)
      next => cases same
    next items =>
      split at same
      next item inside =>
        obtain ⟨few, each⟩ := arraysBelow_array.mp below
        obtain ⟨n, -, atPlace⟩ := Option.bind_eq_some_iff.mp inside
        exact (fieldPath_cons (field_of_position few inside)).trans (ih (each item (List.mem_of_getElem? atPlace)) same)
      next => cases same
    next => cases same

/-- No array stands in a value. -/
def ArrayFree (v : Value) : Prop := ∀ items, ¬ Occurs (.array items) v

theorem ArrayFree.member {members : List (String × Value)} (free : (Value.object members).ArrayFree) {key : String}
    {member : Value} (found : members.lookup key = some member) : member.ArrayFree :=
  fun items within => free items (.member (mem_of_lookup found) within)

/-- The outcome of a lenient path that goes where a strict one has ended with an outcome: what the strict one misses
is null. -/
def lenientOutcome : Except Error Value → Except Error Value
  | .ok found => .ok found
  | .error (.pathNotFound _) => .ok .null
  | .error (.typeMismatch _ .null) => .ok .null
  | .error e => .error e

theorem fieldPath_eq_lenientOutcome {path : String} {v : Value} (free : v.ArrayFree) (keys : List String) :
    v.fieldPath keys = lenientOutcome (v.lookupFrom path keys) := by
  induction keys generalizing v with
  | nil => rfl
  | cons key rest ih =>
    cases v with
    | object members =>
      rw [lookupFrom]
      cases found : members.lookup key with
      | some member => exact (fieldPath_cons (field_of_lookup found)).trans (ih (free.member found))
      | none =>
        have step : (Value.object members).field key = .ok .null := by rw [field, found]; rfl
        exact (fieldPath_cons step).trans (fieldPath_null rest)
    | array items => exact absurd (.here _) (free items)
    | null => exact fieldPath_null _
    | _ => exact fieldPath_cons_error rfl

end Value

/-! ## Queries -/

namespace Query

open Eval (Succeeds)

theorem succeeds_liftExcept {x y : Except Error Value} (same : ∀ v, x = .ok v → y = .ok v) :
    Succeeds (liftExcept x) (liftExcept y) := by
  cases x with
  | error e => exact .throw e _
  | ok v =>
    rw [same v rfl]
    exact .refl _

variable {ctx : Context} (text : ∀ r, ctx.record? = some r → r.body.length < 2 ^ 63)
include text

theorem arraysBelow_of_body {body : Value} (same : ctx.body = .ok body) : body.ArraysBelow (2 ^ 63) := by
  unfold Context.body Context.record at same
  cases record : ctx.record? with
  | none =>
    rw [record] at same
    cases same
  | some r =>
    rw [record] at same
    intro items within
    exact Nat.lt_trans (Value.arraysBelow_of_parse same items within) (text r record)

theorem succeeds_get (world : World) (bound : Nat) (path : List String) :
    Succeeds ((Query.json path).eval world bound ctx) ((Query.get (.json []) path).eval world bound ctx) := by
  rw [eval_eq_evalWith, evalWith_json, evalWith, evalWith_json, Context.lookup, Context.lookup]
  cases parsed : ctx.body with
  | error e => exact .throw e _
  | ok body =>
    exact succeeds_liftExcept fun v same => Value.fieldPath_of_lookupFrom (arraysBelow_of_body text parsed) same

theorem succeeds_field (world : World) (bound : Nat) (path : List String) (unbound : ctx.bound = none) :
    Succeeds ((Query.json path).eval world bound ctx) ((Query.field path).eval world bound ctx) := by
  rw [eval_eq_evalWith, evalWith_json, evalWith_field, Context.lookup, Context.field, unbound]
  cases parsed : ctx.body with
  | error e => exact .throw e _
  | ok body =>
    exact succeeds_liftExcept fun v same => Value.fieldPath_of_lookupFrom (arraysBelow_of_body text parsed) same

end Query

/-- What a strict path finds the lenient path finds too, and without arrays the strict outcome tells the lenient one:
null where a key is missing or null has no parts, else the same error. So what `json` gives by a path `get` gives too,
and a field without a bound value. No array has 2 ^ 63 items and no record that many bytes: memory does not hold
them. -/
theorem strict_and_lenient_agree :
    (∀ (v found : Value) (path : List String), v.ArraysBelow (2 ^ 63) → v.lookupPath path = .ok found →
      v.fieldPath path = .ok found) ∧
    (∀ (v : Value) (path : List String), v.ArrayFree → v.fieldPath path = Value.lenientOutcome (v.lookupPath path)) ∧
    ∀ (world : World) (bound : Nat) (ctx : Context) (path : String),
      (∀ r, ctx.record? = some r → r.body.length < 2 ^ 63) →
        ((Query.json (splitPath path)).eval world bound ctx).Succeeds
          ((Query.get (.json []) (splitPath path)).eval world bound ctx) ∧
        (ctx.bound = none → ((Query.json (splitPath path)).eval world bound ctx).Succeeds
          ((Query.ofField path).eval world bound ctx)) := by
  refine ⟨?_, ?_, ?_⟩
  · intro v found path below same
    exact Value.fieldPath_of_lookupFrom below same
  · intro v path free
    exact Value.fieldPath_eq_lenientOutcome free path
  · intro world bound ctx path text
    exact ⟨Query.succeeds_get text world bound _, Query.succeeds_field text world bound _⟩

/-- A record with the depths of some bays. -/
def bays : Context := { batch := #[{ body := Utf8.encode "[\"bays\", \x7b\"depth\": [3, 4]\x7d]" }] }

theorem strict_and_lenient_agree_bays :
    let depths := Value.object [("depth", .array [.int 3, .int 4])]
    let bay := Value.object [("depth", .null)]
    depths.fieldPath ["depth", "+01"] = .ok (.int 4) ∧ bay.fieldPath ["depth", "mean"] = .ok .null ∧
      ∃ v t, ((Query.json (splitPath "1.depth.+01")).eval .blank 0 bays).run.run {} = some (.ok v, t) ∧
        ((Query.get (.json []) (splitPath "1.depth.+01")).eval .blank 0 bays).run.run {} = some (.ok v, t) ∧
        ((Query.ofField "1.depth.+01").eval .blank 0 bays).run.run {} = some (.ok v, t) := by
  intro depths bay
  have below : depths.ArraysBelow (2 ^ 63) := by
    refine Value.arraysBelow_object.mpr fun member isMember => ?_
    obtain rfl := List.mem_singleton.mp isMember
    refine Value.arraysBelow_array.mpr ⟨by simp, fun item isItem => ?_⟩
    rcases List.mem_pair.mp isItem with rfl | rfl <;> exact Value.arraysBelow_flat nofun nofun
  have free : (Value.object [("depth", .null)]).ArrayFree := by
    rintro items (_ | _ | ⟨isMember, within⟩)
    obtain rfl := List.mem_singleton.mp isMember
    cases within
  have text : ∀ r, bays.record? = some r → r.body.length < 2 ^ 63 := by
    intro r same
    obtain rfl : _ = r := Option.some.inj same
    decide +kernel
  have ran : (((Query.json (splitPath "1.depth.+01")).eval .blank 0 bays).run.run {}).map
      (fun ended => ended.1.toOption.isSome) = some true := by decide +kernel
  obtain ⟨⟨outcome, t⟩, ended, succeeded⟩ := Option.map_eq_some_iff.mp ran
  cases outcome with
  | error e => cases succeeded
  | ok v =>
    obtain ⟨strict, without, queries⟩ := strict_and_lenient_agree
    obtain ⟨byGet, byField⟩ := queries .blank 0 bays "1.depth.+01" text
    exact ⟨strict depths _ _ below rfl, without bay _ free, v, t, ended, byGet _ _ _ ended, byField rfl _ _ _ ended⟩

end RecordQuery
