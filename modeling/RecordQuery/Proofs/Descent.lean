import RecordQuery.Proofs.Application
import RecordQuery.Proofs.Chains
import RecordQuery.Proofs.Equality
import RecordQuery.Proofs.Projection
import RecordQuery.Proofs.RoundTrip

/-!
# Recursive descent

A map can go down a value by applying itself to what stands under a path, with something to fall back on
(`Query.descent`). A missing key and null both give null, and arrays stay arrays, so it is only at a scalar that the path
fails and the fallback is taken. Where following the path over and over meets a scalar (`Value.MeetsScalar`), the descent
ends there, no deeper than the value is; where it does not, the descent never ends (`descent_ends_at_scalars`).
-/

namespace RecordQuery

namespace Value

/-! ## The way to a scalar -/

/-- A value that is not null and holds no others. -/
def IsScalar : Value → Prop
  | .null | .array _ | .object _ => False
  | .bool _ | .int _ | .float _ | .string _ => True

theorem IsScalar.field_error {v : Value} (scalar : v.IsScalar) (key : String) : ∃ e, v.field key = .error e := by
  cases v with
  | null | array _ | object _ => exact scalar.elim
  | bool _ | int _ | float _ | string _ => exact ⟨_, rfl⟩

/-- To follow some keys, and from there a path over and over, meets a scalar with a key still to follow. The keys lead to
the members of objects, and in an array from each item on. -/
inductive MeetsScalar (path : List String) : List String → Value → Prop
  | here {v : Value} (key : String) (rest : List String) (scalar : v.IsScalar) : MeetsScalar path (key :: rest) v
  | member {key : String} {rest : List String} {members : List (String × Value)} {member : Value}
    (found : members.lookup key = some member) (below : MeetsScalar path rest member) :
    MeetsScalar path (key :: rest) (.object members)
  | item {keys : List String} {items : List Value} {item : Value} (isItem : item ∈ items)
    (below : MeetsScalar path keys item) : MeetsScalar path keys (.array items)
  | again {v : Value} (below : MeetsScalar path path v) : MeetsScalar path [] v

namespace MeetsScalar

variable {path keys rest : List String} {v w : Value}

theorem not_null : ¬ MeetsScalar path keys .null := by
  intro meets
  generalize same : Value.null = v at meets
  induction meets with
  | here key rest scalar => exact absurd scalar (same ▸ id)
  | member found below ih => cases same
  | item isItem below ih => cases same
  | again below ih => exact ih same

theorem of_array {items : List Value} (meets : MeetsScalar path keys (.array items)) :
    ∃ item ∈ items, MeetsScalar path keys item := by
  generalize same : Value.array items = v at meets
  induction meets with
  | here key rest scalar => exact absurd scalar (same ▸ id)
  | member found below ih => cases same
  | item isItem below ih =>
    obtain rfl := Value.array.inj same
    exact ⟨_, isItem, below⟩
  | again below ih =>
    obtain ⟨item, isItem, below⟩ := ih same
    exact ⟨item, isItem, .again below⟩

end MeetsScalar

/-! ## Keys that spread over arrays -/

theorem fieldItems_cases (key : String) (items : List Value) :
    (∃ item ∈ items, ∃ e, item.field key = .error e ∧ fieldItems key items = .error e) ∨
      ∃ parts, List.Forall₂ (fun item part => item.field key = .ok part) items parts ∧ fieldItems key items = .ok parts := by
  induction items with
  | nil => exact .inr ⟨[], .nil, rfl⟩
  | cons item items ih =>
    cases first : item.field key with
    | error e =>
      refine .inl ⟨item, List.mem_cons_self, e, first, ?_⟩
      rw [fieldItems, first]
      rfl
    | ok part =>
      rcases ih with ⟨other, isOther, e, failed, later⟩ | ⟨parts, each, later⟩
      · refine .inl ⟨other, List.mem_cons_of_mem _ isOther, e, failed, ?_⟩
        rw [fieldItems, first, later]
        rfl
      · refine .inr ⟨part :: parts, .cons first each, ?_⟩
        rw [fieldItems, first, later]
        rfl

/-- Under a key that is no index an array has what its items have under it, unless one of them has nothing there. -/
theorem field_array_cases {key : String} (spreads : Numeral.int64? key = none) (items : List Value) :
    (∃ item ∈ items, ∃ e, item.field key = .error e ∧ (Value.array items).field key = .error e) ∨
      ∃ parts, List.Forall₂ (fun item part => item.field key = .ok part) items parts ∧
        (Value.array items).field key = .ok (.array parts) := by
  have ofItems : (Value.array items).field key = (fieldItems key items).map .array := by rw [field, spreads]
  rw [ofItems]
  rcases fieldItems_cases key items with ⟨item, isItem, e, failed, same⟩ | ⟨parts, each, same⟩
  · refine .inl ⟨item, isItem, e, failed, ?_⟩
    rw [same]
    rfl
  · refine .inr ⟨parts, each, ?_⟩
    rw [same]
    rfl

section

variable {path rest : List String} {key : String} (spreads : Numeral.int64? key = none)
include spreads

/-- A value that has nothing under a key holds scalars from which the key leads no further. -/
theorem meetsScalar_of_field_error {v : Value} {e : Error} (failed : v.field key = .error e) :
    MeetsScalar path (key :: rest) v := by
  match v with
  | .null | .object _ => cases failed
  | .bool _ | .int _ | .float _ | .string _ => exact .here key rest trivial
  | .array items =>
    rcases field_array_cases spreads items with ⟨item, isItem, e, ofItem, -⟩ | ⟨parts, -, same⟩
    · exact .item isItem (meetsScalar_of_field_error ofItem)
    · rw [same] at failed
      cases failed
termination_by sizeOf v

/-- A scalar that is met from under a key is met by way of that key. -/
theorem MeetsScalar.before {v w : Value} (step : v.field key = .ok w) (meets : MeetsScalar path rest w) :
    MeetsScalar path (key :: rest) v := by
  match v with
  | .bool _ | .int _ | .float _ | .string _ => cases step
  | .null =>
    cases step
    exact absurd meets not_null
  | .object members =>
    obtain rfl := Except.ok.inj step
    cases found : members.lookup key with
    | none =>
      rw [found] at meets
      exact absurd meets not_null
    | some member =>
      rw [found] at meets
      exact .member found meets
  | .array items =>
    rcases field_array_cases spreads items with ⟨item, -, e, -, same⟩ | ⟨parts, each, same⟩
    · rw [same] at step
      cases step
    · rw [same] at step
      obtain rfl := Except.ok.inj step
      obtain ⟨part, isPart, meets⟩ := meets.of_array
      obtain ⟨item, isItem, ofItem⟩ := exists_mem_of_forall₂ each.flip isPart
      exact .item isItem (before ofItem meets)
termination_by sizeOf v

end

/-! ## Following a path over and over -/

/-- The keys of a path, some times over. -/
def laps (path : List String) (n : Nat) : List String := (List.replicate n path).flatten

theorem laps_succ (path : List String) (n : Nat) : laps path (n + 1) = path ++ laps path n := by
  rw [laps, List.replicate_succ, List.flatten_cons]
  rfl

section

variable {path keys rest : List String} (spread : ∀ key ∈ keys, Numeral.int64? key = none)
include spread

theorem meetsScalar_of_fieldPath {v : Value}
    (onward : ∀ w, v.fieldPath keys = .ok w → MeetsScalar path rest w) : MeetsScalar path (keys ++ rest) v := by
  induction keys generalizing v with
  | nil => exact onward v rfl
  | cons key keys ih =>
    obtain ⟨spreads, spread⟩ := List.forall_mem_cons.mp spread
    cases step : v.field key with
    | error e => exact meetsScalar_of_field_error spreads step
    | ok w =>
      refine .before spreads step (ih spread fun found followed => onward found ?_)
      exact (fieldPath_cons step).trans followed

/-- An array does not follow keys that one of its items fails to follow. -/
theorem fieldPath_array_error {items : List Value} {item : Value} (isItem : item ∈ items) {e : Error}
    (failed : item.fieldPath keys = .error e) : ∃ e, (Value.array items).fieldPath keys = .error e := by
  induction keys generalizing items item with
  | nil => cases failed
  | cons key keys ih =>
    obtain ⟨spreads, spread⟩ := List.forall_mem_cons.mp spread
    rcases field_array_cases spreads items with ⟨-, -, e, -, same⟩ | ⟨parts, each, same⟩
    · exact ⟨e, fieldPath_cons_error same⟩
    · obtain ⟨part, isPart, step⟩ := exists_mem_of_forall₂ each isItem
      rw [fieldPath_cons step] at failed
      rw [fieldPath_cons same]
      exact ih spread isPart failed

end

section

variable {path : List String} (spread : ∀ key ∈ path, Numeral.int64? key = none)
include spread

theorem meetsScalar_of_laps {n : Nat} {v : Value} {e : Error} (failed : v.fieldPath (laps path n) = .error e) :
    MeetsScalar path path v := by
  induction n generalizing v with
  | zero => cases failed
  | succ n ih =>
    have meets : MeetsScalar path (path ++ []) v := meetsScalar_of_fieldPath spread fun w followed => by
      rw [laps_succ, fieldPath_append, followed] at failed
      exact .again (ih failed)
    rwa [List.append_nil] at meets

theorem forall_mem_laps (n : Nat) : ∀ key ∈ laps path n, Numeral.int64? key = none := by
  intro key isKey
  obtain ⟨lap, isLap, inLap⟩ := List.mem_flatten.mp isKey
  rw [List.eq_of_mem_replicate isLap] at inLap
  exact spread key inLap

/-- Every lap goes to where values are less deep, so there are not many to go before the scalar. -/
theorem MeetsScalar.fieldPath_error {keys : List String} {v : Value} (meets : MeetsScalar path keys v)
    (spread' : ∀ key ∈ keys, Numeral.int64? key = none) (present : path ≠ []) {n : Nat}
    (enough : v.depth < n + min 1 keys.length) : ∃ e, v.fieldPath (keys ++ laps path n) = .error e := by
  induction meets generalizing n with
  | here key rest scalar =>
    obtain ⟨e, failed⟩ := scalar.field_error key
    exact ⟨e, fieldPath_cons_error failed⟩
  | @member key rest members member found below ih =>
    have deeper : member.depth < depth (.object members) := depth_member (mem_of_lookup found)
    obtain ⟨-, spread'⟩ := List.forall_mem_cons.mp spread'
    simp only [List.length_cons] at enough
    obtain ⟨e, failed⟩ := ih spread' (n := n) (by omega)
    exact ⟨e, (fieldPath_cons (field_of_lookup found)).trans failed⟩
  | @item keys items item isItem below ih =>
    have deeper : item.depth < depth (.array items) := depth_item isItem
    obtain ⟨e, failed⟩ := ih spread' (n := n) (by omega)
    exact fieldPath_array_error (List.forall_mem_append.mpr ⟨spread', forall_mem_laps spread n⟩) isItem failed
  | again below ih =>
    -- The keys have come to their end, so that one of the laps is left to go on with.
    obtain ⟨n, rfl⟩ : ∃ m, n = m + 1 := Nat.exists_eq_succ_of_ne_zero (Nat.ne_zero_of_lt enough)
    have keysInLap : 0 < path.length := List.length_pos_iff.mpr present
    rw [List.nil_append, laps_succ]
    exact ih spread (by simp only [List.length_nil] at enough; omega)

end

end Value

namespace Query

/-! ## The descent -/

/-- The body of a map that goes on under a path by applying a map, and falls back on a value where that fails. -/
def descent (map p : String) (c : Value) : Query := .catching (.apply (.ofField p) map) (.value c)

/-- What the descent from a store ends in, if it does, where to follow the path over and over has an outcome. -/
def descended (c : Value) (s : Store) : Except Error Value → Option (Except Error Value × Store)
  | .error e => some (.ok c, Recovery.catching.leave (.error e) s)
  | .ok _ => none

section

variable {world : World} {ctx : Context} {map p : String} {c : Value}

/-- A map of which it is the body is applied to the part under the path. -/
theorem eval_apply_part (found : ctx.maps.find? map = some (descent map p c)) (bound : Nat) (v : Value) :
    (Query.apply (.ofField p) map).eval world bound (ctx.bind v) =
      liftExcept (v.fieldPath (splitPath p)) >>= fun part => entering world bound (descent map p c) (ctx.bind part) := by
  rw [eval_eq_evalWith, evalWith_apply, ofField, evalWith_field]
  refine bind_congr fun part => ?_
  have foundThere : (ctx.bind v).maps.find? map = some (descent map p c) := found
  rw [Context.applyMap, foundThere]
  rfl

theorem run_descent (found : ctx.maps.find? map = some (descent map p c)) (bound : Nat) (v : Value) (s : Store) :
    ((descent map p c).eval world bound (ctx.bind v)).run.run s =
      ((liftExcept (v.fieldPath (splitPath p)) >>= fun part =>
        entering world bound (descent map p c) (ctx.bind part)).run.run s).bind fun (outcome, t) =>
          if Recovery.catching.takes outcome then some (outcome, t) else some (.ok c, Recovery.catching.leave outcome t) := by
  have recovers : ((descent map p c).eval world bound (ctx.bind v)).run.run s =
      Recovery.pick world bound (ctx.bind v) .catching (.query (.apply (.ofField p) map)) [.value c] s :=
    Recovery.attempt_on .catching _ _ s
  rw [recovers, Recovery.pick, Recovery.attempt, Arg.resolve, eval_apply_part found]
  rfl

/-- The descent ends within a bound if the path cannot be followed once more than that over and over. -/
theorem eval_descent (found : ctx.maps.find? map = some (descent map p c)) (bound : Nat) (v : Value) (s : Store) :
    ((descent map p c).eval world bound (ctx.bind v)).run.run s =
      descended c s (v.fieldPath (Value.laps (splitPath p) (bound + 1))) := by
  induction bound generalizing v with
  | zero =>
    rw [run_descent found, Value.laps_succ, Value.fieldPath_append]
    cases v.fieldPath (splitPath p) <;> rfl
  | succ bound ih =>
    rw [run_descent found, Value.laps_succ, Value.fieldPath_append]
    cases v.fieldPath (splitPath p) with
    | error e => rfl
    | ok part =>
      show (((descent map p c).eval world bound (ctx.bind part)).run.run s).bind _ =
        descended c s (part.fieldPath (Value.laps (splitPath p) (bound + 1)))
      -- The step after this one has recovered where it ended, and that passes.
      rw [ih part]
      cases part.fieldPath (Value.laps (splitPath p) (bound + 1)) <;> rfl

/-- What an application to the body of a record, where no value is bound, comes to within a bound. -/
theorem eval_apply_descent (found : ctx.maps.find? map = some (descent map p c)) (unbound : ctx.bound = none) {v : Value}
    (read : ctx.body = .ok v) (bound : Nat) (s : Store) :
    ((Query.apply (.ofField "") map).eval world bound ctx).run.run s =
      descended c s (v.fieldPath (Value.laps (splitPath p) bound)) := by
  have whole : (Query.ofField "").evalWith world (entering world bound) ctx = pure v := by
    rw [ofField, evalWith_field, Context.field, unbound, read]
    rfl
  have entered : ctx.applyMap (entering world bound) map v = entering world bound (descent map p c) (ctx.bind v) := by
    rw [Context.applyMap, found]
  rw [eval_eq_evalWith, evalWith_apply, whole, pure_bind, entered]
  cases bound with
  | zero => rfl
  | succ bound => exact eval_descent found bound v s

theorem eval_apply_unread (unbound : ctx.bound = none) {e : Error} (unread : ctx.body = .error e) (bound : Nat) (s : Store) :
    ((Query.apply (.ofField "") map).eval world bound ctx).run.run s = some (.error e, s) := by
  have fails : (Query.ofField "").evalWith world (entering world bound) ctx = throw e := by
    rw [ofField, evalWith_field, Context.field, unbound, unread]
    rfl
  rw [eval_eq_evalWith, evalWith_apply, fails]
  rfl

section

variable (present : p ≠ "") (spread : ∀ key ∈ splitPath p, Numeral.int64? key = none)
  (found : ctx.maps.find? map = some (descent map p c)) (unbound : ctx.bound = none) {v : Value} (read : ctx.body = .ok v)
include spread found unbound read

include present in
theorem run_of_meetsScalar (meets : Value.MeetsScalar (splitPath p) (splitPath p) v) (s : Store) :
    ∃ e, ∀ bound, v.depth < bound → ((Query.apply (.ofField "") map).eval world bound ctx).run.run s =
      some (.ok c, Recovery.catching.leave (.error e) s) := by
  have keysThere : splitPath p ≠ [] := by
    rw [splitPath, if_neg present]
    simpa using splitDots_ne_nil p.toList
  have enough : v.depth < v.depth + min 1 (splitPath p).length := by
    have := List.length_pos_iff.mpr keysThere
    omega
  obtain ⟨e, failed⟩ := meets.fieldPath_error spread spread keysThere enough
  rw [← Value.laps_succ] at failed
  refine ⟨e, fun bound deep => ?_⟩
  apply Query.eval_extends world (Nat.succ_le_of_lt deep)
  rw [eval_apply_descent found unbound read, failed]
  rfl

theorem not_ends_of_not_meetsScalar (hollow : ¬ Value.MeetsScalar (splitPath p) (splitPath p) v) (s : Store)
    (ended : Except Error Value × Store) : ¬ (Query.apply (.ofField "") map).Ends world ctx s ended := by
  rintro ⟨bound, ran⟩
  rw [eval_apply_descent found unbound read] at ran
  cases followed : v.fieldPath (Value.laps (splitPath p) bound) with
  | error e => exact hollow (Value.meetsScalar_of_laps spread followed)
  | ok part =>
    rw [followed] at ran
    cases ran

end

end

end Query

/-- A map that goes down a path by itself, with a fallback, is applied to the body of a record. If the body cannot be
read, that is the error. If to follow the path over and over meets a scalar, the result is the fallback, as soon as one
more application may nest than the body has levels. If there is no scalar on the way, the descent does not end. -/
theorem descent_ends_at_scalars (world : World) (ctx : Context) (map p : String) (c : Value) (present : p ≠ "")
    (spread : ∀ key ∈ splitPath p, Numeral.int64? key = none)
    (found : ctx.maps.find? map = some (Query.descent map p c)) (unbound : ctx.bound = none) (s : Store) :
    (∀ e, ctx.body = .error e → ∀ bound,
      ((Query.apply (.ofField "") map).eval world bound ctx).run.run s = some (.error e, s)) ∧
    ∀ d, ctx.body = .ok d →
      (Value.MeetsScalar (splitPath p) (splitPath p) d → ∃ e, ∀ bound, d.depth < bound →
        ((Query.apply (.ofField "") map).eval world bound ctx).run.run s =
          some (.ok c, Recovery.catching.leave (.error e) s)) ∧
      (¬ Value.MeetsScalar (splitPath p) (splitPath p) d → ∀ ended,
        ¬ (Query.apply (.ofField "") map).Ends world ctx s ended) := by
  refine ⟨fun e unread bound => Query.eval_apply_unread unbound unread bound s, fun d read => ⟨fun meets => ?_, ?_⟩⟩
  · exact Query.run_of_meetsScalar present spread found unbound read meets s
  · exact fun hollow ended => Query.not_ends_of_not_meetsScalar spread found unbound read hollow s ended

/-- A record of some bytes, with a map that goes down the children in it. -/
def walking (body : Bytes) : Context where
  batch := #[{ body }]
  maps := Table.empty.put "walk" (Query.descent "walk" "child" (.int 0))

theorem walking_body (body : Bytes) : (walking body).body = Value.parse body := rfl

theorem walking_body_write {v : Value} (shallow : v.Shallow JsonText.nestingLimit) :
    (walking (Utf8.encode v.write)).body = .ok v := by
  rw [walking_body]
  exact (shallow.canonical.written v).parse shallow

theorem splitPath_child : splitPath "child" = ["child"] := by decide +kernel

theorem spread_child : ∀ key ∈ splitPath "child", Numeral.int64? key = none := by decide +kernel

/-- Children of which one is null and the other has a child that is a scalar. -/
def family : Value := .object [("child", .array [.null, .object [("child", .bool true)]])]

theorem family_shallow : family.Shallow JsonText.nestingLimit where
  canonical := ⟨List.pairwise_singleton _ _, ⟨trivial, ⟨List.pairwise_singleton _ _, trivial, trivial⟩, trivial⟩, trivial⟩
  floatFree := by simp [family, Value.FloatFree, Value.FloatFreeItems, Value.FloatFreeMembers]
  depth_le := by decide

theorem family_meetsScalar : Value.MeetsScalar ["child"] ["child"] family := by
  have lastChild : Value.MeetsScalar ["child"] [] (.object [("child", .bool true)]) :=
    .again (.member rfl (.again (.here "child" [] trivial)))
  exact .member rfl (.item (List.mem_cons_of_mem _ List.mem_cons_self) lastChild)

/-- No children. -/
def childless : Value := .object []

theorem childless_shallow : childless.Shallow JsonText.nestingLimit where
  canonical := ⟨List.Pairwise.nil, trivial⟩
  floatFree := by simp [childless, Value.FloatFree, Value.FloatFreeMembers]
  depth_le := by decide

theorem childless_hollow : ¬ Value.MeetsScalar ["child"] ["child"] childless := by
  intro meets
  cases meets with
  | here _ _ scalar => exact scalar
  | member found below => cases found

theorem descent_ends_at_scalars_family :
    (∃ t, (Query.apply (.ofField "") "walk").Ends .blank (walking (Utf8.encode family.write)) {} (.ok (.int 0), t)) ∧
      ∀ ended, ¬ (Query.apply (.ofField "") "walk").Ends .blank (walking (Utf8.encode childless.write)) {} ended := by
  have descent (body : Bytes) :=
    descent_ends_at_scalars .blank (walking body) "walk" "child" (.int 0) (by decide) spread_child rfl rfl {}
  rw [splitPath_child] at descent
  constructor
  · obtain ⟨-, read⟩ := descent (Utf8.encode family.write)
    obtain ⟨meets, -⟩ := read family (walking_body_write family_shallow)
    obtain ⟨e, ran⟩ := meets family_meetsScalar
    exact ⟨_, _, ran _ (Nat.lt_succ_self _)⟩
  · obtain ⟨-, read⟩ := descent (Utf8.encode childless.write)
    obtain ⟨-, hollow⟩ := read childless (walking_body_write childless_shallow)
    exact hollow childless_hollow

/-- A number in more arrays than are read. -/
def buried : Bytes := List.replicate 128 '['.toUInt8 ++ '1'.toUInt8 :: List.replicate 128 ']'.toUInt8

theorem parse_buried : Value.parse buried = .error (.json "recursion limit exceeded at line 1 column 128") := by
  have refused : JsonText.parse buried = JsonText.fail .tooDeep 129 := JsonText.parse_tooDeep _
  have told : (JsonText.Failure.mk .tooDeep 129).message buried = "recursion limit exceeded at line 1 column 128" := by
    decide +kernel
  rw [Value.parse, refused]
  exact congrArg (fun message => Except.error (Error.json message)) told

/-- A descent does not end in its fallback wherever it starts: without a child it goes on for ever, and a body that is
nested too deep is not read. -/
theorem descent_without_fallback :
    (∀ ended, ¬ (Query.apply (.ofField "") "walk").Ends .blank (walking (Utf8.encode childless.write)) {} ended) ∧
      (Query.apply (.ofField "") "walk").Ends .blank (walking buried) {}
        (.error (.json "recursion limit exceeded at line 1 column 128"), {}) := by
  constructor
  · have hollow : ¬ Value.MeetsScalar (splitPath "child") (splitPath "child") childless := by
      rw [splitPath_child]
      exact childless_hollow
    have read := walking_body_write childless_shallow
    exact fun ended => Query.not_ends_of_not_meetsScalar spread_child rfl rfl read hollow {} ended
  · have unread := (walking_body buried).trans parse_buried
    exact ⟨0, Query.eval_apply_unread rfl unread 0 {}⟩

end RecordQuery
