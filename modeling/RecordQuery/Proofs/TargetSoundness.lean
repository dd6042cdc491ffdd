import RecordQuery.Proofs.InStep
import RecordQuery.Proofs.Targets

/-!
# The targets of a query are all that it depends on

Two contexts that agree on the targets of a query (`Context.AgreeOn`) cannot be told apart by it, if no
name of a variable or of metadata in it is computed (`Query.eval_eq_of_agreeOn_targets`). This holds
for maps that apply themselves as well, since what their bodies read is among the targets wherever the
analysis cuts off.
-/

namespace RecordQuery

/-! ## Agreement -/

namespace Record

/-- What a strict path finds in the body. -/
def lookup (r : Record) (path : List String) : Except Error Value := do (← r.json).lookupPath path

/-- What a lenient path finds in the body. -/
def field (r : Record) (path : List String) : Except Error Value := do (← r.json).fieldPath path

end Record

/-- Two contexts have equally many records, point at the same position, either both have a bound value
or neither has, and they are the same in all places that the targets name. -/
structure Context.AgreeOn (targets : List Target) (left right : Context) : Prop where
  index : left.index = right.index
  size : left.batch.size = right.batch.size
  boundness : left.bound.isSome = right.bound.isSome
  vars (name : String) (listed : ⟨.variable, [name]⟩ ∈ targets) :
    left.vars.find? name = right.vars.find? name
  metadataAt (key : String) (listed : ⟨.metadata, [key]⟩ ∈ targets) (i : Nat) :
    left.batch[i]?.bind (·.metadata.find? key) = right.batch[i]?.bind (·.metadata.find? key)
  metadata (listed : ⟨.metadata, []⟩ ∈ targets) (i : Nat) :
    left.batch[i]?.map Record.metadata = right.batch[i]?.map Record.metadata
  lookup (path : List String) (listed : ⟨.value, path⟩ ∈ targets) (i : Nat) :
    left.batch[i]?.map (·.lookup path) = right.batch[i]?.map (·.lookup path)
  field (path : List String) (listed : ⟨.value, path⟩ ∈ targets) (i : Nat) :
    left.batch[i]?.map (·.field path) = right.batch[i]?.map (·.field path)
  body (listed : ⟨.value, []⟩ ∈ targets) (i : Nat) :
    left.batch[i]?.map Record.body = right.batch[i]?.map Record.body
  bound (path : List String) (listed : ⟨.value, path⟩ ∈ targets) :
    left.bound.map (·.fieldPath path) = right.bound.map (·.fieldPath path)

/-- The name of a variable or of metadata is a literal. -/
def Query.NamesFixed : Query → Prop
  | .var name => name.isDynamic = false
  | .metadataAt key => key.isDynamic = false
  | _ => True

/-! ## Reading in contexts that agree -/

namespace Context

variable {left right : Context}

/-- What is read off the current record is the same if it is the same of the records, and the errors are
the same that there is none. -/
theorem record_map_congr {α : Type} {f : Record → α} (index : left.index = right.index)
    (size : left.batch.size = right.batch.size) (same : left.record?.map f = right.record?.map f) :
    left.record.map f = right.record.map f := by
  rw [record, record]
  cases ofLeft : left.record? with
  | none =>
    have ofRight : right.record? = none := by simpa [ofLeft] using same.symm
    simp [ofRight, index, size]
  | some r =>
    obtain ⟨other, ofRight, equal⟩ : ∃ other, right.record? = some other ∧ f other = f r := by
      simpa [ofLeft] using same.symm
    simp [ofRight, Except.map, equal]

theorem record_bind_congr {α : Type} {f : Record → Except Error α} (index : left.index = right.index)
    (size : left.batch.size = right.batch.size) (same : left.record?.map f = right.record?.map f) :
    left.record >>= f = right.record >>= f := by
  have ofMap (ctx : Context) : ctx.record >>= f = ctx.record.map f >>= id := by cases ctx.record <;> rfl
  rw [ofMap, ofMap, record_map_congr index size same]

theorem lookup_eq_record_bind (ctx : Context) (path : List String) :
    ctx.lookup path = ctx.record >>= (·.lookup path) := by
  rw [lookup, body]
  cases ctx.record <;> rfl

theorem field_of_bound {ctx : Context} {value : Value} (isBound : ctx.bound = some value) (path : List String) :
    ctx.field path = value.fieldPath path := by
  rw [field, isBound]

theorem field_of_unbound {ctx : Context} (unbound : ctx.bound = none) (path : List String) :
    ctx.field path = ctx.record >>= (·.field path) := by
  rw [field, unbound, body]
  cases ctx.record <;> rfl

namespace AgreeOn

variable {targets : List Target}

theorem bind (agree : AgreeOn targets left right) (value : Value) :
    AgreeOn targets (left.bind value) (right.bind value) where
  index := agree.index
  size := agree.size
  boundness := rfl
  vars := agree.vars
  metadataAt := agree.metadataAt
  metadata := agree.metadata
  lookup := agree.lookup
  field := agree.field
  body := agree.body
  bound _ _ := rfl

theorem atIndex (agree : AgreeOn targets left right) (place : Nat) :
    AgreeOn targets (left.atIndex place) (right.atIndex place) where
  index := rfl
  size := agree.size
  boundness := agree.boundness
  vars := agree.vars
  metadataAt := agree.metadataAt
  metadata := agree.metadata
  lookup := agree.lookup
  field := agree.field
  body := agree.body
  bound := agree.bound

theorem record? {α : Type} {f : Record → α} (agree : AgreeOn targets left right)
    (same : ∀ i : Nat, left.batch[i]?.map f = right.batch[i]?.map f) : left.record?.map f = right.record?.map f := by
  rw [Context.record?, Context.record?, agree.index]
  exact same right.index

theorem field_eq (agree : AgreeOn targets left right) {path : List String} (listed : ⟨.value, path⟩ ∈ targets) :
    left.field path = right.field path := by
  cases ofLeft : left.bound with
  | none =>
    have ofRight : right.bound = none := by simpa [ofLeft] using agree.boundness.symm
    rw [field_of_unbound ofLeft, field_of_unbound ofRight]
    exact record_bind_congr agree.index agree.size (agree.record? (agree.field path listed))
  | some value =>
    obtain ⟨other, ofRight, equal⟩ : ∃ other, right.bound = some other ∧ other.fieldPath path = value.fieldPath path := by
      simpa [ofLeft] using (agree.bound path listed).symm
    rw [field_of_bound ofLeft, field_of_bound ofRight, equal]

theorem lookup_eq (agree : AgreeOn targets left right) {path : List String} (listed : ⟨.value, path⟩ ∈ targets) :
    left.lookup path = right.lookup path := by
  rw [lookup_eq_record_bind, lookup_eq_record_bind]
  exact record_bind_congr agree.index agree.size (agree.record? (agree.lookup path listed))

theorem content_eq (agree : AgreeOn targets left right) (listed : ⟨.value, []⟩ ∈ targets) :
    left.record.map Record.content = right.record.map Record.content := by
  have bodies : left.record?.map Record.body = right.record?.map Record.body := agree.record? (agree.body listed)
  have contents : left.record?.map Record.content = right.record?.map Record.content := by
    have decoded := congrArg (Option.map Utf8.decodeLossy) bodies
    rwa [Option.map_map, Option.map_map] at decoded
  exact record_map_congr agree.index agree.size contents

/-- A node reads the same in contexts that agree on what it reports for itself. -/
theorem readsAlike {world : World} {node : Query} (agree : AgreeOn targets left right)
    (sameMaps : left.maps = right.maps) (named : node.NamesFixed)
    (own : ∀ target ∈ node.ownTargets, target ∈ targets) : node.ReadsAlike world world left right := by
  cases node with
  | field path => exact agree.field_eq (own _ (by simp [Query.ownTargets]))
  | json path => exact agree.lookup_eq (own _ (by simp [Query.ownTargets]))
  | content => exact agree.content_eq (own _ (by simp [Query.ownTargets]))
  | batchIndex => exact agree.index
  | batchSize | atRecord receiver index => exact agree.size
  | env name => exact fun _ _ => rfl
  | metadata => exact agree.record? (agree.metadata (own _ (by simp [Query.ownTargets])))
  | metadataAt key =>
    intro text canName
    cases key with
    | value v =>
      obtain rfl : v = .string text := canName
      have listed : ⟨.metadata, [text]⟩ ∈ targets := own _ (by simp [Query.ownTargets])
      rw [metadataAt?, metadataAt?, Context.record?, Context.record?, agree.index]
      exact agree.metadataAt text listed right.index
    | query q => simp [Query.NamesFixed, Arg.isDynamic] at named
  | randomInt cell => rfl
  | var name =>
    intro text canName
    cases name with
    | value v =>
      obtain rfl : v = .string text := canName
      exact agree.vars text (own _ (by simp [Query.ownTargets]))
    | query q => simp [Query.NamesFixed, Arg.isDynamic] at named
  | apply receiver map => exact congrArg (·.find? map) sameMaps
  | _ => trivial

end AgreeOn

end Context

/-! ## Evaluation -/

/-- Equality of computations, under which evaluations in step are the same. -/
theorem Eval.congruence_eq : Eval.Congruence fun _ x y => x = y where
  pure _ := rfl
  throw _ := rfl
  note _ _ _ := rfl
  bind first next := by
    rw [first]
    exact bind_congr next
  attempt related := by rw [related]

namespace Query

/-- In contexts that agree on its targets a query ends in the same value or error, with the same effects, or
in neither. -/
theorem eval_eq_of_agreeOn_targets (world : World) (q : Query) (maps : Table Query)
    (named : q.Throughout maps NamesFixed) {left right : Context}
    (agree : Context.AgreeOn (q.targets { maps }).2 left right) (ofLeft : left.maps = maps)
    (ofRight : right.maps = maps) (bound : Nat) (store : Store) :
    (q.eval world bound left).run.run store = (q.eval world bound right).run.run store := by
  let R (left right : Context) : Prop :=
    Context.AgreeOn (q.targets { maps }).2 left right ∧ left.maps = maps ∧ right.maps = maps
  have inStep : q.InStep world world maps R := by
    refine ⟨fun related => related.2.1, ?_, ?_, ?_⟩
    · rintro left right ⟨agree, sameMaps⟩ value
      exact ⟨agree.bind value, sameMaps⟩
    · rintro receiver index - left right ⟨agree, sameMaps⟩ place
      exact ⟨agree.atIndex place, sameMaps⟩
    · rintro node walk left right ⟨agree, ofLeft, ofRight⟩
      refine agree.readsAlike (ofLeft.trans ofRight.symm) (named node walk) ?_
      exact fun target own => mem_targets.mpr ⟨node, walk, own⟩
  have draws : q.Throughout maps (DrawsAlike (fun _ x y => x = y) world world) :=
    fun node _ => node.drawsAlike_refl (fun _ _ => rfl) world
  have same : q.eval world bound left = q.eval world bound right :=
    eval_related Eval.congruence_eq rfl inStep draws bound ⟨agree, ofLeft, ofRight⟩
  rw [same]

/-- A map that applies itself to a member of the bound value, as long as there is one. -/
def walk : Query := .catching (.apply (.field ["next"]) "walk") (.value .null)

/-- The named map under its name. -/
def walkMaps : Table Query := Table.empty.put "walk" walk

/-- A walk from a variable does not depend on metadata and on other variables. -/
theorem eval_eq_of_agreeOn_targets_walk :
    let q : Query := .apply (.var (.value (.string "start"))) "walk"
    let left : Context := { maps := walkMaps, batch := #[⟨[49], .empty⟩], vars := Table.empty.put "start" (.int 1) }
    let right : Context :=
      { maps := walkMaps, batch := #[⟨[49], Table.empty.put "k" "v"⟩]
        vars := (Table.empty.put "start" (.int 1)).put "x" .null }
    (q.eval .blank 3 left).run.run {} = (q.eval .blank 3 right).run.run {} := by
  intro q left right
  have found : (q.targets { maps := walkMaps }).2 = [⟨.variable, ["start"]⟩, ⟨.value, ["next"]⟩] := by decide
  have named : q.Throughout walkMaps NamesFixed := by
    refine throughout_of_closed [q, .var (.value (.string "start")), walk, .apply (.field ["next"]) "walk", .field ["next"]]
      ?_ ?_ ?_ ?_
    · simp
    · simp [walkMaps, Table.put, Table.empty, putEntry]
    · simp [q, walk, parts]
    · simp [q, walk, NamesFixed, Arg.isDynamic]
  have agree : Context.AgreeOn (q.targets { maps := walkMaps }).2 left right := by
    rw [found]
    refine ⟨rfl, rfl, rfl, ?_, by simp, by simp, ?_, ?_, by simp, fun _ _ => rfl⟩
    · intro name listed
      obtain rfl : name = "start" := by simpa using listed
      rfl
    · intro path _ i
      cases i <;> rfl
    · intro path _ i
      cases i <;> rfl
  exact eval_eq_of_agreeOn_targets .blank q walkMaps named agree rfl rfl 3 {}

end Query

end RecordQuery
