import RecordQuery.Proofs.Canonical
import RecordQuery.Proofs.Construction
import RecordQuery.Proofs.Output
import RecordQuery.Proofs.WholeNumbers

/-!
# Finite results

No NaN and no infinity comes out of an evaluation unless it was put in: a number of a JSON text is finite, so is the
float nearest to an integer that 64 bits with sign do not hold, and all else is handed on. So every result can be
converted to JSON, and in the output of a run null never stands for a float (`finite_everywhere`).
-/

namespace RecordQuery

/-! ## Finite values -/

namespace Value

/-- No float in a value is a NaN or an infinity. -/
def Finite (v : Value) : Prop := ∀ x ∈ v.floats, x.isFinite = true

instance (v : Value) : Decidable v.Finite := inferInstanceAs (Decidable (∀ x ∈ v.floats, x.isFinite = true))

theorem inherited_finite : Inherited Finite := inherited_floats _

theorem finite_array {items : List Value} : (Value.array items).Finite ↔ ∀ item ∈ items, item.Finite :=
  inherited_finite.array items

theorem finite_object {members : List (String × Value)} :
    (Value.object members).Finite ↔ ∀ member ∈ members, member.2.Finite := by
  rw [Finite, floats]
  exact forall_floatsMembers

theorem finite_ofJsonNumber (n : JsonNumber) : (ofJsonNumber n).Finite := by
  intro x isFloat
  cases n with
  | natural n =>
    rw [ofJsonNumber] at isFloat
    split at isFloat
    next => simp [floats] at isFloat
    next =>
      obtain rfl : x = _ := by simpa [floats] using isFloat
      exact Binary64.isFinite_ofInt n.toNat_lt
  | negative i below => simp [ofJsonNumber, floats] at isFloat
  | float y finite =>
    obtain rfl : x = y := by simpa [ofJsonNumber, floats] using isFloat
    exact finite

mutual

theorem finite_ofJson : (json : Json) → (ofJson json).Finite
  | .number n => by
    rw [ofJson]
    exact finite_ofJsonNumber n
  | .array items => by
    rw [ofJson, finite_array]
    exact finite_ofJsonItems items
  | .object members => by
    rw [ofJson, finite_object]
    exact finite_ofJsonMembers members
  | .null | .bool _ | .string _ => by simp [Finite, ofJson, floats]

theorem finite_ofJsonItems : (items : List Json) → ∀ item ∈ ofJsonItems items, item.Finite
  | [] => List.forall_mem_nil _
  | json :: items => List.forall_mem_cons.mpr ⟨finite_ofJson json, finite_ofJsonItems items⟩

theorem finite_ofJsonMembers : (members : List (String × Json)) → ∀ member ∈ ofJsonMembers members, member.2.Finite
  | [] => List.forall_mem_nil _
  | (_, json) :: members => List.forall_mem_cons.mpr ⟨finite_ofJson json, finite_ofJsonMembers members⟩

end

/-- Finite values are kept by all that evaluation does. -/
theorem closed_finite : Value.Closed Finite where
  int _ := List.forall_mem_nil _
  string _ := List.forall_mem_nil _
  metadata texts := by
    refine finite_object.mpr fun member isMember => ?_
    obtain ⟨entry, -, rfl⟩ := List.mem_map.mp isMember
    exact List.forall_mem_nil _
  parse text v same := by
    unfold Value.parse at same
    split at same
    next data _ =>
      cases same
      exact finite_ofJson data.toJson
    next => cases same
  fieldPath _ _ _ := inherited_finite.fieldPath
  lookupPath _ _ _ := inherited_finite.lookupPath

/-! ## Texts -/

mutual

/-- A finite value is a JSON value. -/
theorem Finite.toJson : (v : Value) → v.Finite → ∃ json, v.toJson = .ok json
  | .float x, finite => by
    have isFinite : x.isFinite = true := finite x (by simp [floats])
    exact ⟨.number (.float x isFinite), by simp [Value.toJson, jsonFloat, JsonNumber.ofFloat?, isFinite, Except.map]⟩
  | .array items, finite => by
    obtain ⟨all, each⟩ := finite_toJsonItems items (finite_array.mp finite)
    exact ⟨.array all, by rw [Value.toJson, each]; rfl⟩
  | .object members, finite => by
    obtain ⟨all, each⟩ := finite_toJsonMembers members (finite_object.mp finite)
    exact ⟨.object all, by rw [Value.toJson, each]; rfl⟩
  | .null, _ => ⟨.null, rfl⟩
  | .bool b, _ => ⟨.bool b, rfl⟩
  | .int i, _ => ⟨.number (jsonInt i), rfl⟩
  | .string s, _ => ⟨.string s, rfl⟩

theorem finite_toJsonItems : (items : List Value) → (∀ item ∈ items, item.Finite) → ∃ all, toJsonItems items = .ok all
  | [], _ => ⟨[], rfl⟩
  | item :: items, finite => by
    obtain ⟨ofFirst, ofOthers⟩ := List.forall_mem_cons.mp finite
    obtain ⟨head, first⟩ := Finite.toJson item ofFirst
    obtain ⟨tail, others⟩ := finite_toJsonItems items ofOthers
    exact ⟨head :: tail, by rw [toJsonItems, first, others]; rfl⟩

theorem finite_toJsonMembers :
    (members : List (String × Value)) → (∀ member ∈ members, member.2.Finite) → ∃ all, toJsonMembers members = .ok all
  | [], _ => ⟨[], rfl⟩
  | (key, member) :: members, finite => by
    obtain ⟨ofFirst, ofOthers⟩ := List.forall_mem_cons.mp finite
    obtain ⟨head, first⟩ := Finite.toJson member ofFirst
    obtain ⟨tail, others⟩ := finite_toJsonMembers members ofOthers
    exact ⟨(key, head) :: tail, by rw [toJsonMembers, first, others]; rfl⟩

end

mutual

/-- The text of a value with a word of one's choice in place of every NaN and infinity. -/
def writeOr (word : String) : Value → String
  | .float x => if x.isFinite then Binary64.jsonLayout.render x else word
  | .array items => Json.writeArray (writeItemsOr word items)
  | .object members => Json.writeObject (ascendingEntries (writeMembersOr word members))
  | scalar => scalar.write

def writeItemsOr (word : String) : List Value → List String
  | [] => []
  | item :: rest => item.writeOr word :: writeItemsOr word rest

def writeMembersOr (word : String) : List (String × Value) → List (String × String)
  | [] => []
  | (key, member) :: rest => (Json.quote key, member.writeOr word) :: writeMembersOr word rest

end

mutual

/-- What is written for a NaN or an infinity does not show where there is none. -/
theorem Finite.writeOr {word : String} : (v : Value) → v.Finite → v.writeOr word = v.write
  | .float x, finite => by
    have isFinite : x.isFinite = true := finite x (by simp [floats])
    rw [Value.writeOr, write, if_pos isFinite, if_pos isFinite]
  | .array items, finite => by rw [Value.writeOr, write, finite_writeItemsOr items (finite_array.mp finite)]
  | .object members, finite => by rw [Value.writeOr, write, finite_writeMembersOr members (finite_object.mp finite)]
  | .null, _ | .bool _, _ | .int _, _ | .string _, _ => by simp [Value.writeOr]

theorem finite_writeItemsOr {word : String} :
    (items : List Value) → (∀ item ∈ items, item.Finite) → writeItemsOr word items = writeItems items
  | [], _ => rfl
  | item :: items, finite => by
    obtain ⟨first, others⟩ := List.forall_mem_cons.mp finite
    rw [writeItemsOr, writeItems, Finite.writeOr item first, finite_writeItemsOr items others]

theorem finite_writeMembersOr {word : String} :
    (members : List (String × Value)) → (∀ member ∈ members, member.2.Finite) → writeMembersOr word members = writeMembers members
  | [], _ => rfl
  | (key, member) :: members, finite => by
    obtain ⟨first, others⟩ := List.forall_mem_cons.mp finite
    rw [writeMembersOr, writeMembers, Finite.writeOr member first, finite_writeMembersOr members others]

end

/-- What is known of texts of finite values holds of those of a list of finite values. -/
theorem forall₂_of_finite {reads : Value → String → Prop} {items : List Value} {texts : List String}
    (each : List.Forall₂ (fun item text => item.Finite → reads item text) items texts) (finite : ∀ item ∈ items, item.Finite) :
    List.Forall₂ reads items texts := by
  induction each with
  | nil => exact .nil
  | cons first _ ih =>
    obtain ⟨ofFirst, ofOthers⟩ := List.forall_mem_cons.mp finite
    exact .cons (first ofFirst) (ih ofOthers)

/-- A text of a finite value is one with any other word for what it does not have. -/
theorem WrittenOr.of_finite {word other : String} {v : Value} {text : String} (written : v.WrittenOr word text)
    (finite : v.Finite) : v.WrittenOr other text := by
  induction written using WrittenOr.induct with
  | null => exact .null
  | bool b => exact .bool b
  | int i => exact .int i
  | float x =>
    have isFinite : x.isFinite = true := finite x (by simp [floats])
    have same : (if x.isFinite then Binary64.jsonLayout.render x else word) =
        if x.isFinite then Binary64.jsonLayout.render x else other := by rw [if_pos isFinite, if_pos isFinite]
    exact same ▸ .float x
  | string s => exact .string s
  | array items texts each ih =>
    exact .array (forall₂_of_finite (ih.imp fun _ _ ⟨_, rewritten⟩ => rewritten) (finite_array.mp finite))
  | object members order texts reordered each ih =>
    refine .object reordered (forall₂_of_finite (ih.imp fun _ _ ⟨_, rewritten⟩ => rewritten) ?_)
    rw [List.forall_mem_map]
    exact fun member isMember => finite_object.mp finite member (reordered.mem_iff.mpr isMember)

end Value

/-! ## Results -/

/-- What can come out of a query itself stands in its arguments. -/
theorem Query.holds_of_args {V : Value → Prop} {q : Query} (literals : ∀ v, .value v ∈ q.args → V v) :
    q.Holds V fun _ => True := by
  cases q with
  | literal v => exact literals v (by simp [args])
  | catching receiver fallback | orElse receiver fallback =>
    cases fallback with
    | value v => exact literals v (by simp [args])
    | query q => trivial
  | utcTime pattern => exact fun _ _ _ => trivial
  | _ => trivial

theorem Query.eval_finite {world : World} {bound : Nat} {maps : Table Query} {q : Query} {ctx : Context}
    (literals : q.Throughout maps fun node => ∀ v, .value v ∈ node.args → v.Finite) (holds : ctx.Holds Value.Finite maps) :
    (q.eval world bound ctx).Ensures Value.Finite fun _ => True := by
  have throughout : q.Throughout maps (Query.Holds Value.Finite fun _ => True) := by
    intro node walk
    exact holds_of_args (literals node walk)
  exact eval_ensures Value.closed_finite (fun _ _ => trivial) throughout bound holds

/-- A document and settings have no NaN and no infinity to begin with. -/
theorem WellBuilt.execute_finite {q : Query} {maps : Table Query} (wellBuilt : WellBuilt (q, maps)) {world : World} {bound : Nat}
    {settings : Settings} {batch : Batch} {s t : Store} {result : ExecutionResult}
    (ended : (execute world bound settings.executorConfig maps q batch).run.run s = some (.ok result, t)) :
    ∀ v ∈ result.values, v.Finite := by
  have literals : q.Throughout maps fun node => ∀ v, .value v ∈ node.args → v.Finite := by
    intro node walk v member
    obtain ⟨json, rfl⟩ := (wellBuilt.1.throughout wellBuilt.2 node walk).values v member
    exact Value.finite_ofJson json
  have vars : ∀ name v, settings.values.find? name = some v → v.Finite := by
    intro name v found
    obtain ⟨entry, -, same⟩ := List.mem_map.mp (Table.mem_of_find? found)
    obtain rfl : Value.ofJson entry.2 = v := congrArg Prod.snd same
    exact Value.finite_ofJson entry.2
  have each (index : Nat) : (q.eval world bound (Context.atIndex { batch, vars := settings.values, maps } index)).Ensures
      Value.Finite fun _ => True := Query.eval_finite literals ⟨rfl, vars, fun _ same => by cases same⟩
  exact ((execute_ensures (List.forall_mem_nil _) each) s _ t ended).2

/-- All values of an execution on lines: no NaN and no infinity is among them, so that it does not matter what is
written for these, in any world that writes texts of values. -/
def Run.FiniteText (world : World) (settings : Settings) (d : Document) (input : FileContent) (text : String) : Prop :=
  ∃ q maps bench batch result store, (d.build .standard).run.run {} = (.ok (q, maps), bench) ∧ readRecords input = .ok batch ∧
    (RecordQuery.execute world nestingBound settings.executorConfig maps q batch).run.run {} = some (.ok result, store) ∧
    (∀ v ∈ result.values, v.Finite ∧ (∃ json, v.toJson = .ok json) ∧ ∀ word, v.writeOr word = v.write) ∧
    text = linesText (world.texts result.values) ∧
    (world.Faithful → (∀ v ∈ result.values, v.Canonical) →
      ∀ word, List.Forall₂ (Value.WrittenOr word) result.values (world.texts result.values))

theorem Run.execute_writesFinite (world : World) (settings : Settings) (d : Document) (input : FileContent) :
    (Run.execute world .standard settings d input).Writes (FiniteText world settings d input) := by
  refine (execute_writes world .standard settings d input).mono ?_
  rintro text ⟨q, maps, bench, batch, result, store, built, read, executed, rfl, lines⟩
  have wellBuilt : WellBuilt (q, maps) := by
    have gives := d.build_gives {}
    rw [Build.outcome, built] at gives
    exact gives.2
  have finite := wellBuilt.execute_finite executed
  refine ⟨q, maps, bench, batch, result, store, built, read, executed, fun v member => ?_, rfl, fun faithful canonical word => ?_⟩
  · exact ⟨finite v member, Value.Finite.toJson v (finite v member), fun word => (finite v member).writeOr⟩
  · have rewritten : List.Forall₂ (fun v text => v.Finite → v.WrittenOr word text) result.values (world.texts result.values) :=
      (lines faithful canonical).imp fun _ _ => Value.WrittenOr.of_finite
    exact Value.forall₂_of_finite rewritten finite

/-- No NaN and no infinity is ever computed: where there is none in the literals of a query and of all maps that it
reaches, nor in the variables and in the bound value, there is none in a result, over any records, and the result can
be converted to JSON. For documents and settings there is none to begin with, so a run never writes null for a
float. -/
theorem finite_everywhere :
    (∀ (world : World) (bound : Nat) (maps : Table Query) (q : Query) (ctx : Context),
      (q.Throughout maps fun node => ∀ v, .value v ∈ node.args → v.Finite) → ctx.Holds Value.Finite maps →
        ∀ s v t, (q.eval world bound ctx).run.run s = some (.ok v, t) → v.Finite ∧ ∃ json, v.toJson = .ok json) ∧
    ∀ world settings d input, (Run.execute world .standard settings d input).Writes (Run.FiniteText world settings d input) := by
  refine ⟨?_, Run.execute_writesFinite⟩
  intro world bound maps q ctx literals holds s v t ended
  have finite : v.Finite := Query.eval_finite literals holds s _ t ended
  exact ⟨finite, finite.toJson⟩

/-- The number of a record, or a half. -/
def orHalf : Query := .orElse (.json ["n"]) (.value (.float ⟨0x3fe0000000000000⟩))

/-- A document that takes records as they are. -/
def asTheyAre : Document := ⟨⟨some "json", none, none, [], []⟩, .empty⟩

theorem finite_everywhere_half :
    (∃ v t, (orHalf.eval .blank 0 { batch := #[{ body := Utf8.encode "[]" }] }).run.run {} = some (.ok v, t) ∧
      v.Finite ∧ ∃ json, v.toJson = .ok json) ∧
    ∃ stats after, (Run.execute .blank .standard {} asTheyAre (.ok (Utf8.encode "[1e3]"))).run.run {} = some (.ok stats, after) ∧
      ∃ text, Run.FiniteText .blank {} asTheyAre (.ok (Utf8.encode "[1e3]")) text ∧ after.output = "" ++ text := by
  constructor
  · have each : orHalf.Each fun node => ∀ v, .value v ∈ node.args → v.Finite := by
      refine ⟨?_, ?_⟩
      · intro v member
        obtain rfl : v = .float ⟨0x3fe0000000000000⟩ := by simpa [orHalf, Query.args] using member
        decide
      · intro part member
        obtain rfl : part = .json ["n"] := by simpa [orHalf, Query.parts] using member
        exact ⟨by simp [Query.args], by simp [Query.parts]⟩
    have holds : Context.Holds Value.Finite .empty { batch := #[{ body := Utf8.encode "[]" }] } :=
      ⟨rfl, fun _ _ found => (by cases found), fun _ same => (by cases same)⟩
    obtain ⟨v, t, ended⟩ : ∃ v t, (orHalf.eval .blank 0 { batch := #[{ body := Utf8.encode "[]" }] }).run.run {} =
        some (.ok v, t) := ⟨_, _, rfl⟩
    exact ⟨v, t, ended, finite_everywhere.1 _ _ _ _ _ (each.throughout (List.forall_mem_nil _)) holds _ _ _ ended⟩
  · have ran : ((Run.execute .blank .standard {} asTheyAre (.ok (Utf8.encode "[1e3]"))).run.run {}).map
        (fun ended => (ended.1.toOption, ended.2.output)) = some (some none, "[1000.0]\n") := by decide +kernel
    obtain ⟨⟨outcome, after⟩, ended, same⟩ := Option.map_eq_some_iff.mp ran
    cases outcome with
    | error failure => cases same
    | ok stats => exact ⟨stats, after, ended, (finite_everywhere.2 _ _ _ _).everything ended⟩

end RecordQuery
