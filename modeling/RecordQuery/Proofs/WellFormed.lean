import RecordQuery.Proofs.Building

/-!
# Well-formed documents

What a document has to be for building to accept it, at every depth of its main query and of its maps
(`Document.WellFormed`). Building accepts exactly these documents, and refuses another main query for the first
step that is at fault (`Document.build_accepts`).
-/

namespace RecordQuery

/-- A standard function takes arguments as far as a document shows them. -/
def FunctionTakes (name : String) (args : List ArgSpec) : Prop :=
  ∃ entry, Registry.standard.functions.find? name = some entry ∧
    checkArgs name entry.params (args.map ArgSpec.shape) = .ok () ∧
    (name = "timestamp_utc" → ∀ pattern rest, args = .literal (.string pattern) :: rest → (Pattern.parse? pattern).isSome)

/-- A standard method takes arguments as far as a document shows them. -/
def MethodTakes (name : String) (args : List ArgSpec) : Prop :=
  ∃ entry, Registry.standard.methods.find? name = some entry ∧
    checkArgs name entry.params (args.map ArgSpec.shape) = .ok ()

mutual

/-- A node has one form, its function is there and takes the arguments, and all within it is well-formed. -/
def QuerySpec.WellFormed : QuerySpec → Prop
  | ⟨function, field, literal, args, methods⟩ =>
    QuerySpec.HasForm ⟨function, field, literal, args, methods⟩ ∧ ArgsWellFormed args ∧
      (∀ name, function = some name → FunctionTakes name args) ∧ MethodsWellFormed methods

def ArgSpec.WellFormed : ArgSpec → Prop
  | .nested query => query.WellFormed
  | .literal _ => True

def ArgsWellFormed : List ArgSpec → Prop
  | [] => True
  | arg :: rest => arg.WellFormed ∧ ArgsWellFormed rest

def MethodSpec.WellFormed : MethodSpec → Prop
  | ⟨name, args⟩ => ArgsWellFormed args ∧ MethodTakes name args

def MethodsWellFormed : List MethodSpec → Prop
  | [] => True
  | method :: rest => method.WellFormed ∧ MethodsWellFormed rest

end

/-- The main query and all maps are well-formed. -/
def Document.WellFormed (d : Document) : Prop :=
  d.query.WellFormed ∧ ∀ entry ∈ d.maps.entries, entry.2.WellFormed

/-! ## Documents without faults -/

theorem faultOf_eq_none {checked : Except Error Unit} : Build.faultOf checked = none ↔ checked = .ok () := by
  cases checked <;> simp [Build.faultOf]

theorem constructorFault_eq_none {name : String} {args : List ArgSpec} :
    constructorFault name (args.map ArgSpec.shape) = none ↔
      (name = "timestamp_utc" → ∀ pattern rest, args = .literal (.string pattern) :: rest → (Pattern.parse? pattern).isSome) := by
  unfold constructorFault
  split
  next named =>
    simp only [named, forall_const]
    cases args with
    | nil => simp [formatFault]
    | cons arg args =>
      cases arg with
      | nested query => simp [formatFault, ArgSpec.shape]
      | literal json =>
        cases json with
        | string pattern =>
          have readable : ¬ Pattern.parse? pattern = none ↔ (Pattern.parse? pattern).isSome := Option.isSome_iff_ne_none.symm
          simpa [formatFault, ArgSpec.shape, Value.ofJson] using readable
        | number n =>
          have noString : ∀ pattern, Value.ofJsonNumber n ≠ .string pattern := by
            intro pattern
            unfold Value.ofJsonNumber
            split
            · split <;> exact Value.noConfusion
            · exact Value.noConfusion
            · exact Value.noConfusion
          simp [formatFault, ArgSpec.shape, Value.ofJson, noString]
        | _ => simp [formatFault, ArgSpec.shape, Value.ofJson]
  next unnamed => simp [unnamed]

theorem functionFault_eq_none {name : String} {args : List ArgSpec} :
    BuildStep.fault (.function name args) = none ↔ FunctionTakes name args := by
  rw [BuildStep.fault, Registry.functionFault, FunctionTakes]
  cases found : Registry.standard.functions.find? name with
  | none => simp
  | some entry => simp [Option.or_eq_none_iff, faultOf_eq_none, constructorFault_eq_none]

theorem methodFault_eq_none {name : String} {args : List ArgSpec} :
    BuildStep.fault (.method name args) = none ↔ MethodTakes name args := by
  rw [BuildStep.fault, Registry.methodFault, MethodTakes]
  cases found : Registry.standard.methods.find? name with
  | none => simp
  | some entry => simp [faultOf_eq_none]

theorem nodeFault_eq_none {spec : QuerySpec} : BuildStep.fault (.node spec) = none ↔ spec.HasForm := by
  rw [BuildStep.fault]
  split <;> simp_all

theorem firstFault_append_eq_none {first next : List BuildStep} :
    firstFault (first ++ next) = none ↔ firstFault first = none ∧ firstFault next = none := by
  rw [firstFault_append, Option.or_eq_none_iff]

theorem firstFault_singleton (step : BuildStep) : firstFault [step] = step.fault := by
  rw [firstFault, List.findSome?_singleton]

mutual

/-- A node is well-formed if no step of building it is at fault. -/
theorem QuerySpec.wellFormed_iff : (spec : QuerySpec) → (spec.WellFormed ↔ firstFault spec.steps = none)
  | ⟨function, field, literal, args, methods⟩ => by
    have called : firstFault (function.toList.map (BuildStep.function · args)) = none ↔
        ∀ name, function = some name → FunctionTakes name args := by
      cases function with
      | none => simp [firstFault]
      | some name =>
        rw [Option.toList_some, List.map_singleton, firstFault_singleton, functionFault_eq_none]
        simp
    rw [QuerySpec.WellFormed, QuerySpec.steps, firstFault_cons, Option.or_eq_none_iff, firstFault_append_eq_none,
      firstFault_append_eq_none, nodeFault_eq_none, argsWellFormed_iff args, called, methodsWellFormed_iff methods]

theorem ArgSpec.wellFormed_iff : (spec : ArgSpec) → (spec.WellFormed ↔ firstFault spec.steps = none)
  | .nested query => query.wellFormed_iff
  | .literal _ => ⟨fun _ => rfl, fun _ => trivial⟩

theorem argsWellFormed_iff : (specs : List ArgSpec) → (ArgsWellFormed specs ↔ firstFault (argsSteps specs) = none)
  | [] => ⟨fun _ => rfl, fun _ => trivial⟩
  | spec :: specs => by
    rw [ArgsWellFormed, argsSteps, firstFault_append_eq_none, spec.wellFormed_iff, argsWellFormed_iff specs]

theorem MethodSpec.wellFormed_iff : (spec : MethodSpec) → (spec.WellFormed ↔ firstFault spec.steps = none)
  | ⟨name, args⟩ => by
    rw [MethodSpec.WellFormed, MethodSpec.steps, firstFault_append_eq_none, firstFault_singleton, methodFault_eq_none,
      argsWellFormed_iff args]

theorem methodsWellFormed_iff : (specs : List MethodSpec) → (MethodsWellFormed specs ↔ firstFault (methodsSteps specs) = none)
  | [] => ⟨fun _ => rfl, fun _ => trivial⟩
  | spec :: specs => by
    rw [MethodsWellFormed, methodsSteps, firstFault_append_eq_none, spec.wellFormed_iff, methodsWellFormed_iff specs]

end

theorem Document.wellFormed_iff (d : Document) : d.WellFormed ↔ firstFault d.steps = none := by
  have ofMaps (specs : List (String × QuerySpec)) :
      (∀ entry ∈ specs, entry.2.WellFormed) ↔ firstFault (mapsSteps specs) = none := by
    induction specs with
    | nil => simp [mapsSteps, firstFault]
    | cons spec specs ih =>
      rw [List.forall_mem_cons, mapsSteps, List.flatMap_cons, firstFault_append_eq_none, spec.2.wellFormed_iff, ih, mapsSteps]
  rw [Document.WellFormed, Document.steps, firstFault_append_eq_none, d.query.wellFormed_iff, ofMaps]

/-! ## Accepted documents -/

/-- Building accepts exactly the well-formed documents. It never fails with a check of a constructor's own. If the
main query is not well-formed, building fails with the fault of its first faulty step. -/
theorem Document.build_accepts (d : Document) (bench : Workbench) :
    ((∃ built, (d.build .standard).outcome bench = .ok built) ↔ d.WellFormed) ∧
    (∀ name refusal, (d.build .standard).outcome bench = .error (.invalidArguments name refusal) →
      refusal.isConstructors = false) ∧
    (¬ d.query.WellFormed → ∃ before step after e, d.query.steps = before ++ step :: after ∧
      (∀ earlier ∈ before, earlier.fault = none) ∧ step.fault = some e ∧ (d.build .standard).outcome bench = .error e) := by
  have gives := d.build_gives bench
  refine ⟨?_, ?_, ?_⟩
  · rw [d.wellFormed_iff]
    cases outcome : (d.build .standard).outcome bench with
    | ok built =>
      rw [outcome] at gives
      exact ⟨fun _ => gives.1, fun _ => ⟨built, rfl⟩⟩
    | error e =>
      rw [outcome] at gives
      have fault : firstFault d.steps = some e := gives
      simp [fault]
  · intro name refusal outcome
    rw [outcome] at gives
    obtain ⟨step, -, fault⟩ := List.exists_of_findSome?_eq_some (gives : firstFault d.steps = some _)
    simpa [Error.isCheck] using BuildStep.isCheck_fault fault
  · intro malformed
    rw [d.query.wellFormed_iff] at malformed
    obtain ⟨e, faulty⟩ := Option.ne_none_iff_exists'.mp malformed
    obtain ⟨before, step, after, split, fault, earlier⟩ := List.findSome?_eq_some_iff.mp faulty
    refine ⟨before, step, after, e, split, earlier, fault, ?_⟩
    have first : firstFault d.steps = some e := by rw [Document.steps, firstFault_append, faulty, Option.some_or]
    rw [first] at gives
    cases outcome : (d.build .standard).outcome bench with
    | ok built =>
      rw [outcome] at gives
      cases gives.1
    | error e' =>
      rw [outcome] at gives
      cases gives
      rfl

end RecordQuery
