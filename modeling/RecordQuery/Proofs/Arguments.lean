import RecordQuery.Proofs.Building

/-!
# Arguments and parameters

What a check of arguments against parameters accepts is said without the check (`Acceptable`): their number is between
two bounds, and each fits the parameter at its place. A check that refuses tells of the number, if that is wrong, and
else of the leftmost argument that does not fit (`checkArgs_exact`). Where the parameters that can be left out stand
behind all others, a check that accepts leaves no required parameter without an argument.
-/

namespace RecordQuery

/-- A literal is of a kind if that is the kind's name, or if any will do. -/
theorem ParamKind.accepts_iff (kind : ParamKind) (v : Value) :
    kind.accepts v = true ↔ kind = .any ∨ v.kind.name = kind.name := by
  cases kind <;> cases v <;> simp [accepts, name, Value.kind, Value.Kind.name]

instance (param : Param) (arg : Arg) : Decidable (param.Fits arg) :=
  match arg with
  | .query _ => inferInstanceAs (Decidable (_ = true))
  | .value _ => inferInstanceAs (Decidable (_ = true))

/-- What is wrong with an argument that does not fit. -/
def Param.misfit (param : Param) : Arg → Refusal
  | .query _ => .mustBeLiteral param.name
  | .value v => .wrongKind param.kind param.name v.kind

/-- The parameters that can be left out stand behind all others. -/
def OptionalTrail (params : List Param) : Prop :=
  params.Pairwise fun earlier later => earlier.isOptional = true → later.isOptional = true

/-- There are as many arguments as parameters allow, and each is one that the parameter at its place takes. -/
structure Acceptable (params : List Param) (args : List Arg) : Prop where
  least : requiredCount params ≤ args.length
  most : args.length ≤ params.length
  dynamic : ∀ (place : Nat) (param : Param) (q : Query),
    params[place]? = some param → args[place]? = some (.query q) → param.isDynamic = true
  literal : ∀ (place : Nat) (param : Param) (v : Value),
    params[place]? = some param → args[place]? = some (.value v) → param.kind = .any ∨ v.kind.name = param.kind.name

/-- An argument does not fit the parameter at its place, and all to the left of it do. -/
structure LeftmostMisfit (params : List Param) (args : List Arg) (place : Nat) (param : Param) (arg : Arg) : Prop where
  expected : params[place]? = some param
  received : args[place]? = some arg
  misfit : ¬ param.Fits arg
  leftmost : ∀ earlier < place, ∀ param arg, params[earlier]? = some param → args[earlier]? = some arg → param.Fits arg

variable {name : String} {params : List Param} {args : List Arg} {e : Error}

/-! ## Kinds -/

/-- The check of kinds looks for the first argument that does not fit. -/
theorem checkKinds_eq (name : String) (params : List Param) (args : List Arg) :
    checkKinds name params args = match (params.zip args).find? fun pair => ¬ pair.1.Fits pair.2 with
      | none => .ok ()
      | some (param, arg) => .error (.invalidArguments name (param.misfit arg)) := by
  induction params generalizing args with
  | nil => rfl
  | cons param params ih =>
    cases args with
    | nil => rfl
    | cons arg args =>
      rw [List.zip_cons_cons, List.find?_cons]
      cases arg with
      | query q =>
        by_cases dynamic : param.isDynamic = true
        · simp [checkKinds, Param.Fits, dynamic, ih]
        · simp [checkKinds, Param.Fits, dynamic, Param.misfit]
      | value v =>
        by_cases accepted : param.kind.accepts v = true
        · simp [checkKinds, Param.Fits, accepted, ih]
        · simp [checkKinds, Param.Fits, accepted, Param.misfit]

theorem forall_mem_zip_iff {fits : Param → Arg → Prop} :
    (∀ pair ∈ params.zip args, fits pair.1 pair.2) ↔
      ∀ (place : Nat) (param : Param) (arg : Arg), params[place]? = some param → args[place]? = some arg → fits param arg := by
  constructor
  · intro each place param arg expected received
    have there : (params.zip args)[place]? = some (param, arg) := List.getElem?_zip_eq_some.mpr ⟨expected, received⟩
    exact each _ (List.mem_of_getElem? there)
  · intro each pair member
    obtain ⟨place, there⟩ := List.mem_iff_getElem?.mp member
    obtain ⟨expected, received⟩ := List.getElem?_zip_eq_some.mp there
    exact each place pair.1 pair.2 expected received

theorem checkKinds_of_fits (fits : ∀ pair ∈ params.zip args, pair.1.Fits pair.2) :
    checkKinds name params args = .ok () := by
  have none : (params.zip args).find? (fun pair => ¬ pair.1.Fits pair.2) = none := by
    simpa [List.find?_eq_none] using fits
  rw [checkKinds_eq, none]

theorem checkKinds_eq_error_iff :
    checkKinds name params args = .error e ↔
      ∃ place param arg, LeftmostMisfit params args place param arg ∧ e = .invalidArguments name (param.misfit arg) := by
  have refused : checkKinds name params args = .error e ↔
      ∃ pair, (params.zip args).find? (fun pair => ¬ pair.1.Fits pair.2) = some pair ∧
        e = .invalidArguments name (pair.1.misfit pair.2) := by
    rw [checkKinds_eq]
    cases (params.zip args).find? fun pair => ¬ pair.1.Fits pair.2 with
    | none => simp
    | some pair => simp [eq_comm]
  rw [refused]
  constructor
  · rintro ⟨⟨param, arg⟩, found, rfl⟩
    obtain ⟨misfit, place, within, there, before⟩ := List.find?_eq_some_iff_getElem.mp found
    obtain ⟨expected, received⟩ := List.getElem?_zip_eq_some.mp (List.getElem?_eq_some_iff.mpr ⟨within, there⟩)
    refine ⟨place, param, arg, ⟨expected, received, of_decide_eq_true misfit, ?_⟩, rfl⟩
    intro earlier isEarlier param' arg' expected' received'
    have pair : (params.zip args)[earlier]? = some (param', arg') :=
      List.getElem?_zip_eq_some.mpr ⟨expected', received'⟩
    obtain ⟨_, same⟩ := List.getElem?_eq_some_iff.mp pair
    simpa [same] using before earlier isEarlier
  · rintro ⟨place, param, arg, ⟨expected, received, misfit, leftmost⟩, rfl⟩
    have pair : (params.zip args)[place]? = some (param, arg) := List.getElem?_zip_eq_some.mpr ⟨expected, received⟩
    obtain ⟨within, there⟩ := List.getElem?_eq_some_iff.mp pair
    refine ⟨(param, arg), List.find?_eq_some_iff_getElem.mpr ⟨decide_eq_true misfit, place, within, there, ?_⟩, rfl⟩
    intro earlier isEarlier
    have pair : (params.zip args)[earlier]? = some (params.zip args)[earlier] := List.getElem?_eq_getElem _
    obtain ⟨expected', received'⟩ := List.getElem?_zip_eq_some.mp pair
    simpa using leftmost earlier isEarlier _ _ expected' received'

/-! ## Places -/

/-- Behind parameters that can be left out stand no required ones, so a required one has only required ones before it. -/
theorem lt_requiredCount {place : Nat} {param : Param} (trail : OptionalTrail params)
    (expected : params[place]? = some param) (isRequired : param.isOptional = false) : place < requiredCount params := by
  induction params generalizing place with
  | nil => simp at expected
  | cons first params ih =>
    obtain ⟨behind, trail⟩ := List.pairwise_cons.mp trail
    cases place with
    | zero =>
      obtain rfl : first = param := by simpa using expected
      simp [requiredCount, isRequired]
    | succ place =>
      rw [List.getElem?_cons_succ] at expected
      have firstRequired : first.isOptional = false := by
        by_contra optional
        have late := behind param (List.mem_of_getElem? expected) (by simpa using optional)
        rw [isRequired] at late
        cases late
      have onward := ih trail expected
      simp only [requiredCount, List.countP_cons, firstRequired, Bool.not_false, if_true] at onward ⊢
      omega

theorem acceptable_iff :
    Acceptable params args ↔ requiredCount params ≤ args.length ∧ args.length ≤ params.length ∧
      ∀ pair ∈ params.zip args, pair.1.Fits pair.2 := by
  rw [forall_mem_zip_iff]
  constructor
  · rintro ⟨least, most, dynamic, literal⟩
    refine ⟨least, most, fun place param arg expected received => ?_⟩
    cases arg with
    | query q => exact dynamic place param q expected received
    | value v => exact (param.kind.accepts_iff v).mpr (literal place param v expected received)
  · rintro ⟨least, most, fits⟩
    refine ⟨least, most, fun place param q expected received => fits place param _ expected received, ?_⟩
    exact fun place param v expected received => (param.kind.accepts_iff v).mp (fits place param _ expected received)

theorem checkArgs_eq_ok_iff : checkArgs name params args = .ok () ↔ Acceptable params args := by
  rw [acceptable_iff]
  constructor
  · exact checkArgs_eq_ok
  · rintro ⟨least, most, fits⟩
    rw [checkArgs, if_neg (by omega)]
    exact checkKinds_of_fits fits

/-- A check accepts exactly what is acceptable. Then, if the parameters that can be left out stand last, every required
one has an argument that fits it. All else is refused under the name of the call: for the number of arguments, if that is
wrong, and only else for an argument, the leftmost that does not fit. -/
theorem checkArgs_exact (name : String) (params : List Param) (args : List Arg) :
    (checkArgs name params args = .ok () ↔ Acceptable params args) ∧
    (OptionalTrail params → checkArgs name params args = .ok () → ∀ (place : Nat) (param : Param),
      params[place]? = some param → param.isOptional = false → ∃ arg, args[place]? = some arg ∧ param.Fits arg) ∧
    ∀ e, checkArgs name params args = .error e ↔
      ((args.length < requiredCount params ∨ params.length < args.length) ∧
        e = .invalidArguments name (.arity (requiredCount params) params.length args.length)) ∨
      (requiredCount params ≤ args.length ∧ args.length ≤ params.length ∧
        ∃ place param arg, LeftmostMisfit params args place param arg ∧ e = .invalidArguments name (param.misfit arg)) := by
  refine ⟨checkArgs_eq_ok_iff, ?_, fun e => ?_⟩
  · intro trail checked place param expected isRequired
    obtain ⟨least, -, fits⟩ := acceptable_iff.mp (checkArgs_eq_ok_iff.mp checked)
    have within : place < args.length := Nat.lt_of_lt_of_le (lt_requiredCount trail expected isRequired) least
    have received : args[place]? = some args[place] := List.getElem?_eq_getElem within
    exact ⟨args[place], received, forall_mem_zip_iff.mp fits place param _ expected received⟩
  · unfold checkArgs
    by_cases wrong : args.length < requiredCount params ∨ params.length < args.length
    · have notBetween : ¬ (requiredCount params ≤ args.length ∧ args.length ≤ params.length) := by omega
      simp [wrong, ← and_assoc, notBetween, eq_comm]
    · have between : requiredCount params ≤ args.length ∧ args.length ≤ params.length := by omega
      simp [wrong, between, checkKinds_eq_error_iff]

/-- Where a parameter that can be left out stands in front, the one argument is taken for it, and the required parameter
behind it has none. -/
example : checkArgs "f" [{ name := "unit", kind := .string, isOptional := true }, { name := "n", kind := .int }]
    [.value (.string "kg")] = .ok () := rfl

/-- A label, and a number that can be left out or computed. -/
def labelled : List Param :=
  [{ name := "name", kind := .string }, { name := "n", kind := .int, isOptional := true, isDynamic := true }]

/-- A label with a computed number, two arguments of which neither fits, and no argument at all. -/
theorem checkArgs_exact_labelled :
    OptionalTrail labelled ∧ checkArgs "f" labelled [.value (.string "a"), .query .content] = .ok () ∧
      (∃ arg, [Arg.value (.string "a"), .query .content][0]? = some arg ∧ Param.Fits ⟨"name", .string, false, false⟩ arg) ∧
      checkArgs "f" labelled [.value (.int 1), .value (.string "b")] =
        .error (.invalidArguments "f" (.wrongKind .string "name" .integer)) ∧
      checkArgs "f" labelled [] = .error (.invalidArguments "f" (.arity 1 2 0)) := by
  have trail : OptionalTrail labelled := by simp [OptionalTrail, labelled]
  obtain ⟨accepts, places, -⟩ := checkArgs_exact "f" labelled [.value (.string "a"), .query .content]
  have accepted : checkArgs "f" labelled [.value (.string "a"), .query .content] = .ok () :=
    accepts.mpr (acceptable_iff.mpr ⟨by decide, by decide, by decide⟩)
  obtain ⟨-, -, misfits⟩ := checkArgs_exact "f" labelled [.value (.int 1), .value (.string "b")]
  obtain ⟨-, -, none⟩ := checkArgs_exact "f" labelled []
  refine ⟨trail, accepted, places trail accepted 0 _ rfl rfl, (misfits _).mpr (.inr ?_), (none _).mpr (.inl ?_)⟩
  · exact ⟨by decide, by decide, 0, _, _, ⟨rfl, rfl, by decide, nofun⟩, rfl⟩
  · exact ⟨by decide, rfl⟩

end RecordQuery
