import RecordQuery.Document
import RecordQuery.Proofs.Reach
import RecordQuery.Proofs.Tables

/-!
# Building step by step

A document is built in steps (`BuildStep`): the shape of a node, its arguments, the call of its function, and its
methods one by one. A step can be at fault, which its names and literals alone decide (`BuildStep.fault`), and the
first faulty step is what building fails with (`QuerySpec.build_gives`). What is built without a fault has formats of
times only that can be read, and values only that are written in the document (`Query.Each Query.WellBuilt`).
-/

namespace RecordQuery

/-! ## What building gives -/

namespace Build

variable {α β : Type}

def outcome (x : Build α) (bench : Workbench) : Except Error α := (x.run.run bench).1

theorem outcome_bind (x : Build α) (f : α → Build β) (bench : Workbench) :
    (x >>= f).outcome bench = match x.outcome bench with
      | .ok a => (f a).outcome (x.run.run bench).2
      | .error e => .error e := by
  unfold outcome
  rw [ExceptT.run_bind, StateT.run_bind]
  rcases (x.run.run bench) with ⟨_ | _, after⟩ <;> rfl

/-- An outcome is the fault, or, if there is none, something with a property. -/
def Meets (fault : Option Error) (holds : α → Prop) : Except Error α → Prop
  | .error e => fault = some e
  | .ok a => fault = none ∧ holds a

/-- Building fails with the fault on every workbench, or, if there is none, gives something with a property. -/
def Gives (x : Build α) (fault : Option Error) (holds : α → Prop) : Prop := ∀ bench, Meets fault holds (x.outcome bench)

variable {x : Build α} {fault : Option Error} {holds : α → Prop}

theorem Gives.pure {a : α} (held : holds a) : Gives (Pure.pure a) none holds := fun _ => ⟨rfl, held⟩

theorem Gives.throw (e : Error) : Gives (α := α) (MonadExcept.throw e) (some e) holds := fun _ => rfl

theorem Gives.note (level : LogLevel) (source : LogSource) (text : String) :
    Gives (Build.note level source text) none fun _ => True := fun _ => ⟨rfl, trivial⟩

theorem Gives.freshCell : Gives Build.freshCell none fun _ => True := fun _ => ⟨rfl, trivial⟩

/-- What a check refuses. -/
def faultOf : Except Error Unit → Option Error
  | .error e => some e
  | .ok _ => none

theorem Gives.check (checked : Except Error Unit) :
    Gives (liftExcept checked) (faultOf checked) fun _ => checked = .ok () := by
  cases checked with
  | ok a => exact .pure rfl
  | error e => exact .throw e

/-- The fault of what is built first comes before the fault of what is built from it. -/
theorem Gives.bind {after : Option Error} {f : α → Build β} {holds' : β → Prop} (first : x.Gives fault holds)
    (next : ∀ a, holds a → (f a).Gives after holds') : (x >>= f).Gives (fault.or after) holds' := by
  intro bench
  have now := first bench
  rw [outcome_bind]
  cases outcome : x.outcome bench with
  | error e =>
    rw [outcome] at now
    obtain rfl : fault = some e := now
    rfl
  | ok a =>
    rw [outcome] at now
    obtain ⟨rfl, held⟩ := now
    exact next a held _

theorem Gives.imp {holds' : α → Prop} (gives : x.Gives fault holds) (weaker : ∀ a, holds a → holds' a) :
    x.Gives fault holds' := by
  intro bench
  have now := gives bench
  cases outcome : x.outcome bench with
  | error e => rwa [outcome] at now
  | ok a =>
    rw [outcome] at now
    exact ⟨now.1, weaker a now.2⟩

end Build

/-! ## Checked arguments -/

/-- Whether an argument can stand for a parameter. -/
def Param.Fits (param : Param) : Arg → Prop
  | .query _ => param.isDynamic = true
  | .value v => param.kind.accepts v = true

theorem Param.Fits.string {param : Param} {arg : Arg} (fits : param.Fits arg) (ofKind : param.kind = .string)
    (static : param.isDynamic = false) : ∃ text, arg = .value (.string text) := by
  cases arg with
  | query q => exact absurd fits (by simp [Fits, static])
  | value v =>
    rw [Fits, ofKind] at fits
    cases v with
    | string text => exact ⟨text, rfl⟩
    | _ => cases fits

theorem fits_of_checkKinds {name : String} {params : List Param} {args : List Arg}
    (checked : checkKinds name params args = .ok ()) : ∀ pair ∈ params.zip args, pair.1.Fits pair.2 := by
  induction params generalizing args with
  | nil => simp
  | cons param params ih =>
    cases args with
    | nil => simp
    | cons arg args =>
      rw [List.zip_cons_cons, List.forall_mem_cons]
      cases arg with
      | query q =>
        rw [checkKinds] at checked
        split at checked
        next isDynamic => exact ⟨isDynamic, ih checked⟩
        next => cases checked
      | value v =>
        rw [checkKinds] at checked
        split at checked
        next accepted => exact ⟨accepted, ih checked⟩
        next => cases checked

theorem checkArgs_eq_ok {name : String} {params : List Param} {args : List Arg} (checked : checkArgs name params args = .ok ()) :
    requiredCount params ≤ args.length ∧ args.length ≤ params.length ∧ ∀ pair ∈ params.zip args, pair.1.Fits pair.2 := by
  unfold checkArgs at checked
  split at checked
  next => cases checked
  next within => exact ⟨by omega, by omega, fits_of_checkKinds checked⟩

theorem eq_of_checkArgs {name : String} {param : Param} {args : List Arg} (checked : checkArgs name [param] args = .ok ()) :
    (args = [] ∧ param.isOptional = true) ∨ ∃ arg, args = [arg] ∧ param.Fits arg := by
  obtain ⟨least, most, fits⟩ := checkArgs_eq_ok checked
  cases args with
  | nil => simpa [requiredCount] using least
  | cons arg args =>
    obtain rfl : args = [] := by simpa using most
    exact .inr ⟨arg, rfl, fits (param, arg) (by simp)⟩

theorem eq_singleton_of_checkArgs {name : String} {param : Param} {args : List Arg}
    (checked : checkArgs name [param] args = .ok ()) (isRequired : param.isOptional = false) :
    ∃ arg, args = [arg] ∧ param.Fits arg :=
  (eq_of_checkArgs checked).resolve_left fun left => by simp [isRequired] at left

/-- What a check sees of an argument: a literal, or that it is a query. -/
def Arg.shape : Arg → Arg
  | .value v => .value v
  | .query _ => .query default

theorem checkKinds_shape (name : String) (params : List Param) (args : List Arg) :
    checkKinds name params (args.map Arg.shape) = checkKinds name params args := by
  induction params generalizing args with
  | nil => cases args <;> rfl
  | cons param params ih =>
    cases args with
    | nil => rfl
    | cons arg args => cases arg <;> simp only [List.map_cons, Arg.shape, checkKinds, ih]

theorem checkArgs_shape (name : String) (params : List Param) (args : List Arg) :
    checkArgs name params (args.map Arg.shape) = checkArgs name params args := by
  rw [checkArgs, checkArgs, List.length_map, checkKinds_shape]

/-! ## Built trees -/

/-- A query has a property at its root and in all its parts, at every depth. -/
inductive Query.Each (holds : Query → Prop) : Query → Prop
  | intro {q : Query} (here : holds q) (parts : ∀ part ∈ q.parts, part.Each holds) : q.Each holds

/-- A format of times can be read. -/
def Query.HasFormat : Query → Prop
  | .utcTime (some pattern) => (Pattern.parse? pattern).isSome
  | _ => True

/-- The fault that a format of times is if it cannot be read. -/
def formatFault : List Arg → Option Error
  | .value (.string pattern) :: _ =>
    if (Pattern.parse? pattern).isSome then none else some (.invalidArguments "timestamp_utc" (.format pattern))
  | _ => none

/-- The fault that a constructor finds in arguments that fit its parameters. -/
def constructorFault (name : String) (args : List Arg) : Option Error :=
  if name = "timestamp_utc" then formatFault args else none

theorem formatFault_shape (args : List Arg) : formatFault (args.map Arg.shape) = formatFault args := by
  cases args with
  | nil => rfl
  | cons arg args =>
    cases arg with
    | value v => cases v <;> rfl
    | query q => rfl

theorem constructorFault_shape (name : String) (args : List Arg) :
    constructorFault name (args.map Arg.shape) = constructorFault name args := by
  rw [constructorFault, constructorFault, formatFault_shape]

/-- The receiver of a query as an argument, its arguments, and the value of a literal. -/
def Query.args : Query → List Arg
  | .literal v => [.value v]
  | .env name => [name]
  | .metadataAt key => [key]
  | .randomIntFrom seed _ => [seed]
  | .throwing message => [message]
  | .var name => [name]
  | .apply receiver _ => [.query receiver]
  | .catching receiver fallback => [.query receiver, fallback]
  | .orElse receiver fallback => [.query receiver, fallback]
  | .atRecord receiver index => [.query receiver, index]
  | .get receiver _ => [.query receiver]
  | .inCase receiver _ => [.query receiver]
  | .field _ | .json _ | .content | .batchIndex | .batchSize | .count .. | .metadata
  | .randomInt _ | .unixTime | .unixNanoTime | .utcTime _ | .uuid => []

theorem Query.mem_parts_iff {q part : Query} : part ∈ q.parts ↔ Arg.query part ∈ q.args := by
  have ofArg (arg : Arg) : part ∈ arg.parts ↔ Arg.query part = arg := by cases arg <;> simp
  cases q <;> simp [parts, args, ofArg]

/-- A format that can be read, and values that are written in a document. -/
structure Query.WellBuilt (q : Query) : Prop where
  hasFormat : q.HasFormat
  values : ∀ v, .value v ∈ q.args → ∃ json, v = Value.ofJson json

/-- A query of some arguments that are there. -/
structure Query.MadeOf (available : List Arg) (q : Query) : Prop where
  hasFormat : q.HasFormat
  args : ∀ arg ∈ q.args, arg ∈ available

theorem Build.firstArg_gives (name : String) (arg : Arg) : (firstArg name [arg]).Gives none (· = arg) := .pure rfl

namespace Registry

open Build

/-- The constructor of a standard function takes all arguments that fit its parameters, but for formats. -/
theorem standardFunctions_give {name : String} {entry : FunctionEntry} (registered : (name, entry) ∈ standardFunctions)
    {args : List Arg} (checked : checkArgs name entry.params args = .ok ()) :
    (entry.build args).Gives (constructorFault name args) (Query.MadeOf args) := by
  have leaf {q : Query} {available : List Arg} (hasFormat : q.HasFormat) (noArgs : q.args = []) : q.MadeOf available :=
    ⟨hasFormat, by simp [noArgs]⟩
  have noFormat {name : String} (other : name ≠ "timestamp_utc") : constructorFault name args = none := if_neg other
  -- One case for each entry, in the order of the table: only `timestamp_utc` looks at more than kinds.
  simp only [standardFunctions, List.mem_cons, List.not_mem_nil, or_false, Prod.mk.injEq] at registered
  rcases registered with ⟨rfl, rfl⟩ | ⟨rfl, rfl⟩ | ⟨rfl, rfl⟩ | ⟨rfl, rfl⟩ | ⟨rfl, rfl⟩ | ⟨rfl, rfl⟩ | ⟨rfl, rfl⟩ |
    ⟨rfl, rfl⟩ | ⟨rfl, rfl⟩ | ⟨rfl, rfl⟩ | ⟨rfl, rfl⟩ | ⟨rfl, rfl⟩ | ⟨rfl, rfl⟩ | ⟨rfl, rfl⟩
  · exact noFormat (show "batch_index" ≠ _ by decide) ▸ .pure (leaf trivial rfl)
  · exact noFormat (show "batch_size" ≠ _ by decide) ▸ .pure (leaf trivial rfl)
  · exact noFormat (show "content" ≠ _ by decide) ▸ .pure (leaf trivial rfl)
  · rw [noFormat (show "count" ≠ _ by decide)]
    obtain ⟨arg, rfl, fits⟩ := eq_singleton_of_checkArgs checked rfl
    obtain ⟨label, rfl⟩ := fits.string rfl rfl
    exact Gives.freshCell.bind fun cell _ => .pure (leaf trivial rfl)
  · rw [noFormat (show "env" ≠ _ by decide)]
    obtain ⟨arg, rfl, -⟩ := eq_singleton_of_checkArgs checked rfl
    exact (firstArg_gives "env" arg).bind fun _ same => .pure ⟨trivial, by simp [same, Query.args]⟩
  · rw [noFormat (show "json" ≠ _ by decide)]
    obtain ⟨rfl, -⟩ | ⟨arg, rfl, fits⟩ := eq_of_checkArgs checked
    · exact .pure (leaf trivial rfl)
    · obtain ⟨path, rfl⟩ := fits.string rfl rfl
      exact .pure (leaf trivial rfl)
  · rw [noFormat (show "meta" ≠ _ by decide)]
    obtain ⟨rfl, -⟩ | ⟨arg, rfl, -⟩ := eq_of_checkArgs checked
    · exact .pure (leaf trivial rfl)
    · exact .pure ⟨trivial, by simp [Query.args]⟩
  · rw [noFormat (show "random_int" ≠ _ by decide)]
    obtain ⟨rfl, -⟩ | ⟨arg, rfl, -⟩ := eq_of_checkArgs checked
    · exact Gives.freshCell.bind fun cell _ => .pure (leaf trivial rfl)
    · exact Gives.freshCell.bind fun cell _ => .pure ⟨trivial, by simp [Query.args]⟩
  · rw [noFormat (show "throw" ≠ _ by decide)]
    obtain ⟨arg, rfl, -⟩ := eq_singleton_of_checkArgs checked rfl
    exact (firstArg_gives "throw" arg).bind fun _ same => .pure ⟨trivial, by simp [same, Query.args]⟩
  · exact noFormat (show "timestamp_unix" ≠ _ by decide) ▸ .pure (leaf trivial rfl)
  · exact noFormat (show "timestamp_unix_nano" ≠ _ by decide) ▸ .pure (leaf trivial rfl)
  · rw [constructorFault, if_pos rfl]
    obtain ⟨rfl, -⟩ | ⟨arg, rfl, fits⟩ := eq_of_checkArgs checked
    · exact .pure (leaf trivial rfl)
    · obtain ⟨pattern, rfl⟩ := fits.string rfl rfl
      simp only [Query.buildUtcTime, formatFault]
      split
      next isRead => exact .pure (leaf isRead rfl)
      next => exact .throw _
  · exact noFormat (show "uuid_v4" ≠ _ by decide) ▸ .pure (leaf trivial rfl)
  · rw [noFormat (show "var" ≠ _ by decide)]
    obtain ⟨arg, rfl, -⟩ := eq_singleton_of_checkArgs checked rfl
    exact (firstArg_gives "var" arg).bind fun _ same => .pure ⟨trivial, by simp [same, Query.args]⟩

/-- The constructor of a standard method takes all arguments that fit its parameters. -/
theorem standardMethods_give {name : String} {entry : MethodEntry} (registered : (name, entry) ∈ standardMethods)
    {args : List Arg} (checked : checkArgs name entry.params args = .ok ()) (receiver : Query) :
    (entry.build receiver args).Gives none (Query.MadeOf (.query receiver :: args)) := by
  have onReceiver {q : Query} {available : List Arg} (hasFormat : q.HasFormat) (args : q.args = [.query receiver]) :
      q.MadeOf (.query receiver :: available) := ⟨hasFormat, by simp [args]⟩
  have withArg {q : Query} {arg : Arg} (hasFormat : q.HasFormat) (args : q.args = [.query receiver, arg]) :
      q.MadeOf [.query receiver, arg] := ⟨hasFormat, by simp [args]⟩
  simp only [standardMethods, List.mem_cons, List.not_mem_nil, or_false, Prod.mk.injEq] at registered
  rcases registered with ⟨rfl, rfl⟩ | ⟨rfl, rfl⟩ | ⟨rfl, rfl⟩ | ⟨rfl, rfl⟩ | ⟨rfl, rfl⟩ | ⟨rfl, rfl⟩ | ⟨rfl, rfl⟩
  · obtain ⟨arg, rfl, fits⟩ := eq_singleton_of_checkArgs checked rfl
    obtain ⟨map, rfl⟩ := fits.string rfl rfl
    exact .pure (onReceiver trivial rfl)
  · obtain ⟨arg, rfl, -⟩ := eq_singleton_of_checkArgs checked rfl
    exact (firstArg_gives "catch" arg).bind fun _ same => .pure (withArg trivial (same ▸ rfl))
  · obtain ⟨arg, rfl, -⟩ := eq_singleton_of_checkArgs checked rfl
    exact (firstArg_gives "from" arg).bind fun _ same => .pure (withArg trivial (same ▸ rfl))
  · obtain ⟨arg, rfl, fits⟩ := eq_singleton_of_checkArgs checked rfl
    obtain ⟨path, rfl⟩ := fits.string rfl rfl
    exact .pure (onReceiver trivial rfl)
  · exact .pure (onReceiver trivial rfl)
  · obtain ⟨arg, rfl, -⟩ := eq_singleton_of_checkArgs checked rfl
    exact (firstArg_gives "or" arg).bind fun _ same => .pure (withArg trivial (same ▸ rfl))
  · exact .pure (onReceiver trivial rfl)

/-- The fault of a call of a standard function. -/
def functionFault (name : String) (args : List Arg) : Option Error :=
  match standard.functions.find? name with
  | none => some (.unknownFunction name)
  | some entry => (faultOf (checkArgs name entry.params args)).or (constructorFault name args)

def methodFault (name : String) (args : List Arg) : Option Error :=
  match standard.methods.find? name with
  | none => some (.unknownMethod name)
  | some entry => faultOf (checkArgs name entry.params args)

theorem functionFault_shape (name : String) (args : List Arg) :
    functionFault name (args.map Arg.shape) = functionFault name args := by
  simp only [functionFault, checkArgs_shape, constructorFault_shape]

theorem methodFault_shape (name : String) (args : List Arg) :
    methodFault name (args.map Arg.shape) = methodFault name args := by
  simp only [methodFault, checkArgs_shape]

theorem initFunction_gives (name : String) (args : List Arg) :
    (standard.initFunction name args).Gives (functionFault name args) (Query.MadeOf args) := by
  unfold initFunction functionFault
  cases found : standard.functions.find? name with
  | none => exact .throw _
  | some entry =>
    have registered : (name, entry) ∈ standardFunctions := Table.mem_of_find?_ofEntries found
    refine (Gives.check _).bind fun _ checked => ?_
    exact (Gives.note _ _ _).bind fun _ _ => standardFunctions_give registered checked

theorem initMethod_gives (name : String) (receiver : Query) (args : List Arg) :
    (standard.initMethod name receiver args).Gives (methodFault name args)
      (Query.MadeOf (.query receiver :: args)) := by
  unfold initMethod methodFault
  cases found : standard.methods.find? name with
  | none => exact .throw _
  | some entry =>
    have registered : (name, entry) ∈ standardMethods := Table.mem_of_find?_ofEntries found
    dsimp only
    rw [← Option.or_none (o := faultOf _)]
    refine (Gives.check _).bind fun _ checked => ?_
    exact (Gives.note _ _ _).bind fun _ _ => standardMethods_give registered checked receiver

end Registry

/-! ## Steps -/

/-- What a check sees of an argument in a document: that it is a query, or else a literal. -/
def ArgSpec.shape : ArgSpec → Arg
  | .nested _ => .query default
  | .literal json => .value (Value.ofJson json)

/-- A node has exactly one of its three forms, and arguments only with a function. -/
def QuerySpec.HasForm (spec : QuerySpec) : Prop :=
  [spec.function.isSome, spec.field.isSome, spec.literal.isSome].count true = 1 ∧
    (spec.args ≠ [] → spec.function.isSome = true)

instance (spec : QuerySpec) : Decidable spec.HasForm := inferInstanceAs (Decidable (_ ∧ _))

/-- One step of building a document. -/
inductive BuildStep where
  /-- A node is looked at. -/
  | node (spec : QuerySpec)
  /-- A function is called. -/
  | function (name : String) (args : List ArgSpec)
  /-- A method is called. -/
  | method (name : String) (args : List ArgSpec)

/-- What is wrong with a step. -/
def BuildStep.fault : BuildStep → Option Error
  | .node spec => if spec.HasForm then none else some (.invalidArguments "query" .form)
  | .function name args => Registry.functionFault name (args.map ArgSpec.shape)
  | .method name args => Registry.methodFault name (args.map ArgSpec.shape)

mutual

/-- The steps of building a node: its shape, its arguments from the left, its call, and its methods in order. -/
def QuerySpec.steps : QuerySpec → List BuildStep
  | ⟨function, field, literal, args, methods⟩ =>
    .node ⟨function, field, literal, args, methods⟩ ::
      (argsSteps args ++ (function.toList.map (BuildStep.function · args) ++ methodsSteps methods))

def ArgSpec.steps : ArgSpec → List BuildStep
  | .nested query => query.steps
  | .literal _ => []

def argsSteps : List ArgSpec → List BuildStep
  | [] => []
  | arg :: rest => arg.steps ++ argsSteps rest

/-- The steps of building a method: its arguments from the left, and its call. -/
def MethodSpec.steps : MethodSpec → List BuildStep
  | ⟨name, args⟩ => argsSteps args ++ [.method name args]

def methodsSteps : List MethodSpec → List BuildStep
  | [] => []
  | method :: rest => method.steps ++ methodsSteps rest

end

def firstFault (steps : List BuildStep) : Option Error := steps.findSome? BuildStep.fault

theorem firstFault_cons (step : BuildStep) (steps : List BuildStep) :
    firstFault (step :: steps) = step.fault.or (firstFault steps) := by
  rw [firstFault, List.findSome?_cons]
  cases step.fault <;> rfl

theorem firstFault_append (first next : List BuildStep) : firstFault (first ++ next) = (firstFault first).or (firstFault next) :=
  List.findSome?_append

/-- An argument is a value that is written in a document, or a query that is well built. -/
def Arg.WellBuilt : Arg → Prop
  | .value v => ∃ json, v = Value.ofJson json
  | .query q => q.Each Query.WellBuilt

/-- An argument that is built from one of a document. -/
structure ArgSpec.Builds (spec : ArgSpec) (arg : Arg) : Prop where
  shape : arg.shape = spec.shape
  wellBuilt : arg.WellBuilt

/-- Arguments that are built from those of a document. -/
structure BuildsArgs (specs : List ArgSpec) (args : List Arg) : Prop where
  shapes : args.map Arg.shape = specs.map ArgSpec.shape
  wellBuilt : ∀ arg ∈ args, arg.WellBuilt

theorem Query.MadeOf.each {available : List Arg} {q : Query} (made : q.MadeOf available)
    (wellBuilt : ∀ arg ∈ available, arg.WellBuilt) : q.Each WellBuilt := by
  have ofArgs (arg : Arg) (member : arg ∈ q.args) : arg.WellBuilt := wellBuilt arg (made.args arg member)
  exact ⟨⟨made.hasFormat, fun v => ofArgs (.value v)⟩, fun part member => ofArgs (.query part) (mem_parts_iff.mp member)⟩

open Build

mutual

/-- Building a node fails with the fault of its first faulty step. -/
theorem QuerySpec.build_gives :
    (spec : QuerySpec) → (spec.build .standard).Gives (firstFault spec.steps) (Query.Each Query.WellBuilt)
  | ⟨function, field, literal, args, methods⟩ => by
    -- The three good shapes go on alike, with the methods on whatever query the node itself gives.
    have onward (q : Query) (each : q.Each Query.WellBuilt) := buildMethods_gives each methods
    have unnamed (path : List BuildStep) : firstFault ((none : Option String).toList.map (BuildStep.function · args) ++ path) =
        firstFault path := rfl
    unfold QuerySpec.build QuerySpec.steps
    rw [firstFault_cons, firstFault_append]
    split
    next name =>
      have form : QuerySpec.HasForm ⟨some name, none, none, args, methods⟩ := ⟨rfl, fun _ => rfl⟩
      rw [BuildStep.fault, if_pos form, Option.none_or]
      refine (buildArgs_gives args).bind fun built builds => ?_
      -- The step looks at the document, the call at what was built from it: checks see the same of both.
      have call : BuildStep.fault (.function name args) = Registry.functionFault name built := by
        rw [BuildStep.fault, ← builds.shapes, Registry.functionFault_shape]
      rw [Option.toList_some, List.map_singleton, List.singleton_append, firstFault_cons, call]
      exact (Registry.initFunction_gives name built).bind fun q made => onward q (made.each builds.wellBuilt)
    next path =>
      rw [unnamed]
      cases args with
      | nil => exact onward _ ⟨⟨trivial, by simp [Query.ofField, Query.args]⟩, by simp [Query.ofField, Query.parts]⟩
      -- Arguments without a function are a fault of the shape, before any of them is built.
      | cons arg args => exact .throw _
    next json =>
      rw [unnamed]
      cases args with
      | nil =>
        refine onward _ ⟨⟨trivial, fun v member => ⟨json, ?_⟩⟩, by simp [Query.parts]⟩
        simpa [Query.args] using member
      | cons arg args => exact .throw _
    next noFunction noField noLiteral =>
      have noForm : ¬ QuerySpec.HasForm ⟨function, field, literal, args, methods⟩ := by
        rintro ⟨single, withArgs⟩
        cases function <;> cases field <;> cases literal <;> simp_all
      rw [BuildStep.fault, if_neg noForm, Option.some_or]
      exact .throw _

theorem ArgSpec.build_gives : (spec : ArgSpec) → (spec.build .standard).Gives (firstFault spec.steps) spec.Builds
  | .nested query => by
    rw [ArgSpec.build, ArgSpec.steps, ← Option.or_none (o := firstFault _)]
    exact query.build_gives.bind fun q built => .pure ⟨rfl, built⟩
  | .literal json => .pure ⟨rfl, json, rfl⟩

theorem buildArgs_gives :
    (specs : List ArgSpec) → (buildArgs .standard specs).Gives (firstFault (argsSteps specs)) (BuildsArgs specs)
  | [] => .pure ⟨rfl, by simp⟩
  | spec :: specs => by
    rw [buildArgs, argsSteps, firstFault_append, ← Option.or_none (o := firstFault (argsSteps specs))]
    refine spec.build_gives.bind fun arg first => (buildArgs_gives specs).bind fun args others => .pure ⟨?_, ?_⟩
    · rw [List.map_cons, List.map_cons, first.shape, others.shapes]
    · exact List.forall_mem_cons.mpr ⟨first.wellBuilt, others.wellBuilt⟩

theorem MethodSpec.build_gives {receiver : Query} (each : receiver.Each Query.WellBuilt) :
    (spec : MethodSpec) → (spec.build .standard receiver).Gives (firstFault spec.steps) (Query.Each Query.WellBuilt)
  | ⟨name, args⟩ => by
    rw [MethodSpec.build, MethodSpec.steps, firstFault_append]
    refine (buildArgs_gives args).bind fun built builds => ?_
    have fault : firstFault [.method name args] = Registry.methodFault name built := by
      rw [firstFault, List.findSome?_singleton, BuildStep.fault, ← builds.shapes, Registry.methodFault_shape]
    rw [fault]
    exact (Registry.initMethod_gives name receiver built).imp fun q made =>
      made.each (List.forall_mem_cons.mpr ⟨each, builds.wellBuilt⟩)

theorem buildMethods_gives {receiver : Query} (each : receiver.Each Query.WellBuilt) :
    (specs : List MethodSpec) →
      (buildMethods .standard receiver specs).Gives (firstFault (methodsSteps specs)) (Query.Each Query.WellBuilt)
  | [] => .pure each
  | spec :: specs => by
    rw [buildMethods, methodsSteps, firstFault_append]
    exact (spec.build_gives each).bind fun q first => buildMethods_gives first specs

end

def mapsSteps (specs : List (String × QuerySpec)) : List BuildStep := specs.flatMap fun entry => entry.2.steps

theorem buildMaps_gives (specs : List (String × QuerySpec)) :
    (buildMaps .standard specs).Gives (firstFault (mapsSteps specs)) fun maps => ∀ entry ∈ maps, entry.2.Each Query.WellBuilt := by
  induction specs with
  | nil => exact .pure (List.forall_mem_nil _)
  | cons spec specs ih =>
    rw [buildMaps, mapsSteps, List.flatMap_cons, firstFault_append, ← mapsSteps, ← Option.or_none (o := firstFault (mapsSteps specs))]
    exact spec.2.build_gives.bind fun q first => ih.bind fun maps others =>
      .pure (List.forall_mem_cons.mpr ⟨first, others⟩)

/-- The steps of building a document: those of the main query, and those of all maps. -/
def Document.steps (d : Document) : List BuildStep := d.query.steps ++ mapsSteps d.maps.entries

/-- A query and all maps are well built at every depth. -/
def WellBuilt (built : Query × Table Query) : Prop :=
  built.1.Each Query.WellBuilt ∧ ∀ entry ∈ built.2.entries, entry.2.Each Query.WellBuilt

theorem Document.build_gives (d : Document) : (d.build .standard).Gives (firstFault d.steps) WellBuilt := by
  rw [Document.build, Document.steps, firstFault_append, ← Option.or_none (o := firstFault (mapsSteps _))]
  refine d.query.build_gives.bind fun q each => (buildMaps_gives d.maps.entries).bind fun maps others => .pure ⟨each, ?_⟩
  exact fun entry member => others entry (mem_ascendingEntries member)

/-! ## Faults -/

/-- The constructors of functions and methods have checks of their own, for arguments that no call by name has. -/
def Refusal.isConstructors : Refusal → Bool
  | .missing | .pathButFound _ | .literalPath | .literalMapName | .literalName | .formatButFound _ => true
  | _ => false

/-- An error of building that is no constructor's own. -/
def Error.isCheck : Error → Bool
  | .unknownFunction _ | .unknownMethod _ => true
  | .invalidArguments _ refusal => !refusal.isConstructors
  | _ => false

theorem Error.isConstruction_of_isCheck {e : Error} (isCheck : e.isCheck = true) : e.isConstruction = true := by
  cases e with
  | unknownFunction _ | unknownMethod _ | invalidArguments _ _ => rfl
  | _ => cases isCheck

theorem isCheck_of_checkKinds {name : String} {params : List Param} {args : List Arg} {e : Error}
    (refused : checkKinds name params args = .error e) : e.isCheck = true := by
  induction params generalizing args with
  | nil => cases refused
  | cons param params ih =>
    cases args with
    | nil => cases refused
    | cons arg args =>
      cases arg with
      | query q =>
        rw [checkKinds] at refused
        split at refused
        next => exact ih refused
        next => cases refused; rfl
      | value v =>
        rw [checkKinds] at refused
        split at refused
        next => exact ih refused
        next => cases refused; rfl

theorem isCheck_of_checkArgs {name : String} {params : List Param} {args : List Arg} {e : Error}
    (refused : checkArgs name params args = .error e) : e.isCheck = true := by
  unfold checkArgs at refused
  split at refused
  next => cases refused; rfl
  next => exact isCheck_of_checkKinds refused

theorem isCheck_of_constructorFault {name : String} {args : List Arg} {e : Error} (fault : constructorFault name args = some e) :
    e.isCheck = true := by
  unfold constructorFault formatFault at fault
  split at fault
  next =>
    split at fault
    next =>
      split at fault
      next => cases fault
      next => cases fault; rfl
    next => cases fault
  next => cases fault

theorem isCheck_of_faultOf {checked : Except Error Unit} {e : Error} (refusals : ∀ e, checked = .error e → e.isCheck = true)
    (fault : faultOf checked = some e) : e.isCheck = true := by
  cases checked with
  | ok a => cases fault
  | error e' =>
    obtain rfl : e' = e := Option.some.inj fault
    exact refusals e' rfl

/-- No step has a fault that is a constructor's own. -/
theorem BuildStep.isCheck_fault {step : BuildStep} {e : Error} (fault : step.fault = some e) : e.isCheck = true := by
  cases step with
  | node spec =>
    rw [BuildStep.fault] at fault
    split at fault
    next => cases fault
    next => cases fault; rfl
  | function name args =>
    rw [BuildStep.fault, Registry.functionFault] at fault
    split at fault
    next => cases fault; rfl
    next =>
      rcases Option.or_eq_some_iff.mp fault with refused | ⟨-, unread⟩
      · exact isCheck_of_faultOf (fun e refused => isCheck_of_checkArgs refused) refused
      · exact isCheck_of_constructorFault unread
  | method name args =>
    rw [BuildStep.fault, Registry.methodFault] at fault
    split at fault
    next => cases fault; rfl
    next => exact isCheck_of_faultOf (fun e refused => isCheck_of_checkArgs refused) fault

end RecordQuery
