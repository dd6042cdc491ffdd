import RecordQuery.Proofs.Alike
import RecordQuery.Proofs.InStep

/-!
# What evaluations end in

If the values that a query finds, in literals, variables, bound values and bodies, all have a property that paths
keep, so has every value that it ends in; and but for formats of times that cannot be written, every error that it
ends in is one of evaluating (`Query.eval_ensures`).
-/

namespace RecordQuery

/-! ## Errors of evaluating -/

/-- An outcome is no error of building. -/
def Runtime {α : Type} (outcome : Except Error α) : Prop := ∀ e, outcome = .error e → e.isConstruction = false

namespace Runtime

variable {α β : Type}

theorem ok (a : α) : Runtime (.ok a) := fun _ same => by cases same

theorem error {e : Error} (runtime : e.isConstruction = false) : Runtime (α := α) (.error e) := by
  rintro _ ⟨⟩
  exact runtime

theorem mismatch (expected : String) (v : Value) : Runtime (α := α) (.error (.mismatch expected v)) := error rfl

theorem bind {x : Except Error α} {f : α → Except Error β} (first : Runtime x) (next : ∀ a, Runtime (f a)) :
    Runtime (x >>= f) := by
  cases x with
  | ok a => exact next a
  | error e => exact error (first e rfl)

theorem map {x : Except Error α} (f : α → β) (runtime : Runtime x) : Runtime (x.map f) := by
  cases x with
  | ok a => exact ok _
  | error e => exact error (runtime e rfl)

end Runtime

namespace Value

theorem runtime_index (v : Value) (i : Int64) : Runtime (v.index i) := by
  unfold index
  split
  · exact .ok _
  · exact .ok _
  · exact .mismatch _ _

mutual

theorem runtime_field (key : String) : (v : Value) → Runtime (v.field key)
  | .null => .ok _
  | .object _ => .ok _
  | .array items => by
    rw [field]
    split
    · exact runtime_index _ _
    · exact (runtime_fieldItems key items).map _
  | .bool _ | .int _ | .float _ | .string _ => .mismatch _ _

theorem runtime_fieldItems (key : String) : (items : List Value) → Runtime (fieldItems key items)
  | [] => .ok _
  | item :: items => by
    rw [fieldItems]
    exact (runtime_field key item).bind fun _ => (runtime_fieldItems key items).bind fun _ => .ok _

end

theorem runtime_fieldPath (v : Value) (path : List String) : Runtime (v.fieldPath path) := by
  rw [fieldPath]
  induction path generalizing v with
  | nil => exact .ok _
  | cons key path ih =>
    rw [List.foldlM_cons]
    exact (runtime_field key v).bind ih

theorem runtime_lookupFrom (path : String) (v : Value) (keys : List String) : Runtime (v.lookupFrom path keys) := by
  induction keys generalizing v with
  | nil => exact .ok _
  | cons key keys ih =>
    unfold lookupFrom
    split
    · split
      · exact ih _
      · exact .error rfl
    · split
      · exact ih _
      · exact .error rfl
    · exact .mismatch _ _

theorem runtime_parse (text : Bytes) : Runtime (Value.parse text) := by
  unfold parse
  split
  · exact .ok _
  · exact .error rfl

end Value

namespace Context

theorem runtime_record (ctx : Context) : Runtime ctx.record := by
  unfold record
  split
  · exact .ok _
  · exact .error rfl

theorem runtime_body (ctx : Context) : Runtime ctx.body := ctx.runtime_record.bind fun _ => Value.runtime_parse _

theorem runtime_field (ctx : Context) (path : List String) : Runtime (ctx.field path) := by
  unfold field
  split
  · exact Value.runtime_fieldPath _ _
  · exact ctx.runtime_body.bind fun _ => Value.runtime_fieldPath _ _

theorem runtime_lookup (ctx : Context) (path : List String) : Runtime (ctx.lookup path) :=
  ctx.runtime_body.bind fun _ => Value.runtime_lookupFrom _ _ _

theorem runtime_resolveIndex (index : Int64) (length : Nat) : Runtime (resolveIndex index length) := by
  unfold resolveIndex
  generalize (if index < 0 then Int64.ofNat length + index else index) = place
  dsimp only
  split
  · exact .error rfl
  · exact .ok _

end Context

theorem World.runtime_envText (world : World) (name : String) : Runtime (world.envText name) := by
  unfold envText
  split
  · exact .ok _
  · exact .error rfl

theorem Query.runtime_expectString (v : Value) : Runtime (expectString v) := by
  unfold expectString
  split
  · exact .ok _
  · exact .mismatch _ _

theorem Query.runtime_expectInt (v : Value) : Runtime (expectInt v) := by
  unfold expectInt
  split
  · exact .ok _
  · exact .mismatch _ _

/-! ## Outcomes of computations -/

namespace Eval

variable {α β : Type} {V : α → Prop} {E : Error → Prop} {W : β → Prop}

/-- An outcome is a value of one kind or an error of one kind. -/
def Within (V : α → Prop) (E : Error → Prop) : Except Error α → Prop
  | .ok a => V a
  | .error e => E e

/-- From every store a computation that ends does so within values and errors of a kind. -/
def Ensures (V : α → Prop) (E : Error → Prop) (x : Eval α) : Prop :=
  ∀ s outcome t, x.run.run s = some (outcome, t) → Within V E outcome

namespace Ensures

theorem pure {a : α} (ofValue : V a) : Ensures V E (Pure.pure a) := by
  intro s outcome t ended
  cases ended
  exact ofValue

theorem throw {e : Error} (ofError : E e) : Ensures V E (MonadExcept.throw e) := by
  intro s outcome t ended
  cases ended
  exact ofError

theorem lift {outcome : Except Error α} (within : Within V E outcome) : Ensures V E (liftExcept outcome) := by
  cases outcome with
  | ok a => exact pure within
  | error e => exact throw within

theorem bind {x : Eval α} {f : α → Eval β} (first : x.Ensures V E) (next : ∀ a, V a → (f a).Ensures W E) :
    (x >>= f).Ensures W E := by
  intro s outcome t ended
  rw [run_bind] at ended
  obtain ⟨⟨before, after⟩, ran, ended⟩ := Option.bind_eq_some_iff.mp ended
  have within := first s before after ran
  cases before with
  | ok a => exact next a within after outcome t ended
  | error e =>
    cases ended
    exact within

theorem attempt {x : Eval α} (ensures : x.Ensures V E) : (Eval.attempt x).Ensures (Within V E) E := by
  intro s outcome t ended
  rw [run_attempt] at ended
  obtain ⟨⟨before, after⟩, ran, ended⟩ := Option.bind_eq_some_iff.mp ended
  cases ended
  exact ensures s before after ran

theorem imp {x : Eval α} {W : α → Prop} (ensures : x.Ensures V E) (weaker : ∀ a, V a → W a) : x.Ensures W E := by
  intro s outcome t ended
  have within := ensures s outcome t ended
  cases outcome with
  | ok a => exact weaker a within
  | error e => exact within

theorem note (level : LogLevel) (source : LogSource) (text : String) :
    (Eval.note level source text).Ensures (fun _ => True) E := by
  intro s outcome t ended
  cases ended
  trivial

theorem draw (cell : Nat) : (Eval.draw cell).Ensures (fun _ => True) E := by
  intro s outcome t ended
  cases ended
  trivial

theorem now (world : World) : (Eval.now world).Ensures (fun _ => True) E := by
  intro s outcome t ended
  cases ended
  trivial

theorem randomWord (world : World) : (Eval.randomWord world).Ensures (fun _ => True) E := by
  intro s outcome t ended
  cases ended
  trivial

theorem unfinished : (Eval.unfinished : Eval α).Ensures V E := fun _ _ _ ended => by cases ended

end Ensures

end Eval

/-! ## Outcomes of queries -/

/-- A property of values that all have that evaluation makes itself, and that paths keep. -/
structure Value.Closed (V : Value → Prop) : Prop where
  int : ∀ i, V (.int i)
  string : ∀ s, V (.string s)
  metadata : ∀ texts : Table String, V (.object (texts.map Value.string).entries)
  parse : ∀ text v, Value.parse text = .ok v → V v
  fieldPath : ∀ v path found, V v → v.fieldPath path = .ok found → V found
  lookupPath : ∀ v path found, V v → v.lookupPath path = .ok found → V found

/-- A context with some maps in which all variables and the bound value have a property. -/
structure Context.Holds (V : Value → Prop) (maps : Table Query) (ctx : Context) : Prop where
  ofMaps : ctx.maps = maps
  vars : ∀ name v, ctx.vars.find? name = some v → V v
  bound : ∀ v, ctx.bound = some v → V v

/-- What stands in a query itself, apart from its parts, is of the kinds of values and errors. -/
def Query.Holds (V : Value → Prop) (E : Error → Prop) : Query → Prop
  | .literal v => V v
  | .catching _ (.value v) => V v
  | .orElse _ (.value v) => V v
  | .utcTime pattern => ∀ moment e, Query.utcText pattern moment = .error e → E e
  | _ => True

section

variable {V : Value → Prop} {E : Error → Prop} {world : World} {enter : Query → Context → Eval Value} {ctx : Context}

open Eval (Ensures Within)

theorem Runtime.within {α : Type} {outcome : Except Error α} (runtime : Runtime outcome)
    (ofRuntime : ∀ e, e.isConstruction = false → E e) {W : α → Prop} (values : ∀ a, outcome = .ok a → W a) : Within W E outcome := by
  cases outcome with
  | ok a => exact values a rfl
  | error e => exact ofRuntime e (runtime e rfl)

theorem Context.Holds.bind {maps : Table Query} (holds : ctx.Holds V maps) {v : Value} (ofValue : V v) :
    (ctx.bind v).Holds V maps := ⟨holds.ofMaps, holds.vars, fun _ same => by cases same; exact ofValue⟩

theorem Context.Holds.atIndex {maps : Table Query} (holds : ctx.Holds V maps) (place : Nat) :
    (ctx.atIndex place).Holds V maps := ⟨holds.ofMaps, holds.vars, holds.bound⟩

theorem Context.body_holds (closed : Value.Closed V) {body : Value} (read : ctx.body = .ok body) : V body := by
  unfold Context.body at read
  cases ofRecord : ctx.record with
  | error e =>
    rw [ofRecord] at read
    cases read
  | ok record =>
    rw [ofRecord] at read
    exact closed.parse _ _ read

theorem Context.Holds.field {maps : Table Query} (holds : ctx.Holds V maps) (closed : Value.Closed V) {path : List String}
    {v : Value} (found : ctx.field path = .ok v) : V v := by
  unfold Context.field at found
  split at found
  next value bound => exact closed.fieldPath value path v (holds.bound value bound) found
  next =>
    cases read : ctx.body with
    | error e =>
      rw [read] at found
      cases found
    | ok body =>
      rw [read] at found
      exact closed.fieldPath body path v (Context.body_holds closed read) found

theorem Context.lookup_holds (closed : Value.Closed V) {path : List String} {v : Value} (found : ctx.lookup path = .ok v) :
    V v := by
  unfold Context.lookup at found
  cases read : ctx.body with
  | error e =>
    rw [read] at found
    cases found
  | ok body =>
    rw [read] at found
    exact closed.lookupPath body path v (Context.body_holds closed read) found

theorem Arg.resolveWith_ensures {arg : Arg} (literal : ∀ v, arg = .value v → V v)
    (parts : ∀ part ∈ arg.parts, (part.evalWith world enter ctx).Ensures V E) : (arg.resolveWith world enter ctx).Ensures V E := by
  cases arg with
  | value v =>
    rw [Arg.resolveWith]
    exact .pure (literal v rfl)
  | query q =>
    rw [Arg.resolveWith]
    exact parts q (by simp)

theorem Arg.textWith_ensures {arg : Arg} (ofRuntime : ∀ e, e.isConstruction = false → E e)
    (parts : ∀ part ∈ arg.parts, (part.evalWith world enter ctx).Ensures V E) :
    (arg.textWith world enter ctx).Ensures (fun _ => True) E := by
  have text (v : Value) : Within (fun _ => True) E (Query.expectString v) :=
    (Query.runtime_expectString v).within ofRuntime fun _ _ => trivial
  cases arg with
  | value v =>
    rw [Arg.textWith]
    exact .lift (text v)
  | query q =>
    rw [Arg.textWith]
    exact (parts q (by simp)).bind fun v _ => .lift (text v)

/-- The value of an argument that is only looked at: it may be any. -/
theorem Arg.resolveWith_ensures_any {arg : Arg} (parts : ∀ part ∈ arg.parts, (part.evalWith world enter ctx).Ensures V E) :
    (arg.resolveWith world enter ctx).Ensures (fun _ => True) E := by
  cases arg with
  | value v =>
    rw [Arg.resolveWith]
    exact .pure trivial
  | query q =>
    rw [Arg.resolveWith]
    exact (parts q (by simp)).imp fun _ _ => trivial

namespace Query

/-- Evaluations of one tree end within the kinds if those of the bodies of maps do that it reaches. -/
theorem evalWith_ensures (closed : Value.Closed V) (ofRuntime : ∀ e, e.isConstruction = false → E e) {maps : Table Query}
    {q : Query} (throughout : q.Throughout maps (Query.Holds V E))
    (bodies : ∀ body, q.Reaches maps [] body → ∀ ctx, ctx.Holds V maps → (enter body ctx).Ensures V E)
    (holds : ctx.Holds V maps) : (q.evalWith world enter ctx).Ensures V E := by
  -- Induction on the tree for all contexts that hold, since `apply` and `from` move on to others.
  induction q using partsInduction generalizing ctx with
  | step q ih =>
    have here : q.Holds V E := throughout.here
    have parts : ∀ part ∈ q.parts, ∀ ctx, ctx.Holds V maps → (part.evalWith world enter ctx).Ensures V E := by
      intro part member ctx holds
      have first : q.Reaches maps [] part := .single (.part member)
      exact ih part member (throughout.part member) (fun body walk => bodies body (first.trans walk)) holds
    have named (name : Arg) (within : ∀ part ∈ name.parts, part ∈ q.parts) :
        (name.textWith world enter ctx).Ensures (fun _ => True) E :=
      Arg.textWith_ensures ofRuntime fun part member => parts part (within part member) ctx holds
    have resolved (arg : Arg) (within : ∀ part ∈ arg.parts, part ∈ q.parts) :
        (arg.resolveWith world enter ctx).Ensures (fun _ => True) E :=
      Arg.resolveWith_ensures_any fun part member => parts part (within part member) ctx holds
    have otherwise (fallback : Arg) (literal : ∀ v, fallback = .value v → V v)
        (within : ∀ part ∈ fallback.parts, part ∈ q.parts) : (fallback.resolveWith world enter ctx).Ensures V E :=
      Arg.resolveWith_ensures literal fun part member => parts part (within part member) ctx holds
    cases q with
    | literal value =>
      rw [evalWith]
      exact .pure here
    | field path =>
      rw [evalWith_field]
      exact .lift ((ctx.runtime_field path).within ofRuntime fun _ found => holds.field closed found)
    | json path =>
      rw [evalWith_json]
      exact .lift ((ctx.runtime_lookup path).within ofRuntime fun _ found => Context.lookup_holds closed found)
    | content =>
      rw [evalWith_content]
      refine .lift (((ctx.runtime_record.map _).map _).within ofRuntime fun v same => ?_)
      cases ofRecord : ctx.record with
      | error e =>
        rw [ofRecord] at same
        cases same
      | ok record =>
        rw [ofRecord] at same
        cases same
        exact closed.string _
    | batchIndex | batchSize =>
      rw [evalWith]
      exact .pure (closed.int _)
    | count _ cell | randomInt cell =>
      rw [evalWith]
      exact (Ensures.draw cell).bind fun _ _ => .pure (closed.int _)
    | env name =>
      rw [evalWith]
      refine (named name fun _ member => member).bind fun text _ => ?_
      have found := (world.runtime_envText text).within (W := fun _ => True) ofRuntime fun _ _ => trivial
      exact (Ensures.lift found).bind fun _ _ => .pure (closed.string _)
    | metadata =>
      rw [evalWith_metadata]
      exact .pure (closed.metadata _)
    | metadataAt key =>
      rw [evalWith]
      refine (named key fun _ member => member).bind fun text _ => ?_
      cases ctx.record?.bind (·.metadata.find? text) with
      | none => exact .throw (ofRuntime _ rfl)
      | some found => exact .pure (closed.string _)
    | randomIntFrom seed cell =>
      cases seed with
      | value v =>
        rw [evalWith]
        exact (Ensures.draw cell).bind fun _ _ => .pure (closed.int _)
      | query q =>
        rw [evalWith]
        refine (parts q (by simp [Query.parts]) ctx holds).bind fun seed _ => ?_
        exact (Ensures.note _ _ _).bind fun _ _ => .pure (closed.int _)
    | throwing message =>
      rw [evalWith]
      exact (resolved message fun _ member => member).bind fun message _ => .throw (ofRuntime _ rfl)
    | unixTime | unixNanoTime =>
      rw [evalWith]
      exact (Ensures.now world).bind fun _ _ => .pure (closed.int _)
    | utcTime pattern =>
      rw [evalWith]
      refine (Ensures.now world).bind fun moment _ => ?_
      have written : Within (fun _ => True) E (utcText pattern moment) := by
        cases outcome : utcText pattern moment with
        | ok text => trivial
        | error e => exact here moment e outcome
      exact (Ensures.lift written).bind fun _ _ => .pure (closed.string _)
    | uuid =>
      rw [evalWith]
      exact (Ensures.randomWord world).bind fun _ _ => (Ensures.randomWord world).bind fun _ _ => .pure (closed.string _)
    | var name =>
      rw [evalWith]
      refine (named name fun _ member => member).bind fun text _ => ?_
      cases found : ctx.vars.find? text with
      | none => exact .throw (ofRuntime _ rfl)
      | some value => exact .pure (holds.vars text value found)
    | apply receiver map =>
      rw [evalWith]
      refine (parts receiver (by simp [Query.parts]) ctx holds).bind fun value ofValue => ?_
      cases found : ctx.maps.find? map with
      | none => exact .throw (ofRuntime _ rfl)
      | some body =>
        rw [holds.ofMaps] at found
        exact bodies body (.single (.body (by simp) found)) _ (holds.bind ofValue)
    | catching receiver fallback =>
      rw [evalWith]
      refine (parts receiver (by simp [Query.parts]) ctx holds).attempt.bind fun outcome within => ?_
      cases outcome with
      | ok value => exact .pure within
      | error e =>
        refine (Ensures.note _ _ _).bind fun _ _ => otherwise fallback ?_ (by simp +contextual [Query.parts])
        rintro v rfl
        exact here
    | orElse receiver fallback =>
      rw [evalWith]
      have replaced : (fallback.resolveWith world enter ctx).Ensures V E := by
        refine otherwise fallback ?_ (by simp +contextual [Query.parts])
        rintro v rfl
        exact here
      refine (parts receiver (by simp [Query.parts]) ctx holds).attempt.bind fun outcome within => ?_
      cases outcome with
      | ok value =>
        dsimp only
        split
        · exact replaced
        · exact .pure within
      | error e => exact (Ensures.note _ _ _).bind fun _ _ => replaced
    | atRecord receiver index =>
      rw [evalWith]
      refine (resolved index (by simp +contextual [Query.parts])).bind fun index _ => ?_
      have number := (runtime_expectInt index).within (W := fun _ => True) ofRuntime fun _ _ => trivial
      refine (Ensures.lift number).bind fun index _ => ?_
      have place := (Context.runtime_resolveIndex index ctx.batch.size).within (W := fun _ => True) ofRuntime fun _ _ => trivial
      refine (Ensures.lift place).bind fun place _ => ?_
      exact parts receiver (by simp [Query.parts]) _ (holds.atIndex place)
    | get receiver path =>
      rw [evalWith]
      refine (parts receiver (by simp [Query.parts]) ctx holds).bind fun value ofValue => ?_
      exact .lift ((value.runtime_fieldPath path).within ofRuntime fun found same => closed.fieldPath value path found ofValue same)
    | inCase receiver letters =>
      rw [evalWith]
      refine (parts receiver (by simp [Query.parts]) ctx holds).bind fun value _ => ?_
      have text := (runtime_expectString value).within (W := fun _ => True) ofRuntime fun _ _ => trivial
      exact (Ensures.lift text).bind fun _ _ => .pure (closed.string _)

theorem eval_ensures (closed : Value.Closed V) (ofRuntime : ∀ e, e.isConstruction = false → E e) {maps : Table Query}
    {q : Query} (throughout : q.Throughout maps (Query.Holds V E)) (bound : Nat) (holds : ctx.Holds V maps) :
    (q.eval world bound ctx).Ensures V E := by
  induction bound generalizing q ctx with
  | zero => exact evalWith_ensures closed ofRuntime throughout (fun _ _ _ _ => .unfinished) holds
  | succ bound within =>
    refine evalWith_ensures closed ofRuntime throughout (fun body walk ctx holds => ?_) holds
    exact within (fun node onward => throughout node (walk.trans onward)) holds

end Query

end

end RecordQuery
