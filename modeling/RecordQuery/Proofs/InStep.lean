import RecordQuery.Proofs.Reach
import RecordQuery.Query.Eval

/-!
# Evaluations in step

Two evaluations of one query, in different worlds and contexts, compared once for all relations between
computations that are kept by what evaluation is composed of (`Eval.Congruence`). If every node that
the query reaches reads the same in both (`Query.ReadsAlike`), the evaluations are related
(`Query.eval_related`). With equality as the relation this says what an evaluation depends on; with
coarser relations it says what it leaves alone.

A relation that only looks at evaluations that succeed is not kept by attempts, and does not ask for all reads to be
the same. For such relations there is `Query.eval_carried`: reads are related instead (`Query.ReadsRelated`), and
attempts matter only where a node recovers.
-/

namespace RecordQuery

/-- A world without environment in which the clock stands still and all random words are zero. -/
def World.blank : World where
  env _ := none
  clock _ := 0
  entropy _ := 0
  key _ := ⟨⟨0, 0, 0, 0⟩, ⟨0, 0, 0, 0⟩⟩

/-! ## Within a bound -/

/-- What bodies of maps are evaluated by within a bound. -/
def Query.entering (world : World) : Nat → Query → Context → Eval Value
  | 0 => fun _ _ => Eval.unfinished
  | bound + 1 => eval world bound

theorem Query.eval_eq_evalWith (world : World) (bound : Nat) : eval world bound = evalWith world (entering world bound) := by
  cases bound <;> rfl

theorem Arg.resolve_eq_resolveWith (world : World) (bound : Nat) (arg : Arg) (ctx : Context) :
    arg.resolve world bound ctx = arg.resolveWith world (Query.entering world bound) ctx := by
  cases arg with
  | value v => rw [resolve, resolveWith]
  | query q => rw [resolve, resolveWith, Query.eval_eq_evalWith]

/-! ## Relations between computations -/

namespace Eval

/-- A relation between computations that is kept by all that evaluation is composed of where nothing recovers from an
error, except for what it draws from instances, clock and entropy. -/
structure Sequential (P : (α : Type) → Eval α → Eval α → Prop) : Prop where
  pure {α : Type} (a : α) : P α (pure a) (pure a)
  throw {α : Type} (e : Error) : P α (throw e) (throw e)
  note (level : LogLevel) (source : LogSource) (text : String) :
    P Unit (note level source text) (note level source text)
  bind {α β : Type} {x y : Eval α} {f g : α → Eval β} (first : P α x y) (next : ∀ a, P β (f a) (g a)) :
    P β (x >>= f) (y >>= g)

/-- A relation between computations that is kept by all that evaluation is composed of, except for what
it draws from instances, clock and entropy. -/
structure Congruence (P : (α : Type) → Eval α → Eval α → Prop) : Prop extends Sequential P where
  attempt {α : Type} {x y : Eval α} (related : P α x y) : P (Except Error α) (attempt x) (attempt y)

theorem Sequential.liftExcept {P : (α : Type) → Eval α → Eval α → Prop} (sequential : Sequential P) {α : Type}
    (outcome : Except Error α) : P α (liftExcept outcome) (liftExcept outcome) := by
  cases outcome with
  | ok a => exact sequential.pure a
  | error e => exact sequential.throw e

end Eval

/-! ## What a node reads -/

namespace Context

/-- What a lenient path finds: in the bound value if there is one, else in the body of the record. -/
def field (ctx : Context) (path : List String) : Except Error Value :=
  match ctx.bound with
  | some value => value.fieldPath path
  | none => do (← ctx.body).fieldPath path

/-- What a strict path finds in the body of the record. -/
def lookup (ctx : Context) (path : List String) : Except Error Value := do (← ctx.body).lookupPath path

/-- The metadata of the record under a key. -/
def metadataAt? (ctx : Context) (key : String) : Option String := ctx.record?.bind (·.metadata.find? key)

/-- The variable of a name, or the error that there is none. -/
def varNamed (ctx : Context) (name : String) : Eval Value :=
  match ctx.vars.find? name with
  | some value => pure value
  | none => throw (.undefinedVariable name)

end Context

/-- Whether an argument can give a text where a name is asked for. -/
def Arg.CanName (text : String) : Arg → Prop
  | .value v => v = .string text
  | .query _ => True

/-- What a query reads itself, apart from its parts, is the same in two worlds and contexts. -/
def Query.ReadsAlike (one other : World) (left right : Context) : Query → Prop
  | .field path => left.field path = right.field path
  | .json path => left.lookup path = right.lookup path
  | .content => left.record.map Record.content = right.record.map Record.content
  | .batchIndex => left.index = right.index
  | .batchSize => left.batch.size = right.batch.size
  | .env name => ∀ text, name.CanName text → one.envText text = other.envText text
  | .metadata => left.record?.map Record.metadata = right.record?.map Record.metadata
  | .metadataAt key => ∀ text, key.CanName text → left.metadataAt? text = right.metadataAt? text
  | .randomInt cell => one.key cell = other.key cell
  | .var name => ∀ text, name.CanName text → left.vars.find? text = right.vars.find? text
  | .apply _ map => left.maps.find? map = right.maps.find? map
  | .atRecord _ _ => left.batch.size = right.batch.size
  | _ => True

theorem Query.readsAlike_refl (world : World) (ctx : Context) (q : Query) : q.ReadsAlike world world ctx ctx := by
  unfold ReadsAlike
  split <;> first | rfl | exact fun _ _ => rfl | trivial

/-- What a query draws itself from instances, clock and entropy is related in two worlds. -/
def Query.DrawsAlike (P : (α : Type) → Eval α → Eval α → Prop) (one other : World) : Query → Prop
  | .count _ cell => P Nat (Eval.draw cell) (Eval.draw cell)
  | .randomInt cell => P Nat (Eval.draw cell) (Eval.draw cell)
  | .randomIntFrom (.value _) cell => P Nat (Eval.draw cell) (Eval.draw cell)
  | .unixTime => P Moment (Eval.now one) (Eval.now other)
  | .unixNanoTime => P Moment (Eval.now one) (Eval.now other)
  | .utcTime _ => P Moment (Eval.now one) (Eval.now other)
  | .uuid => P UInt64 (Eval.randomWord one) (Eval.randomWord other)
  | _ => True

theorem Query.drawsAlike_refl {P : (α : Type) → Eval α → Eval α → Prop} (refl : ∀ α (x : Eval α), P α x x)
    (world : World) (q : Query) : q.DrawsAlike P world world := by
  unfold DrawsAlike
  split <;> first | exact refl _ _ | trivial

/-- What a query reads itself is the same in two worlds and contexts, except that a variable that it names has to be
related only, and that a map may be missing on the left if the relation does not care how that error is met. -/
def Query.ReadsRelated (P : (α : Type) → Eval α → Eval α → Prop) (one other : World) (left right : Context) : Query → Prop
  | .var name => ∀ text, name.CanName text → P Value (left.varNamed text) (right.varNamed text)
  | .apply _ map => left.maps.find? map = right.maps.find? map ∨
      left.maps.find? map = none ∧ ∀ y, P Value (throw (.mapNotFound map)) y
  | q => q.ReadsAlike one other left right

/-- What reads the same is related. -/
theorem Query.ReadsAlike.related {P : (α : Type) → Eval α → Eval α → Prop} (sequential : Eval.Sequential P) {one other : World}
    {left right : Context} {q : Query} (reads : q.ReadsAlike one other left right) : q.ReadsRelated P one other left right := by
  cases q with
  | var name =>
    intro text named
    rw [Context.varNamed, Context.varNamed, reads text named]
    cases right.vars.find? text with
    | none => exact sequential.throw _
    | some found => exact sequential.pure _
  | apply receiver map => exact .inl reads
  | _ => exact reads

/-- A node that goes on where its receiver fails. -/
def Query.Recovers : Query → Prop
  | .catching .. | .orElse .. => True
  | _ => False

/-- Contexts stay related as the evaluation of a query moves on, and no node that it reaches reads
different things in related ones. -/
structure Query.InStep (one other : World) (maps : Table Query) (R : Context → Context → Prop) (q : Query) :
    Prop where
  ofMaps {left right : Context} (related : R left right) : left.maps = maps
  bind {left right : Context} (related : R left right) (value : Value) : R (left.bind value) (right.bind value)
  move {receiver : Query} {index : Arg} (walk : q.Reaches maps [] (.atRecord receiver index))
    {left right : Context} (related : R left right) (place : Nat) : R (left.atIndex place) (right.atIndex place)
  reads {node : Query} (walk : q.Reaches maps [] node) {left right : Context} (related : R left right) :
    node.ReadsAlike one other left right

/-- As `InStep`, where what nodes read and draw has to be related only, and the relation need not be kept by attempts
unless a node recovers. -/
structure Query.Carries (P : (α : Type) → Eval α → Eval α → Prop) (one other : World) (maps : Table Query)
    (R : Context → Context → Prop) (q : Query) : Prop where
  ofMaps {left right : Context} (related : R left right) : left.maps = maps
  bind {left right : Context} (related : R left right) (value : Value) : R (left.bind value) (right.bind value)
  move {receiver : Query} {index : Arg} (walk : q.Reaches maps [] (.atRecord receiver index))
    {left right : Context} (related : R left right) (place : Nat) : R (left.atIndex place) (right.atIndex place)
  reads {node : Query} (walk : q.Reaches maps [] node) {left right : Context} (related : R left right) :
    node.ReadsRelated P one other left right
  draws {node : Query} (walk : q.Reaches maps [] node) : node.DrawsAlike P one other
  attempt {node : Query} (walk : q.Reaches maps [] node) (recovers : node.Recovers) {α : Type} {x y : Eval α}
    (related : P α x y) : P (Except Error α) x.attempt y.attempt

theorem Query.Carries.onward {P : (α : Type) → Eval α → Eval α → Prop} {one other : World} {maps : Table Query}
    {R : Context → Context → Prop} {q node : Query} (carries : q.Carries P one other maps R) (onward : q.Reaches maps [] node) :
    node.Carries P one other maps R where
  ofMaps := carries.ofMaps
  bind := carries.bind
  move walk := carries.move (onward.trans walk)
  reads walk := carries.reads (onward.trans walk)
  draws walk := carries.draws (onward.trans walk)
  attempt walk := carries.attempt (onward.trans walk)

theorem Query.InStep.carries {P : (α : Type) → Eval α → Eval α → Prop} (congruence : Eval.Congruence P) {one other : World}
    {maps : Table Query} {R : Context → Context → Prop} {q : Query} (inStep : q.InStep one other maps R)
    (draws : q.Throughout maps (DrawsAlike P one other)) : q.Carries P one other maps R where
  ofMaps := inStep.ofMaps
  bind := inStep.bind
  move := inStep.move
  reads walk _ _ related := (inStep.reads walk related).related congruence.toSequential
  draws walk := draws _ walk
  attempt _ _ _ _ _ related := congruence.attempt related

/-- A query is in step with itself, in one context. -/
theorem Query.inStep_refl (world : World) (maps : Table Query) (q : Query) :
    q.InStep world world maps fun left right => left = right ∧ left.maps = maps := by
  refine ⟨fun related => related.2, ?_, ?_, ?_⟩
  · rintro left _ ⟨rfl, ofMaps⟩ value
    exact ⟨rfl, ofMaps⟩
  · rintro receiver index - left _ ⟨rfl, ofMaps⟩ place
    exact ⟨rfl, ofMaps⟩
  · rintro node - left _ ⟨rfl, -⟩
    exact node.readsAlike_refl world left

/-! ## Related evaluations -/

section

variable {P : (α : Type) → Eval α → Eval α → Prop} {one other : World} {left right : Context}
  {enterLeft enterRight : Query → Context → Eval Value}

theorem Arg.resolveWith_related (sequential : Eval.Sequential P) {arg : Arg}
    (parts : ∀ part ∈ arg.parts,
      P Value (part.evalWith one enterLeft left) (part.evalWith other enterRight right)) :
    P Value (arg.resolveWith one enterLeft left) (arg.resolveWith other enterRight right) := by
  cases arg with
  | value v => simpa [Arg.resolveWith] using sequential.pure v
  | query q => simpa [Arg.resolveWith] using parts q (by simp)

/-- What carries on a name has to be related for those names only that the argument can give. -/
theorem Arg.textWith_bind_related (sequential : Eval.Sequential P) {arg : Arg} {α : Type} {f g : String → Eval α}
    (parts : ∀ part ∈ arg.parts,
      P Value (part.evalWith one enterLeft left) (part.evalWith other enterRight right))
    (next : ∀ text, arg.CanName text → P α (f text) (g text)) :
    P α (arg.textWith one enterLeft left >>= f) (arg.textWith other enterRight right >>= g) := by
  cases arg with
  | value v =>
    rw [Arg.textWith, Arg.textWith]
    cases v with
    | string text => exact next text rfl
    | _ => exact sequential.throw _
  | query q =>
    rw [Arg.textWith, Arg.textWith]
    refine sequential.bind (sequential.bind (parts q (by simp)) fun value => ?_) fun text => next text trivial
    exact sequential.liftExcept _

namespace Query

theorem evalWith_field (world : World) (enter : Query → Context → Eval Value) (path : List String)
    (ctx : Context) : (Query.field path).evalWith world enter ctx = liftExcept (ctx.field path) := by
  rw [evalWith, Context.field]
  cases ctx.bound with
  | some value => rfl
  | none => cases ctx.body <;> rfl

theorem evalWith_json (world : World) (enter : Query → Context → Eval Value) (path : List String)
    (ctx : Context) : (Query.json path).evalWith world enter ctx = liftExcept (ctx.lookup path) := by
  rw [evalWith, Context.lookup]
  cases ctx.body <;> rfl

theorem evalWith_content (world : World) (enter : Query → Context → Eval Value) (ctx : Context) :
    Query.content.evalWith world enter ctx = liftExcept ((ctx.record.map Record.content).map Value.string) := by
  rw [evalWith]
  cases ctx.record <;> rfl

theorem evalWith_metadata (world : World) (enter : Query → Context → Eval Value) (ctx : Context) :
    Query.metadata.evalWith world enter ctx =
      pure (.object (((ctx.record?.map Record.metadata).getD .empty).map Value.string).entries) := by
  rw [evalWith]
  cases ctx.record? <;> rfl

/-- An evaluation of a tree is related to another one if those of the bodies of the maps are that it can come to apply. -/
theorem evalWith_carried (sequential : Eval.Sequential P) {maps : Table Query} {R : Context → Context → Prop}
    {q : Query} (carries : q.Carries P one other maps R)
    (bodies : ∀ map body, q.Applies maps map → maps.find? map = some body → ∀ left right, R left right →
      P Value (enterLeft body left) (enterRight body right))
    (related : R left right) :
    P Value (q.evalWith one enterLeft left) (q.evalWith other enterRight right) := by
  induction q using partsInduction generalizing left right with
  | step q ih =>
    have reads : q.ReadsRelated P one other left right := carries.reads .refl related
    have drawn : q.DrawsAlike P one other := carries.draws .refl
    have parts : ∀ part ∈ q.parts, ∀ left right, R left right →
        P Value (part.evalWith one enterLeft left) (part.evalWith other enterRight right) := by
      intro part member left right related
      have first : q.Reaches maps [] part := .single (.part member)
      exact ih part member (carries.onward first) (fun map body applies => bodies map body (applies.onward first)) related
    have resolved (arg : Arg) (within : ∀ part ∈ arg.parts, part ∈ q.parts) :
        P Value (arg.resolveWith one enterLeft left) (arg.resolveWith other enterRight right) :=
      Arg.resolveWith_related sequential fun part member => parts part (within part member) _ _ related
    cases q with
    | literal value => exact sequential.pure value
    | field path =>
      rw [evalWith_field, evalWith_field, show left.field path = right.field path from reads]
      exact sequential.liftExcept _
    | json path =>
      rw [evalWith_json, evalWith_json, show left.lookup path = right.lookup path from reads]
      exact sequential.liftExcept _
    | content =>
      rw [evalWith_content, evalWith_content,
        show left.record.map Record.content = right.record.map Record.content from reads]
      exact sequential.liftExcept _
    | batchIndex =>
      rw [evalWith, evalWith, show left.index = right.index from reads]
      exact sequential.pure _
    | batchSize =>
      rw [evalWith, evalWith, show left.batch.size = right.batch.size from reads]
      exact sequential.pure _
    | count label cell =>
      rw [evalWith, evalWith]
      exact sequential.bind drawn fun _ => sequential.pure _
    | env name =>
      rw [evalWith, evalWith]
      refine Arg.textWith_bind_related sequential (fun part member => parts part member _ _ related) ?_
      intro text named
      rw [reads text named]
      exact sequential.bind (sequential.liftExcept _) fun _ => sequential.pure _
    | metadata =>
      rw [evalWith_metadata, evalWith_metadata,
        show left.record?.map Record.metadata = right.record?.map Record.metadata from reads]
      exact sequential.pure _
    | metadataAt key =>
      rw [evalWith, evalWith]
      refine Arg.textWith_bind_related sequential (fun part member => parts part member _ _ related) ?_
      intro text named
      rw [show left.record?.bind _ = right.record?.bind _ from reads text named]
      cases right.record?.bind (·.metadata.find? text) with
      | none => exact sequential.throw _
      | some found => exact sequential.pure _
    | randomInt cell =>
      rw [evalWith, evalWith, show one.key cell = other.key cell from reads]
      exact sequential.bind drawn fun _ => sequential.pure _
    | randomIntFrom seed cell =>
      cases seed with
      | value v =>
        rw [evalWith, evalWith]
        exact sequential.bind drawn fun _ => sequential.pure _
      | query q =>
        rw [evalWith, evalWith]
        refine sequential.bind (parts q (by simp [Query.parts]) _ _ related) fun seed => ?_
        exact sequential.bind (sequential.note _ _ _) fun _ => sequential.pure _
    | throwing message =>
      rw [evalWith, evalWith]
      exact sequential.bind (resolved message fun _ member => member) fun message => sequential.throw _
    | unixTime | unixNanoTime =>
      rw [evalWith, evalWith]
      exact sequential.bind drawn fun moment => sequential.pure _
    | utcTime pattern =>
      rw [evalWith, evalWith]
      refine sequential.bind drawn fun moment => ?_
      exact sequential.bind (sequential.liftExcept _) fun text => sequential.pure _
    | uuid =>
      rw [evalWith, evalWith]
      exact sequential.bind drawn fun high => sequential.bind drawn fun low => sequential.pure _
    | var name =>
      rw [evalWith, evalWith]
      refine Arg.textWith_bind_related sequential (fun part member => parts part member _ _ related) ?_
      exact fun text named => reads text named
    | apply receiver map =>
      rw [evalWith, evalWith]
      refine sequential.bind (parts receiver (by simp [Query.parts]) _ _ related) fun value => ?_
      rcases reads with same | ⟨missing, forgiven⟩
      · rw [same]
        cases found : right.maps.find? map with
        | none => exact sequential.throw _
        | some body =>
          have foundLeft : left.maps.find? map = some body := same.trans found
          rw [carries.ofMaps related] at foundLeft
          exact bodies map body ⟨receiver, .refl⟩ foundLeft _ _ (carries.bind related value)
      · rw [missing]
        exact forgiven _
    | catching receiver fallback =>
      rw [evalWith, evalWith]
      have tried := carries.attempt .refl trivial (parts receiver (by simp [Query.parts]) _ _ related)
      refine sequential.bind tried fun outcome => ?_
      cases outcome with
      | ok value => exact sequential.pure value
      | error e =>
        have otherwise := resolved fallback (by simp +contextual [Query.parts])
        exact sequential.bind (sequential.note _ _ _) fun _ => otherwise
    | orElse receiver fallback =>
      rw [evalWith, evalWith]
      have tried := carries.attempt .refl trivial (parts receiver (by simp [Query.parts]) _ _ related)
      have otherwise := resolved fallback (by simp +contextual [Query.parts])
      refine sequential.bind tried fun outcome => ?_
      cases outcome with
      | ok value =>
        by_cases null : value.isNull = true
        · simpa only [null, if_true] using otherwise
        · simpa only [null, Bool.false_eq_true, if_false] using sequential.pure value
      | error e => exact sequential.bind (sequential.note _ _ _) fun _ => otherwise
    | atRecord receiver index =>
      rw [evalWith, evalWith, show left.batch.size = right.batch.size from reads]
      have indexed := resolved index (by simp +contextual [Query.parts])
      refine sequential.bind indexed fun index => ?_
      refine sequential.bind (sequential.liftExcept _) fun index => ?_
      refine sequential.bind (sequential.liftExcept _) fun place => ?_
      exact parts receiver (by simp [Query.parts]) _ _ (carries.move .refl related place)
    | get receiver path =>
      rw [evalWith, evalWith]
      refine sequential.bind (parts receiver (by simp [Query.parts]) _ _ related) fun value => ?_
      exact sequential.liftExcept _
    | inCase receiver letters =>
      rw [evalWith, evalWith]
      refine sequential.bind (parts receiver (by simp [Query.parts]) _ _ related) fun value => ?_
      exact sequential.bind (sequential.liftExcept _) fun text => sequential.pure _

/-- Evaluations of one tree in step are related if those of the bodies of maps are that it reaches. -/
theorem evalWith_related (congruence : Eval.Congruence P) {maps : Table Query} {R : Context → Context → Prop}
    {q : Query} (inStep : q.InStep one other maps R) (draws : q.Throughout maps (DrawsAlike P one other))
    (bodies : ∀ body, q.Reaches maps [] body → ∀ left right, R left right →
      P Value (enterLeft body left) (enterRight body right))
    (related : R left right) :
    P Value (q.evalWith one enterLeft left) (q.evalWith other enterRight right) :=
  evalWith_carried congruence.toSequential (inStep.carries congruence draws)
    (fun _ body applies found => bodies body (applies.reaches_body found)) related

/-- An evaluation of a query is related to another one within every nesting. -/
theorem eval_carried (sequential : Eval.Sequential P) (unfinished : P Value Eval.unfinished Eval.unfinished)
    {maps : Table Query} {R : Context → Context → Prop} {q : Query} (carries : q.Carries P one other maps R)
    (bound : Nat) (related : R left right) : P Value (q.eval one bound left) (q.eval other bound right) := by
  induction bound generalizing q left right with
  | zero =>
    exact evalWith_carried sequential carries (fun _ _ _ _ _ _ _ => unfinished) related
  | succ bound within =>
    refine evalWith_carried sequential carries (fun map body applies found left right related => ?_) related
    exact within (carries.onward (applies.reaches_body found)) related

/-- Evaluations of a query in step are related, within every nesting. -/
theorem eval_related (congruence : Eval.Congruence P)
    (unfinished : P Value Eval.unfinished Eval.unfinished) {maps : Table Query} {R : Context → Context → Prop}
    {q : Query} (inStep : q.InStep one other maps R) (draws : q.Throughout maps (DrawsAlike P one other))
    (bound : Nat) (related : R left right) : P Value (q.eval one bound left) (q.eval other bound right) :=
  eval_carried congruence.toSequential unfinished (inStep.carries congruence draws) bound related

end Query

end

end RecordQuery
