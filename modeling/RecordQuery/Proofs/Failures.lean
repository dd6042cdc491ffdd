import RecordQuery.Proofs.Chains

/-!
# Failures under a chain of methods

A method that does not recover lets the failure of its receiver through. Under a chain of such methods, of any length, a
query that fails at every record of a batch is evaluated once, at the record that the chain moves to, and its failure is
the end of the whole chain: no method adds an error of its own and no map is entered (`Query.chain_fails`). What a chain
evaluates is listed by a second evaluation that comes to the same ends (`Query.watchedChain_erases`).
-/

namespace RecordQuery

/-- A method that does not recover from a failure of its receiver. The index of a record is a literal one. -/
inductive Passing where
  | apply (map : String)
  | atRecord (index : Int64)
  | get (path : List String)
  | inCase (letters : LetterCase)

namespace Passing

def method : Passing → Method
  | .apply map => .apply map
  | .atRecord index => .atRecord (.value (.int index))
  | .get path => .get path
  | .inCase letters => .inCase letters

/-- The record at which the method evaluates its receiver, in a batch of some length. -/
def place (length : Nat) : Passing → Nat → Nat
  | .atRecord i, index => (addressed? length i.toInt).getD index
  | _, index => index

/-- Every record that the methods name is one of a batch of some length. -/
def Inside (length : Nat) (methods : List Passing) : Prop :=
  ∀ i : Int64, .atRecord i ∈ methods → -(length : Int) ≤ i.toInt ∧ i.toInt < length

theorem inside_cons {length : Nat} {p : Passing} {methods : List Passing} :
    Inside length (p :: methods) ↔ Inside length [p] ∧ Inside length methods := by
  simp only [Inside, List.mem_cons, List.not_mem_nil, or_false]
  constructor
  · intro inside
    exact ⟨fun i first => inside i (.inl first), fun i later => inside i (.inr later)⟩
  · rintro ⟨first, later⟩ i (isFirst | isLater)
    · exact first i isFirst
    · exact later i isLater

/-! ## Methods on computations -/

section

variable {m : Type → Type} [Monad m] [MonadExceptOf Error m] (enter : Query → Context → m Value)

/-- The method on a computation in place of a query. -/
def after : Passing → (Context → m Value) → Context → m Value
  | .apply map, receiver, ctx => do
    let value ← receiver ctx
    match ctx.maps.find? map with
    | some body => enter body (ctx.bind value)
    | none => throw (.mapNotFound map)
  | .atRecord index, receiver, ctx => do
    let place ← liftExcept (Context.resolveIndex index ctx.batch.size)
    receiver (ctx.atIndex place)
  | .get path, receiver, ctx => do
    let value ← receiver ctx
    liftExcept (value.fieldPath path)
  | .inCase letters, receiver, ctx => do
    let value ← receiver ctx
    let text ← liftExcept (Query.expectString value)
    pure (.string (letters.change text))

/-- The methods on a computation, each on the result of those before it. -/
def chainAfter (receiver : Context → m Value) (methods : List Passing) : Context → m Value :=
  methods.foldl (fun receiver method => method.after enter receiver) receiver

@[simp] theorem chainAfter_cons (receiver : Context → m Value) (method : Passing) (methods : List Passing) :
    chainAfter enter receiver (method :: methods) = chainAfter enter (method.after enter receiver) methods := rfl

end

theorem evalWith_method_on (world : World) (enter : Query → Context → Eval Value) (p : Passing) (f : Query) :
    (p.method.on f).evalWith world enter = p.after enter (f.evalWith world enter) := by
  funext ctx
  cases p with
  | apply map => rw [method, Method.on, Query.evalWith]; rfl
  | atRecord index => rw [method, Method.on, Query.evalWith, Arg.resolveWith]; rfl
  | get path => rw [method, Method.on, Query.evalWith]; rfl
  | inCase letters => rw [method, Method.on, Query.evalWith]; rfl

theorem evalWith_chain (world : World) (enter : Query → Context → Eval Value) (methods : List Passing) (f : Query) :
    (f.chain (methods.map method)).evalWith world enter = chainAfter enter (f.evalWith world enter) methods := by
  induction methods generalizing f with
  | nil => rfl
  | cons p methods ih => rw [List.map_cons, Query.chain_cons, ih, evalWith_method_on, chainAfter_cons]

end Passing

/-! ## Watching a chain -/

/-- What a chain evaluates: its receiver at a record, or the body of a map. -/
inductive Visit where
  | receiver (index : Nat)
  | body (query : Query)

/-- A computation that also lists visits. -/
abbrev Watched := ExceptT Error (StateT (Store × List Visit) Option)

namespace Watched

variable {α β : Type}

/-- A computation that is listed as a visit. -/
def visiting (visit : Visit) (x : Eval α) : Watched α := ExceptT.mk fun before =>
  (x.run.run before.1).map fun ended => (ended.1, ended.2, before.2 ++ [visit])

theorem run_bind_of_failure {x : Watched α} {e : Error} {before after : Store × List Visit}
    (failed : x.run.run before = some (.error e, after)) (f : α → Watched β) :
    (x >>= f).run.run before = some (.error e, after) := by
  rw [run_bind, failed]
  rfl

/-- Without its list, the one computation is the other. -/
def Erases (x : Watched α) (y : Eval α) : Prop :=
  ∀ s visits, (x.run.run (s, visits)).map (fun ended => (ended.1, ended.2.1)) = y.run.run s

namespace Erases

theorem pure (a : α) : Erases (Pure.pure a) (Pure.pure a) := fun _ _ => rfl

theorem throw (e : Error) : Erases (α := α) (MonadExcept.throw e) (MonadExcept.throw e) := fun _ _ => rfl

theorem except (outcome : Except Error α) : Erases (liftExcept outcome) (liftExcept outcome) := by
  cases outcome with
  | ok a => exact pure a
  | error e => exact throw e

theorem visiting (visit : Visit) (x : Eval α) : Erases (Watched.visiting visit x) x := by
  intro s visits
  show ((x.run.run s).map _).map _ = x.run.run s
  rw [Option.map_map]
  exact Option.map_id'

theorem bind {x : Watched α} {y : Eval α} {f : α → Watched β} {g : α → Eval β} (first : Erases x y)
    (next : ∀ a, Erases (f a) (g a)) : Erases (x >>= f) (y >>= g) := by
  intro s visits
  rw [run_bind, run_bind, ← first s visits]
  cases x.run.run (s, visits) with
  | none => rfl
  | some ended =>
    obtain ⟨outcome, t, listed⟩ := ended
    cases outcome with
    | ok a => exact next a t listed
    | error e => rfl

end Erases

end Watched

open Watched (Erases)

section

variable {enter : Query → Context → Watched Value} {enter' : Query → Context → Eval Value}
  (entersSame : ∀ body ctx, Erases (enter body ctx) (enter' body ctx))
include entersSame

theorem Passing.after_erases (p : Passing) {receiver : Context → Watched Value} {receiver' : Context → Eval Value}
    (same : ∀ ctx, Erases (receiver ctx) (receiver' ctx)) (ctx : Context) :
    Erases (p.after enter receiver ctx) (p.after enter' receiver' ctx) := by
  cases p with
  | apply map =>
    refine (same ctx).bind fun value => ?_
    cases ctx.maps.find? map with
    | some body => exact entersSame body _
    | none => exact .throw _
  | atRecord index => exact (Erases.except _).bind fun place => same _
  | get path => exact (same ctx).bind fun value => .except _
  | inCase letters => exact (same ctx).bind fun value => (Erases.except _).bind fun text => .pure _

theorem Passing.chainAfter_erases (methods : List Passing) {receiver : Context → Watched Value}
    {receiver' : Context → Eval Value} (same : ∀ ctx, Erases (receiver ctx) (receiver' ctx)) (ctx : Context) :
    Erases (chainAfter enter receiver methods ctx) (chainAfter enter' receiver' methods ctx) := by
  induction methods generalizing receiver receiver' with
  | nil => exact same ctx
  | cons p methods ih => exact ih (p.after_erases entersSame same)

end

/-- Evaluates a query with methods on it, and lists the evaluations of the query and of the bodies that the methods
enter. -/
def Query.watchedChain (world : World) (bound : Nat) (f : Query) (methods : List Passing) : Context → Watched Value :=
  Passing.chainAfter (fun body ctx => .visiting (.body body) (entering world bound body ctx))
    (fun ctx => .visiting (.receiver ctx.index) (f.eval world bound ctx)) methods

theorem Query.watchedChain_erases (world : World) (bound : Nat) (f : Query) (methods : List Passing) (ctx : Context) :
    Erases (f.watchedChain world bound methods ctx) ((f.chain (methods.map Passing.method)).eval world bound ctx) := by
  rw [eval_eq_evalWith, Passing.evalWith_chain, ← eval_eq_evalWith]
  exact Passing.chainAfter_erases (fun _ _ => .visiting _ _) methods (fun _ => .visiting _ _) ctx

/-! ## Failures -/

namespace Passing

variable {length : Nat} {p : Passing} {methods : List Passing} {index : Nat}

theorem place_lt (within : index < length) : p.place length index < length := by
  cases p with
  | atRecord i =>
    show (addressed? length i.toInt).getD index < length
    cases found : addressed? length i.toInt with
    | some there => exact lt_of_addressed? found
    | none => exact within
  | _ => exact within

theorem foldr_place_lt (methods : List Passing) (within : index < length) : methods.foldr (place length) index < length := by
  induction methods with
  | nil => exact within
  | cons p methods ih => exact place_lt ih

section

variable {enter : Query → Context → Watched Value} {receiver : Context → Watched Value} {ctx : Context}
  (few : ctx.batch.size < 2 ^ 63) {e : Error} {before ended : Store × List Visit}
include few

/-- A method ends with the failure of its receiver at the place where it evaluates it. -/
theorem run_after_of_failure (inside : Inside ctx.batch.size [p])
    (failed : (receiver (ctx.atIndex (p.place ctx.batch.size index))).run.run before = some (.error e, ended)) :
    (p.after enter receiver (ctx.atIndex index)).run.run before = some (.error e, ended) := by
  cases p with
  | apply map => exact Watched.run_bind_of_failure failed _
  | atRecord i =>
    obtain ⟨there, found⟩ := addressed?_of_inside (inside i List.mem_cons_self)
    have resolved : Context.resolveIndex i ctx.batch.size = .ok there := by
      rw [Context.resolveIndex_eq few, found]
    rw [place, found] at failed
    rw [after, show (ctx.atIndex index).batch = ctx.batch from rfl, resolved]
    exact failed
  | get path => exact Watched.run_bind_of_failure failed _
  | inCase letters => exact Watched.run_bind_of_failure failed _

/-- Methods end with the failure of their receiver at the place that they move to together. -/
theorem run_chainAfter_of_failure (inside : Inside ctx.batch.size methods)
    (failed : (receiver (ctx.atIndex (methods.foldr (place ctx.batch.size) index))).run.run before = some (.error e, ended)) :
    (chainAfter enter receiver methods (ctx.atIndex index)).run.run before = some (.error e, ended) := by
  induction methods generalizing receiver with
  | nil => exact failed
  | cons p methods ih =>
    obtain ⟨first, others⟩ := inside_cons.mp inside
    exact ih others (run_after_of_failure few first failed)

end

end Passing

namespace Query

/-- A query comes to one end at most. -/
theorem Ends.eq {world : World} {q : Query} {ctx : Context} {s : Store} {ended ended' : Except Error Value × Store}
    (ends : q.Ends world ctx s ended) (ends' : q.Ends world ctx s ended') : ended = ended' := by
  obtain ⟨bound, ran⟩ := ends
  obtain ⟨bound', ran'⟩ := ends'
  have within := q.eval_extends world (Nat.le_max_left bound bound') ctx s ended ran
  rw [q.eval_extends world (Nat.le_max_right bound bound') ctx s ended' ran'] at within
  exact (Option.some.inj within).symm

/-- From a store, a query fails with one error at every record of a batch. Then it does so under any chain of methods that
do not recover and that move to records of the batch only: at every record the chain comes to one end, which is that of the
query at the record that the methods move to, and it evaluates the query once, there, and no body of a map. No batch has
2 ^ 63 records: memory does not hold them. -/
theorem chain_fails (world : World) (f : Query) (e : Error) (ctx : Context) (few : ctx.batch.size < 2 ^ 63) (s : Store)
    (fails : ∀ index < ctx.batch.size, ∃ t, f.Ends world (ctx.atIndex index) s (.error e, t))
    (methods : List Passing) (inside : Passing.Inside ctx.batch.size methods) :
    ∀ index < ctx.batch.size, ∃ place t, place = methods.foldr (Passing.place ctx.batch.size) index ∧
      place < ctx.batch.size ∧ f.Ends world (ctx.atIndex place) s (.error e, t) ∧
      (∀ ended, (f.chain (methods.map Passing.method)).Ends world (ctx.atIndex index) s ended ↔ ended = (.error e, t)) ∧
      ∃ bound, (f.watchedChain world bound methods (ctx.atIndex index)).run.run (s, []) =
        some (.error e, (t, [.receiver place])) := by
  intro index within
  let place := methods.foldr (Passing.place ctx.batch.size) index
  have there : place < ctx.batch.size := Passing.foldr_place_lt methods within
  obtain ⟨t, bound, ran⟩ := fails place there
  have watched : (f.watchedChain world bound methods (ctx.atIndex index)).run.run (s, []) =
      some (.error e, (t, [.receiver place])) := by
    refine Passing.run_chainAfter_of_failure few inside ?_
    show ((f.eval world bound (ctx.atIndex place)).run.run s).map _ = _
    rw [ran]
    rfl
  have chained : (f.chain (methods.map Passing.method)).Ends world (ctx.atIndex index) s (.error e, t) := by
    refine ⟨bound, ?_⟩
    rw [← f.watchedChain_erases world bound methods (ctx.atIndex index) s [], watched]
    rfl
  refine ⟨place, t, rfl, there, ⟨bound, ran⟩, fun ended => ⟨fun ends => ends.eq chained, ?_⟩, bound, watched⟩
  rintro rfl
  exact chained

/-- A counter that is read in vain at both records, then a path, a map that there is not, the last record, a map that there
is, and capitals. -/
theorem chain_fails_misused :
    let ctx := { pair with maps := Table.empty.put "next" tally }
    let methods : List Passing := [.get ["y"], .apply "missing", .atRecord (-1), .apply "next", .inCase .upper]
    ∃ t, (∃ bound, (misused.watchedChain .blank bound methods (ctx.atIndex 0)).run.run ({}, []) =
        some (.error (.typeMismatch "object" .integer), (t, [.receiver 1]))) ∧
      (misused.chain (methods.map Passing.method)).Ends .blank (ctx.atIndex 0) {}
        (.error (.typeMismatch "object" .integer), t) ∧ t.drawn 0 = 1 := by
  intro ctx methods
  have fails : ∀ index < ctx.batch.size, ∃ t, misused.Ends .blank (ctx.atIndex index) {}
      (.error (.typeMismatch "object" .integer), t) := fun index _ => ⟨_, 0, rfl⟩
  have inside : Passing.Inside ctx.batch.size methods := by
    intro i member
    obtain rfl : i = -1 := by simpa [methods] using member
    decide
  obtain ⟨place, t, rfl, -, failed, ends, watched⟩ :=
    chain_fails .blank misused (.typeMismatch "object" .integer) ctx (by decide) {} fails methods inside 0 (by decide)
  have once : misused.Ends .blank (ctx.atIndex 1) {} (.error (.typeMismatch "object" .integer), Store.advance {} 0) :=
    ⟨0, rfl⟩
  refine ⟨t, watched, (ends _).mpr rfl, ?_⟩
  have same := congrArg Prod.snd (once.eq failed)
  rw [show t = Store.advance {} 0 from same.symm]
  rfl

end Query

end RecordQuery
