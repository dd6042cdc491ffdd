import RecordQuery.Proofs.InStep
import RecordQuery.Proofs.Tables

/-!
# Lifted literals

An argument can be a literal or the query that always gives it. For most functions and methods there is no difference:
a tree with some literals lifted to queries (`Query.Lifts`), in it and in the maps that it applies, evaluates to the
same value or error with the same effects, and ends where the other one ends (`Query.eval_lifts`). The exception is the
seed of a random integer, where a literal is the beginning of a sequence and a query is asked for every integer.
-/

namespace RecordQuery

mutual

/-- A query and the same one with some of its literal arguments lifted to queries, at any depth. -/
inductive Query.Lifts : Query → Query → Prop
  | leaf {q : Query} (noParts : q.parts = []) : Query.Lifts q q
  | env {name name' : Arg} (arg : Arg.Lifts name name') : Query.Lifts (.env name) (.env name')
  | metadataAt {key key' : Arg} (arg : Arg.Lifts key key') : Query.Lifts (.metadataAt key) (.metadataAt key')
  /-- A seed that is a literal is a leaf, so it stays as it is. -/
  | seed {seed seed' : Query} (lifts : Query.Lifts seed seed') (cell : Nat) :
    Query.Lifts (.randomIntFrom (.query seed) cell) (.randomIntFrom (.query seed') cell)
  | throwing {message message' : Arg} (arg : Arg.Lifts message message') :
    Query.Lifts (.throwing message) (.throwing message')
  | var {name name' : Arg} (arg : Arg.Lifts name name') : Query.Lifts (.var name) (.var name')
  | apply {receiver receiver' : Query} (lifts : Query.Lifts receiver receiver') (map : String) :
    Query.Lifts (.apply receiver map) (.apply receiver' map)
  | catching {receiver receiver' : Query} {fallback fallback' : Arg} (lifts : Query.Lifts receiver receiver')
    (arg : Arg.Lifts fallback fallback') : Query.Lifts (.catching receiver fallback) (.catching receiver' fallback')
  | orElse {receiver receiver' : Query} {fallback fallback' : Arg} (lifts : Query.Lifts receiver receiver')
    (arg : Arg.Lifts fallback fallback') : Query.Lifts (.orElse receiver fallback) (.orElse receiver' fallback')
  | atRecord {receiver receiver' : Query} {index index' : Arg} (lifts : Query.Lifts receiver receiver')
    (arg : Arg.Lifts index index') : Query.Lifts (.atRecord receiver index) (.atRecord receiver' index')
  | get {receiver receiver' : Query} (lifts : Query.Lifts receiver receiver') (path : List String) :
    Query.Lifts (.get receiver path) (.get receiver' path)
  | inCase {receiver receiver' : Query} (lifts : Query.Lifts receiver receiver') (letters : LetterCase) :
    Query.Lifts (.inCase receiver letters) (.inCase receiver' letters)

/-- An argument and the same one lifted, or with literals lifted inside it. -/
inductive Arg.Lifts : Arg → Arg → Prop
  | value (v : Value) : Arg.Lifts (.value v) (.value v)
  | lifted (v : Value) : Arg.Lifts (.value v) (.query (.literal v))
  | query {q q' : Query} (lifts : Query.Lifts q q') : Arg.Lifts (.query q) (.query q')

end

/-- Tables of maps under the same names, with some literals lifted in their bodies. -/
def MapsLift (maps maps' : Table Query) : Prop := ∀ name, Option.Rel Query.Lifts (maps.find? name) (maps'.find? name)

/-- Nothing has to be lifted. -/
theorem Query.Lifts.refl (q : Query) : q.Lifts q := by
  induction q using partsInduction with
  | step q ih =>
    have ofArg (arg : Arg) (within : ∀ part ∈ arg.parts, part ∈ q.parts) : arg.Lifts arg := by
      cases arg with
      | value v => exact .value v
      | query inner => exact .query (ih inner (within inner (by simp)))
    cases q with
    | env name => exact .env (ofArg name fun _ member => member)
    | metadataAt key => exact .metadataAt (ofArg key fun _ member => member)
    | randomIntFrom seed cell =>
      cases seed with
      | value v => exact .leaf rfl
      | query inner => exact .seed (ih inner (by simp [parts])) cell
    | throwing message => exact .throwing (ofArg message fun _ member => member)
    | var name => exact .var (ofArg name fun _ member => member)
    | apply receiver map => exact .apply (ih receiver (by simp [parts])) map
    | catching receiver fallback =>
      exact .catching (ih receiver (by simp [parts])) (ofArg fallback (by simp +contextual [parts]))
    | orElse receiver fallback =>
      exact .orElse (ih receiver (by simp [parts])) (ofArg fallback (by simp +contextual [parts]))
    | atRecord receiver index =>
      exact .atRecord (ih receiver (by simp [parts])) (ofArg index (by simp +contextual [parts]))
    | get receiver path => exact .get (ih receiver (by simp [parts])) path
    | inCase receiver letters => exact .inCase (ih receiver (by simp [parts])) letters
    | _ => exact .leaf rfl

theorem MapsLift.refl (maps : Table Query) : MapsLift maps maps := by
  intro name
  cases maps.find? name with
  | none => exact .none
  | some body => exact .some (.refl body)

theorem MapsLift.put {maps maps' : Table Query} (mapsLift : MapsLift maps maps') (name : String) {body body' : Query}
    (lifts : body.Lifts body') : MapsLift (maps.put name body) (maps'.put name body') := by
  intro other
  rw [Table.find?_put, Table.find?_put]
  split
  · exact .some lifts
  · exact mapsLift other

/-- The context with other maps. -/
def Context.withMaps (ctx : Context) (maps : Table Query) : Context := { ctx with maps }

section

variable {world : World} {enter enter' : Query → Context → Eval Value} {maps maps' : Table Query} {ctx : Context}

/-- A text that is asked for is a value that is asked for, and has to be a string. -/
theorem Arg.textWith_eq (arg : Arg) :
    arg.textWith world enter ctx =
      arg.resolveWith world enter ctx >>= fun value => liftExcept (Query.expectString value) := by
  cases arg with
  | value v =>
    rw [Arg.textWith, Arg.resolveWith]
    rfl
  | query q => rw [Arg.textWith, Arg.resolveWith]

/-- A query without parts does not look at maps. -/
theorem Query.evalWith_leaf {q : Query} (noParts : q.parts = []) :
    q.evalWith world enter ctx = q.evalWith world enter' (ctx.withMaps maps') := by
  cases q with
  | env arg | throwing arg | randomIntFrom arg _ =>
    cases arg with
    | query q => simp [parts] at noParts
    | value v => simp only [evalWith, Arg.textWith, Arg.resolveWith]
  | metadataAt arg | var arg =>
    cases arg with
    | query q => simp [parts] at noParts
    | value v =>
      simp only [evalWith, Arg.textWith]
      rfl
  | field | json | content | batchIndex | batchSize | metadata =>
    rw [evalWith, evalWith]
    rfl
  | literal | count | randomInt | unixTime | unixNanoTime | utcTime | uuid => rw [evalWith, evalWith]
  | apply | catching | orElse | atRecord | get | inCase => simp [parts] at noParts

/-- Bodies of maps, with some literals lifted, that evaluate to the same where they are entered. -/
def BodiesAgree (enter enter' : Query → Context → Eval Value) (maps maps' : Table Query) : Prop :=
  ∀ body body', body.Lifts body' → ∀ ctx : Context, ctx.maps = maps → enter body ctx = enter' body' (ctx.withMaps maps')

mutual

/-- Lifting makes no difference to the evaluation of a tree if it makes none to that of the bodies of maps. -/
theorem Query.evalWith_lifts (mapsLift : MapsLift maps maps') (bodies : BodiesAgree enter enter' maps maps') :
    {q q' : Query} → q.Lifts q' → ∀ ctx : Context, ctx.maps = maps →
      q.evalWith world enter ctx = q'.evalWith world enter' (ctx.withMaps maps')
  | _, _, .leaf noParts, ctx, _ => Query.evalWith_leaf noParts
  | _, _, .env arg, ctx, ofMaps => by
    rw [Query.evalWith, Query.evalWith, Arg.textWith_eq, Arg.textWith_eq, Arg.resolveWith_lifts mapsLift bodies arg ctx ofMaps]
  | _, _, .metadataAt arg, ctx, ofMaps => by
    rw [Query.evalWith, Query.evalWith, Arg.textWith_eq, Arg.textWith_eq, Arg.resolveWith_lifts mapsLift bodies arg ctx ofMaps]
    rfl
  | _, _, .seed lifts cell, ctx, ofMaps => by
    rw [Query.evalWith, Query.evalWith, Query.evalWith_lifts mapsLift bodies lifts ctx ofMaps]
  | _, _, .throwing arg, ctx, ofMaps => by
    rw [Query.evalWith, Query.evalWith, Arg.resolveWith_lifts mapsLift bodies arg ctx ofMaps]
  | _, _, .var arg, ctx, ofMaps => by
    rw [Query.evalWith, Query.evalWith, Arg.textWith_eq, Arg.textWith_eq, Arg.resolveWith_lifts mapsLift bodies arg ctx ofMaps]
    rfl
  | _, _, .apply lifts map, ctx, ofMaps => by
    rw [Query.evalWith, Query.evalWith, Query.evalWith_lifts mapsLift bodies lifts ctx ofMaps]
    refine bind_congr fun value => ?_
    have related := mapsLift map
    rw [← ofMaps] at related
    rw [show (ctx.withMaps maps').maps = maps' from rfl]
    generalize ctx.maps.find? map = found, maps'.find? map = found' at related
    cases related with
    | none => rfl
    | some lifts => exact bodies _ _ lifts (ctx.bind value) ofMaps
  | _, _, .catching lifts arg, ctx, ofMaps => by
    rw [Query.evalWith, Query.evalWith, Query.evalWith_lifts mapsLift bodies lifts ctx ofMaps,
      Arg.resolveWith_lifts mapsLift bodies arg ctx ofMaps]
  | _, _, .orElse lifts arg, ctx, ofMaps => by
    rw [Query.evalWith, Query.evalWith, Query.evalWith_lifts mapsLift bodies lifts ctx ofMaps,
      Arg.resolveWith_lifts mapsLift bodies arg ctx ofMaps]
  | _, _, .atRecord lifts arg, ctx, ofMaps => by
    rw [Query.evalWith, Query.evalWith, Arg.resolveWith_lifts mapsLift bodies arg ctx ofMaps]
    refine bind_congr fun index => bind_congr fun index => bind_congr fun place => ?_
    exact Query.evalWith_lifts mapsLift bodies lifts (ctx.atIndex place) ofMaps
  | _, _, .get lifts path, ctx, ofMaps => by
    rw [Query.evalWith, Query.evalWith, Query.evalWith_lifts mapsLift bodies lifts ctx ofMaps]
  | _, _, .inCase lifts letters, ctx, ofMaps => by
    rw [Query.evalWith, Query.evalWith, Query.evalWith_lifts mapsLift bodies lifts ctx ofMaps]

theorem Arg.resolveWith_lifts (mapsLift : MapsLift maps maps') (bodies : BodiesAgree enter enter' maps maps') :
    {arg arg' : Arg} → arg.Lifts arg' → ∀ ctx : Context, ctx.maps = maps →
      arg.resolveWith world enter ctx = arg'.resolveWith world enter' (ctx.withMaps maps')
  | _, _, .value v, ctx, _ => by rw [Arg.resolveWith, Arg.resolveWith]
  | _, _, .lifted v, ctx, _ => by rw [Arg.resolveWith, Arg.resolveWith, Query.evalWith]
  | _, _, .query lifts, ctx, ofMaps => by
    rw [Arg.resolveWith, Arg.resolveWith, Query.evalWith_lifts mapsLift bodies lifts ctx ofMaps]

end

end

/-- Literals may be lifted to queries anywhere in a tree and in the bodies of maps: in every context the evaluation is
the same one, within every nesting. From every store it ends in the same value or error with the same store, or
does not end either. -/
theorem Query.eval_lifts (world : World) (bound : Nat) {q q' : Query} (lifts : q.Lifts q') {ctx : Context} {maps : Table Query}
    (mapsLift : MapsLift ctx.maps maps) : q.eval world bound ctx = q'.eval world bound (ctx.withMaps maps) := by
  suffices evaluating : ∀ {q q' : Query}, q.Lifts q' → ∀ inner : Context, inner.maps = ctx.maps →
      q.eval world bound inner = q'.eval world bound (inner.withMaps maps) from evaluating lifts ctx rfl
  induction bound with
  | zero => exact Query.evalWith_lifts mapsLift fun _ _ _ _ _ => rfl
  | succ bound ih => exact Query.evalWith_lifts mapsLift fun _ _ lifts => ih lifts

namespace Query

/-- A variable, the name of which is a literal, mapped at the last record, the index of which is one. -/
def fixed : Query := .atRecord (.apply (.var (.value (.string "who"))) "greet") (.value (.int (-1)))

/-- A map that asks for a variable of the environment under a literal that is no name, and falls back to another one. -/
def greeting : Query := .orElse (.env (.value (.int 3))) (.value (.string "hello"))

/-- A context with the variable, the map and one record. -/
def fixedContext : Context where
  batch := #[{ body := [] }]
  vars := Table.empty.put "who" .null
  maps := Table.empty.put "greet" greeting

/-- With the literals lifted, here and in the map, even the one that is no name is recovered from as before. -/
theorem eval_lifts_everywhere :
    let lifted : Query := .atRecord (.apply (.var (.query (.literal (.string "who")))) "greet") (.query (.literal (.int (-1))))
    let maps := Table.empty.put "greet" (.orElse (.env (.query (.literal (.int 3)))) (.query (.literal (.string "hello"))))
    fixed.Lifts lifted ∧ MapsLift fixedContext.maps maps ∧
      ((lifted.eval .blank 1 (fixedContext.withMaps maps)).run.run {}).map Prod.fst = some (.ok (.string "hello")) := by
  intro lifted maps
  have lifts : fixed.Lifts lifted := .atRecord (.apply (.var (.lifted _)) "greet") (.lifted _)
  have mapsLift : MapsLift fixedContext.maps maps := (MapsLift.refl .empty).put "greet" (.orElse (.env (.lifted _)) (.lifted _))
  refine ⟨lifts, mapsLift, ?_⟩
  rw [← eval_lifts .blank 1 lifts mapsLift]
  rfl

/-- The seed of a random integer cannot be lifted: only a literal one moves an instance on. -/
example (seed : Value) :
    let progress (seed : Arg) := (((Query.randomIntFrom seed 0).eval .blank 0 {}).run.run {}).map fun ended => ended.2.drawn 0
    progress (.value seed) = some 1 ∧ progress (.query (.literal seed)) = some 0 :=
  ⟨rfl, rfl⟩

end Query

end RecordQuery
