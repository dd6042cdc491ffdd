import RecordQuery.Proofs.Alike
import RecordQuery.Proofs.InStep

/-!
# Traced evaluation

Evaluation that also lists the instances that it evaluates, in order, with what they returned. It comes to the same
ends as evaluation itself, and what it lists accounts for all that changes in the cells of instances: each entry
moves its cell by one, and nothing else moves any (`Query.traced_follows`).
-/

namespace RecordQuery

/-! ## Instances -/

/-- The cell of the instance that a query holds itself. A generator with a seed that is a query draws from none. -/
def Query.cell? : Query → Option Nat
  | .count _ cell => some cell
  | .randomInt cell => some cell
  | .randomIntFrom (.value _) cell => some cell
  | _ => none

/-- What an instance returns that was evaluated some times before, unless entropy decides that. -/
def Query.drawnValue? : Query → Nat → Option Value
  | .count _ _, drawn => some (.int (Int64.ofNat (drawn + 1)))
  | .randomIntFrom (.value seed) _, drawn => some (.int (Query.seededInt seed drawn))
  | _, _ => none

/-- One evaluation of an instance: the query that holds it, and the value that it returned. -/
structure Draw where
  node : Query
  value : Value

/-- Draws, one after another, account for the counts of evaluations of all cells before and after them. -/
def Accounted : (Nat → Nat) → List Draw → (Nat → Nat) → Prop
  | before, [], after => after = before
  | before, draw :: draws, after => ∃ cell, draw.node.cell? = some cell ∧
      (∀ v, draw.node.drawnValue? (before cell) = some v → draw.value = v) ∧
      Accounted (fun other => before other + if other = cell then 1 else 0) draws after

theorem Accounted.append {before middle after : Nat → Nat} {first next : List Draw} (accounted : Accounted before first middle)
    (onward : Accounted middle next after) : Accounted before (first ++ next) after := by
  induction first generalizing before with
  | nil =>
    obtain rfl : middle = before := accounted
    exact onward
  | cons draw draws ih =>
    obtain ⟨cell, held, returned, later⟩ := accounted
    exact ⟨cell, held, returned, ih later⟩

/-- One more evaluation of the instance of a cell counts for that cell alone. -/
theorem Store.drawn_advance (s : Store) (cell : Nat) :
    (s.advance cell).drawn = fun other => s.drawn other + if other = cell then 1 else 0 := by
  have widened (other : Nat) : (s.draws ++ Array.replicate (cell + 1 - s.draws.size) 0)[other]?.getD 0 = s.drawn other := by
    unfold drawn
    by_cases within : other < s.draws.size
    · rw [Array.getElem?_append_left within]
    · have outside : s.draws[other]? = none := Array.getElem?_eq_none (Nat.not_lt.mp within)
      rw [Array.getElem?_append_right (by omega), Array.getElem?_replicate, outside]
      split <;> rfl
  have large : cell < (s.draws ++ Array.replicate (cell + 1 - s.draws.size) 0).size := by simp; omega
  funext other
  rw [← widened other]
  unfold drawn advance
  dsimp only
  rw [Array.getElem?_modify]
  by_cases same : other = cell
  · subst same
    simp [Array.getElem?_eq_getElem large]
  · simp [same, Ne.symm same]

/-! ## Traced computations -/

/-- A computation that also lists draws. -/
abbrev Traced := ExceptT Error (StateT (Store × List Draw) Option)

namespace Traced

variable {α β : Type}

/-- A computation that lists nothing. -/
def lift (x : Eval α) : Traced α := ExceptT.mk fun before =>
  match x.run before.1 with
  | none => none
  | some (outcome, after) => some (outcome, (after, before.2))

def record (draw : Draw) : Traced Unit := modify fun before => (before.1, before.2 ++ [draw])

/-- The outcome of a computation, an error as a value. -/
def attempt (x : Traced α) : Traced (Except Error α) := ExceptT.mk fun before =>
  match x.run before with
  | none => none
  | some (outcome, after) => some (.ok outcome, after)

/-- Evaluates an instance, and lists what it returned. -/
def observe (world : World) (node : Query) (ctx : Context) : Traced Value := do
  let value ← lift (node.evalWith world (fun _ _ => Eval.unfinished) ctx)
  record ⟨node, value⟩
  pure value

end Traced

open Traced (lift observe)

mutual

/-- Evaluates a query as `Query.evalWith` does, and lists every evaluation of an instance. -/
def Query.tracedWith (world : World) (enter : Query → Context → Traced Value) : Query → Context → Traced Value
  | .count label cell, ctx => observe world (.count label cell) ctx
  | .randomInt cell, ctx => observe world (.randomInt cell) ctx
  | .randomIntFrom (.value seed) cell, ctx => observe world (.randomIntFrom (.value seed) cell) ctx
  | .randomIntFrom (.query seed) _, ctx => do
    let seed := seedOf (← seed.tracedWith world enter ctx)
    lift (Eval.note .trace .randomInt ("random_int reseeded with " ++ toString seed.toNat))
    pure (.int (intOfSeed seed))
  | .env name, ctx => do
    let name ← name.tracedTextWith world enter ctx
    let text ← liftExcept (world.envText name)
    pure (.string text)
  | .metadataAt key, ctx => do
    let key ← key.tracedTextWith world enter ctx
    match ctx.record?.bind (·.metadata.find? key) with
    | some text => pure (.string text)
    | none => throw (.metadataNotFound key)
  | .throwing message, ctx => do
    let message ← message.tracedWith world enter ctx
    throw (.thrown message.rawText)
  | .var name, ctx => do
    let name ← name.tracedTextWith world enter ctx
    match ctx.vars.find? name with
    | some value => pure value
    | none => throw (.undefinedVariable name)
  | .apply receiver map, ctx => do
    let value ← receiver.tracedWith world enter ctx
    match ctx.maps.find? map with
    | some body => enter body (ctx.bind value)
    | none => throw (.mapNotFound map)
  | .catching receiver fallback, ctx => do
    match ← Traced.attempt (receiver.tracedWith world enter ctx) with
    | .ok value => pure value
    | .error e =>
      lift (Eval.note .trace .catching ("catch recovered from: " ++ e.message))
      fallback.tracedWith world enter ctx
  | .orElse receiver fallback, ctx => do
    match ← Traced.attempt (receiver.tracedWith world enter ctx) with
    | .ok value => if value.isNull then fallback.tracedWith world enter ctx else pure value
    | .error e =>
      lift (Eval.note .trace .orElse ("or recovered from: " ++ e.message))
      fallback.tracedWith world enter ctx
  | .atRecord receiver index, ctx => do
    let index ← index.tracedWith world enter ctx
    let index ← liftExcept (Query.expectInt index)
    let place ← liftExcept (Context.resolveIndex index ctx.batch.size)
    receiver.tracedWith world enter (ctx.atIndex place)
  | .get receiver path, ctx => do
    let value ← receiver.tracedWith world enter ctx
    liftExcept (value.fieldPath path)
  | .inCase receiver letters, ctx => do
    let value ← receiver.tracedWith world enter ctx
    let text ← liftExcept (Query.expectString value)
    pure (.string (letters.change text))
  -- What is left has no parts, and is no instance.
  | q, ctx => lift (q.evalWith world (fun _ _ => Eval.unfinished) ctx)

def Arg.tracedWith (world : World) (enter : Query → Context → Traced Value) : Arg → Context → Traced Value
  | .value v, _ => pure v
  | .query q, ctx => q.tracedWith world enter ctx

def Arg.tracedTextWith (world : World) (enter : Query → Context → Traced Value) : Arg → Context → Traced String
  | .value v, _ => liftExcept (Query.expectString v)
  | .query q, ctx => do
    let value ← q.tracedWith world enter ctx
    liftExcept (Query.expectString value)

end

/-- Evaluates a query and lists the draws, where the applications of named maps nest no deeper than the bound. -/
def Query.traced (world : World) : Nat → Query → Context → Traced Value
  | 0 => tracedWith world fun _ _ => lift Eval.unfinished
  | bound + 1 => tracedWith world (traced world bound)

/-! ## What is listed -/

theorem rel_imp {α β : Type} {r r' : α → β → Prop} {x : Option α} {y : Option β} (related : Option.Rel r x y)
    (weaker : ∀ a b, r a b → r' a b) : Option.Rel r' x y := by
  cases related with
  | some pair => exact .some (weaker _ _ pair)
  | none => exact .none

/-- An instance moves its own cell by one, and returns what its progress says. -/
theorem Query.evalWith_of_cell {node : Query} {cell : Nat} (held : node.cell? = some cell) (world : World) (ctx : Context)
    (s : Store) :
    ∃ v, (∀ enter, (node.evalWith world enter ctx).run.run s = some (.ok v, s.advance cell)) ∧
      ∀ w, node.drawnValue? (s.drawn cell) = some w → v = w := by
  cases node with
  | count label other =>
    obtain rfl : other = cell := Option.some.inj held
    exact ⟨_, fun _ => rfl, fun w same => Option.some.inj same⟩
  | randomInt other =>
    obtain rfl : other = cell := Option.some.inj held
    exact ⟨_, fun _ => rfl, fun w same => by cases same⟩
  | randomIntFrom seed other =>
    cases seed with
    | value v =>
      obtain rfl : other = cell := Option.some.inj held
      exact ⟨_, fun _ => rfl, fun w same => Option.some.inj same⟩
    | query q => cases held
  | _ => cases held

namespace Traced

variable {α β : Type}

theorem run_attempt (x : Traced α) (before : Store × List Draw) :
    (attempt x).run.run before = (x.run.run before).bind fun ended => some (pure ended.1, ended.2) := by
  rw [attempt, ExceptT.run_mk]
  simp only [StateT.run]
  cases x.run before <;> rfl

theorem run_lift (x : Eval α) (s : Store) (draws : List Draw) :
    (lift x).run.run (s, draws) = (x.run.run s).map fun ended => (ended.1, (ended.2, draws)) := by
  rw [lift, ExceptT.run_mk]
  simp only [StateT.run]
  cases x.run s <;> rfl

/-- An end of a traced computation and one of the computation without its list: the same outcome and store, and new
draws, by queries of some kind, that account for what has changed since the store before them. -/
structure SameEnd (nodes : Query → Prop) (s : Store) (draws : List Draw) (left : Except Error α × Store × List Draw)
    (right : Except Error α × Store) : Prop where
  outcome : left.1 = right.1
  store : left.2.1 = right.2
  listed : ∃ new, left.2.2 = draws ++ new ∧ Accounted s.drawn new right.2.drawn ∧ ∀ draw ∈ new, nodes draw.node

/-- A traced computation comes to the same ends as a computation without its list, and lists what that draws. -/
def Follows (nodes : Query → Prop) (x : Traced α) (y : Eval α) : Prop :=
  ∀ s draws, Option.Rel (SameEnd nodes s draws) (x.run.run (s, draws)) (y.run.run s)

/-- A computation that evaluates no instance. -/
def Still (y : Eval α) : Prop := ∀ s outcome t, y.run.run s = some (outcome, t) → t.drawn = s.drawn

variable {nodes : Query → Prop}

namespace Follows

theorem nothing {s : Store} {draws : List Draw} {outcome : Except Error α} {t : Store} (same : t.drawn = s.drawn) :
    SameEnd nodes s draws (outcome, (t, draws)) (outcome, t) :=
  ⟨rfl, rfl, [], (List.append_nil draws).symm, same, List.forall_mem_nil _⟩

theorem pure (a : α) : Follows nodes (Pure.pure a) (Pure.pure a) := fun _ _ => .some (nothing rfl)

theorem throw (e : Error) : Follows (α := α) nodes (MonadExcept.throw e) (MonadExcept.throw e) := fun _ _ => .some (nothing rfl)

theorem except (outcome : Except Error α) : Follows nodes (liftExcept outcome) (liftExcept outcome) := by
  cases outcome with
  | ok a => exact pure a
  | error e => exact throw e

theorem ofStill {y : Eval α} (still : Still y) : Follows nodes (lift y) y := by
  intro s draws
  rw [run_lift]
  cases ended : y.run.run s with
  | none => exact .none
  | some after => exact .some (nothing (still s after.1 after.2 ended))

theorem bind {x : Traced α} {y : Eval α} {f : α → Traced β} {g : α → Eval β} (first : Follows nodes x y)
    (next : ∀ a, Follows nodes (f a) (g a)) : Follows nodes (x >>= f) (y >>= g) := by
  intro s draws
  rw [run_bind, run_bind]
  refine rel_bind (first s draws) ?_
  rintro ⟨outcome, t, listed⟩ ⟨_, _⟩ ⟨rfl, rfl, new, rfl, accounted, ofNodes⟩
  cases outcome with
  | error e => exact .some ⟨rfl, rfl, new, rfl, accounted, ofNodes⟩
  | ok a =>
    -- What the second part draws is listed behind, and counts from where the first part has left the cells.
    refine rel_imp (next a t (draws ++ new)) ?_
    rintro ⟨outcome, u, listed⟩ ⟨_, _⟩ ⟨rfl, rfl, later, rfl, onward, ofLater⟩
    refine ⟨rfl, rfl, new ++ later, List.append_assoc draws new later, accounted.append onward, ?_⟩
    exact List.forall_mem_append.mpr ⟨ofNodes, ofLater⟩

theorem attempt {x : Traced α} {y : Eval α} (related : Follows nodes x y) :
    Follows nodes (Traced.attempt x) (Eval.attempt y) := by
  intro s draws
  rw [run_attempt, Eval.run_attempt]
  refine rel_bind (related s draws) ?_
  rintro ⟨outcome, t, listed⟩ ⟨_, _⟩ ⟨rfl, rfl, traced⟩
  exact .some ⟨rfl, rfl, traced⟩

theorem mono {x : Traced α} {y : Eval α} {more : Query → Prop} (related : Follows nodes x y)
    (weaker : ∀ node, nodes node → more node) : Follows more x y := by
  intro s draws
  refine rel_imp (related s draws) ?_
  rintro left right ⟨outcome, store, new, split, accounted, ofNodes⟩
  exact ⟨outcome, store, new, split, accounted, fun draw member => weaker _ (ofNodes draw member)⟩

theorem observe {node : Query} {cell : Nat} (held : node.cell? = some cell) (ofNode : nodes node) (world : World)
    (enter : Query → Context → Eval Value) (ctx : Context) :
    Follows nodes (Traced.observe world node ctx) (node.evalWith world enter ctx) := by
  intro s draws
  obtain ⟨v, ran, returned⟩ := Query.evalWith_of_cell held world ctx s
  have listed : (Traced.observe world node ctx).run.run (s, draws) =
      some (.ok v, (s.advance cell, draws ++ [⟨node, v⟩])) := by
    rw [Traced.observe, run_bind, run_lift, ran]
    rfl
  rw [listed, ran]
  refine .some ⟨rfl, rfl, [⟨node, v⟩], rfl, ⟨cell, held, returned, s.drawn_advance cell⟩, ?_⟩
  exact List.forall_mem_singleton.mpr ofNode

/-- From an empty list, what is listed is what accounts for the changes. -/
theorem listing {x : Traced α} {y : Eval α} (follows : Follows nodes x y) {s t : Store} {outcome : Except Error α}
    (ended : y.run.run s = some (outcome, t)) :
    ∃ draws, x.run.run (s, []) = some (outcome, (t, draws)) ∧ Accounted s.drawn draws t.drawn ∧
      ∀ draw ∈ draws, nodes draw.node := by
  obtain ⟨⟨same, u, draws⟩, ran, sameOutcome, sameStore, new, listed, accounted, ofNodes⟩ := some_left_of_rel (follows s []) ended
  obtain rfl : same = outcome := sameOutcome
  obtain rfl : u = t := sameStore
  obtain rfl : draws = new := listed
  exact ⟨draws, ran, accounted, ofNodes⟩

end Follows

end Traced

/-! ## Traces of queries -/

section

open Traced (Follows Still)

variable {world : World} {nodes : Query → Prop} {ctx : Context} {enter : Query → Context → Traced Value}
  {enterPlain : Query → Context → Eval Value}

theorem still_note (level : LogLevel) (source : LogSource) (text : String) : Still (Eval.note level source text) := by
  intro s outcome t ended
  cases ended
  rfl

/-- To evaluate no instance is kept by what evaluation is composed of. -/
theorem still_congruence : Eval.Congruence fun _ x y => x = y ∧ Still x where
  pure a := by
    refine ⟨rfl, fun s outcome t ended => ?_⟩
    cases ended
    rfl
  throw e := by
    refine ⟨rfl, fun s outcome t ended => ?_⟩
    cases ended
    rfl
  note level source text := ⟨rfl, still_note level source text⟩
  bind := by
    rintro α β x _ f g ⟨rfl, still⟩ next
    obtain rfl : f = g := funext fun a => (next a).1
    refine ⟨rfl, fun s outcome t ended => ?_⟩
    rw [run_bind] at ended
    obtain ⟨⟨before, after⟩, ran, ended⟩ := Option.bind_eq_some_iff.mp ended
    have same := still s before after ran
    cases before with
    | ok a => exact ((next a).2 after outcome t ended).trans same
    | error e =>
      cases ended
      exact same
  attempt := by
    rintro α x _ ⟨rfl, still⟩
    refine ⟨rfl, fun s outcome t ended => ?_⟩
    rw [Eval.run_attempt] at ended
    obtain ⟨⟨before, after⟩, ran, ended⟩ := Option.bind_eq_some_iff.mp ended
    cases ended
    exact still s before after ran

theorem Arg.tracedWith_follows {arg : Arg}
    (parts : ∀ part ∈ arg.parts, Follows nodes (part.tracedWith world enter ctx) (part.evalWith world enterPlain ctx)) :
    Follows nodes (arg.tracedWith world enter ctx) (arg.resolveWith world enterPlain ctx) := by
  cases arg with
  | value v =>
    rw [Arg.tracedWith, Arg.resolveWith]
    exact .pure v
  | query q =>
    rw [Arg.tracedWith, Arg.resolveWith]
    exact parts q (by simp)

theorem Arg.tracedTextWith_follows {arg : Arg}
    (parts : ∀ part ∈ arg.parts, Follows nodes (part.tracedWith world enter ctx) (part.evalWith world enterPlain ctx)) :
    Follows nodes (arg.tracedTextWith world enter ctx) (arg.textWith world enterPlain ctx) := by
  cases arg with
  | value v =>
    rw [Arg.tracedTextWith, Arg.textWith]
    exact .except _
  | query q =>
    rw [Arg.tracedTextWith, Arg.textWith]
    exact (parts q (by simp)).bind fun value => .except _

namespace Query

/-- A query without parts leads nowhere. -/
theorem eq_of_reaches {q node : Query} {maps : Table Query} (noParts : q.parts = []) (walk : q.Reaches maps [] node) : node = q := by
  rcases Relation.ReflTransGen.cases_head walk with same | ⟨next, step, -⟩
  · exact same.symm
  · cases step with
    | part member => simp [noParts] at member
    | body => cases noParts

theorem still_evalWith {q : Query} (noParts : q.parts = []) (noCell : q.cell? = none) (world : World) (ctx : Context) :
    Still (q.evalWith world (fun _ _ => Eval.unfinished) ctx) := by
  have now : Eval.now world = Eval.now world ∧ Still (Eval.now world) := by
    refine ⟨rfl, fun s outcome t ended => ?_⟩
    cases ended
    rfl
  have word : Eval.randomWord world = Eval.randomWord world ∧ Still (Eval.randomWord world) := by
    refine ⟨rfl, fun s outcome t ended => ?_⟩
    cases ended
    rfl
  have unfinished : (Eval.unfinished : Eval Value) = Eval.unfinished ∧ Still (Eval.unfinished : Eval Value) :=
    ⟨rfl, fun _ _ _ ended => by cases ended⟩
  -- Without parts the query reaches itself only, so it is enough to look at what it draws itself.
  have draws : q.Throughout ctx.maps (DrawsAlike (fun _ x y => x = y ∧ Still x) world world) := by
    intro node walk
    rw [eq_of_reaches noParts walk]
    cases q with
    | count _ _ | randomInt _ => cases noCell
    | randomIntFrom seed _ =>
      cases seed with
      | value _ => cases noCell
      | query _ => trivial
    | unixTime | unixNanoTime | utcTime _ => exact now
    | uuid => exact word
    | _ => trivial
  exact (evalWith_related still_congruence (q.inStep_refl world ctx.maps) draws (fun _ _ _ _ _ => unfinished) ⟨rfl, rfl⟩).2

/-- The trace of a tree follows its evaluation if the traces of the bodies of maps do that it reaches. -/
theorem tracedWith_follows {maps : Table Query} {q : Query} (ofNodes : q.Throughout maps nodes) (ofMaps : ctx.maps = maps)
    (bodies : ∀ body, q.Reaches maps [] body → ∀ ctx : Context, ctx.maps = maps →
      Follows nodes (enter body ctx) (enterPlain body ctx)) :
    Follows nodes (q.tracedWith world enter ctx) (q.evalWith world enterPlain ctx) := by
  -- The induction is on the tree alone; what the bodies of maps do is given, however the maps call each other.
  induction q using partsInduction generalizing ctx with
  | step q ih =>
    have here : nodes q := ofNodes.here
    have parts : ∀ part ∈ q.parts, ∀ ctx : Context, ctx.maps = maps →
        Follows nodes (part.tracedWith world enter ctx) (part.evalWith world enterPlain ctx) := by
      intro part member ctx ofMaps
      have first : q.Reaches maps [] part := .single (.part member)
      exact ih part member (ofNodes.part member) ofMaps fun body walk => bodies body (first.trans walk)
    have named (name : Arg) (within : ∀ part ∈ name.parts, part ∈ q.parts) :
        Follows nodes (name.tracedTextWith world enter ctx) (name.textWith world enterPlain ctx) :=
      Arg.tracedTextWith_follows fun part member => parts part (within part member) ctx ofMaps
    have resolved (arg : Arg) (within : ∀ part ∈ arg.parts, part ∈ q.parts) :
        Follows nodes (arg.tracedWith world enter ctx) (arg.resolveWith world enterPlain ctx) :=
      Arg.tracedWith_follows fun part member => parts part (within part member) ctx ofMaps
    have leaf (noParts : q.parts = []) (noCell : q.cell? = none) :
        let plain := q.evalWith world (fun _ _ => Eval.unfinished) ctx
        Follows nodes (Traced.lift plain) plain := .ofStill (still_evalWith noParts noCell world ctx)
    cases q with
    | count _ cell | randomInt cell =>
      rw [tracedWith]
      exact .observe rfl here world enterPlain ctx
    | randomIntFrom seed cell =>
      cases seed with
      | value v =>
        rw [tracedWith]
        exact .observe rfl here world enterPlain ctx
      | query seed =>
        rw [tracedWith, evalWith]
        refine (parts seed (by simp [Query.parts]) ctx ofMaps).bind fun value => ?_
        exact (Follows.ofStill (still_note _ _ _)).bind fun _ => .pure _
    | env name =>
      rw [tracedWith, evalWith]
      exact (named name fun _ member => member).bind fun text => (Follows.except _).bind fun _ => .pure _
    | metadataAt key =>
      rw [tracedWith, evalWith]
      refine (named key fun _ member => member).bind fun text => ?_
      cases ctx.record?.bind (·.metadata.find? text) with
      | none => exact .throw _
      | some found => exact .pure _
    | throwing message =>
      rw [tracedWith, evalWith]
      exact (resolved message fun _ member => member).bind fun message => .throw _
    | var name =>
      rw [tracedWith, evalWith]
      refine (named name fun _ member => member).bind fun text => ?_
      cases ctx.vars.find? text with
      | none => exact .throw _
      | some value => exact .pure _
    | apply receiver map =>
      rw [tracedWith, evalWith]
      refine (parts receiver (by simp [Query.parts]) ctx ofMaps).bind fun value => ?_
      cases found : ctx.maps.find? map with
      | none => exact .throw _
      | some body =>
        rw [ofMaps] at found
        exact bodies body (.single (.body (by simp) found)) _ ofMaps
    | catching receiver fallback =>
      rw [tracedWith, evalWith]
      have otherwise := resolved fallback (by simp +contextual [Query.parts])
      refine (parts receiver (by simp [Query.parts]) ctx ofMaps).attempt.bind fun outcome => ?_
      cases outcome with
      | ok value => exact .pure _
      | error e => exact (Follows.ofStill (still_note _ _ _)).bind fun _ => otherwise
    | orElse receiver fallback =>
      rw [tracedWith, evalWith]
      have otherwise := resolved fallback (by simp +contextual [Query.parts])
      refine (parts receiver (by simp [Query.parts]) ctx ofMaps).attempt.bind fun outcome => ?_
      cases outcome with
      | ok value =>
        dsimp only
        split
        · exact otherwise
        · exact .pure _
      | error e => exact (Follows.ofStill (still_note _ _ _)).bind fun _ => otherwise
    | atRecord receiver index =>
      rw [tracedWith, evalWith]
      refine (resolved index (by simp +contextual [Query.parts])).bind fun index => ?_
      refine (Follows.except _).bind fun index => (Follows.except _).bind fun place => ?_
      exact parts receiver (by simp [Query.parts]) _ ofMaps
    | get receiver path =>
      rw [tracedWith, evalWith]
      exact (parts receiver (by simp [Query.parts]) ctx ofMaps).bind fun value => .except _
    | inCase receiver letters =>
      rw [tracedWith, evalWith]
      refine (parts receiver (by simp [Query.parts]) ctx ofMaps).bind fun value => ?_
      exact (Follows.except _).bind fun _ => .pure _
    | literal _ | field _ | json _ | content | batchIndex | batchSize | metadata | unixTime | unixNanoTime | utcTime _ | uuid =>
      have followed := leaf rfl rfl
      simp only [tracedWith]
      rw [evalWith] at followed ⊢
      exact followed

theorem traced_follows {maps : Table Query} {q : Query} (ofNodes : q.Throughout maps nodes) (bound : Nat)
    (ofMaps : ctx.maps = maps) : Follows nodes (q.traced world bound ctx) (q.eval world bound ctx) := by
  induction bound generalizing q ctx with
  | zero =>
    refine tracedWith_follows ofNodes ofMaps fun body walk ctx ofMaps => .ofStill fun s outcome t ended => ?_
    cases ended
  | succ bound within =>
    refine tracedWith_follows ofNodes ofMaps fun body walk ctx ofMaps => ?_
    exact within (fun node onward => ofNodes node (walk.trans onward)) ofMaps

end Query

end

end RecordQuery
