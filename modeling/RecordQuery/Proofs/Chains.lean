import Mathlib.Algebra.Group.Int.Defs
import Mathlib.Algebra.Group.Nat.Defs
import RecordQuery.Proofs.Bound
import RecordQuery.Proofs.Instances
import RecordQuery.Proofs.Positions

/-!
# Chains of methods

What a chain of methods on a query evaluates, for chains of any length. With fallbacks only, it goes through its
candidates in order, evaluates each once and stops at the first that is good enough (`Recovery.chain_picks`). With any
methods that stay at their record, another record can be gone to before the chain or after it (`Query.chain_movedTo`).
-/

namespace RecordQuery

/-- A method that waits for its receiver. -/
inductive Method where
  | apply (map : String)
  | catching (fallback : Arg)
  | orElse (fallback : Arg)
  | atRecord (index : Arg)
  | get (path : List String)
  | inCase (letters : LetterCase)

/-- The method on a receiver. -/
def Method.on : Method → Query → Query
  | .apply map, receiver => .apply receiver map
  | .catching fallback, receiver => .catching receiver fallback
  | .orElse fallback, receiver => .orElse receiver fallback
  | .atRecord index, receiver => .atRecord receiver index
  | .get path, receiver => .get receiver path
  | .inCase letters, receiver => .inCase receiver letters

/-- A query with methods on it, each on the result of those before it. -/
def Query.chain (f : Query) (methods : List Method) : Query := methods.foldl (fun receiver method => method.on receiver) f

@[simp] theorem Query.chain_nil (f : Query) : f.chain [] = f := rfl

@[simp] theorem Query.chain_cons (f : Query) (method : Method) (methods : List Method) :
    f.chain (method :: methods) = (method.on f).chain methods := rfl

/-! ## Recovery -/

/-- The two methods that go on to a fallback. -/
inductive Recovery where
  | catching
  | orElse

namespace Recovery

def method : Recovery → Arg → Method
  | .catching => .catching
  | .orElse => .orElse

/-- An outcome is good enough not to go on. -/
def takes : Recovery → Except Error Value → Bool
  | _, .error _ => false
  | .catching, .ok _ => true
  | .orElse, .ok value => !value.isNull

/-- What going on from an outcome leaves: for an error a line in the log. -/
def leave : Recovery → Except Error Value → Store → Store
  | _, .ok _, s => s
  | .catching, .error e, s => { s with log := s.log.push ⟨.trace, .catching, "catch recovered from: " ++ e.message⟩ }
  | .orElse, .error e, s => { s with log := s.log.push ⟨.trace, .orElse, "or recovered from: " ++ e.message⟩ }

theorem drawn_leave (r : Recovery) (outcome : Except Error Value) (s : Store) : (r.leave outcome s).drawn = s.drawn := by
  cases outcome with
  | ok value => rfl
  | error e => cases r <;> rfl

section

variable (world : World) (bound : Nat) (ctx : Context)

/-- What a candidate comes to from a store. -/
def attempt (candidate : Arg) (s : Store) : Option (Except Error Value × Store) :=
  (candidate.resolve world bound ctx).run.run s

/-- Candidates are evaluated from a store, each of them once and in order, and none is good enough; that leaves another
store. -/
inductive Passes (r : Recovery) : Store → List Arg → Store → Prop
  | nil (s : Store) : Passes r s [] s
  | cons {s between t : Store} {candidate : Arg} {candidates : List Arg} {outcome : Except Error Value}
    (ended : attempt world bound ctx candidate s = some (outcome, between)) (refused : r.takes outcome = false)
    (others : Passes r (r.leave outcome between) candidates t) : Passes r s (candidate :: candidates) t

/-- Behind candidates that are passed, one comes to an end. -/
def Chooses (r : Recovery) (s : Store) (passed : List Arg) (chosen : Arg) (ended : Except Error Value × Store) : Prop :=
  ∃ between, Passes world bound ctx r s passed between ∧ attempt world bound ctx chosen between = some ended

/-- Goes through candidates from the front, up to the first that is good enough or else the last. -/
def pick (r : Recovery) : Arg → List Arg → Store → Option (Except Error Value × Store)
  | candidate, [], s => attempt world bound ctx candidate s
  | candidate, next :: later, s =>
    (attempt world bound ctx candidate s).bind fun (outcome, t) =>
      if r.takes outcome then some (outcome, t) else pick r next later (r.leave outcome t)

end

variable {world : World} {bound : Nat} {ctx : Context}

theorem attempt_on (r : Recovery) (f : Query) (fallback : Arg) (s : Store) :
    attempt world bound ctx (.query ((r.method fallback).on f)) s = pick world bound ctx r (.query f) [fallback] s := by
  simp only [pick, attempt, Arg.resolve_eq_resolveWith, Arg.resolveWith]
  cases r with
  | catching =>
    rw [method, Method.on, Query.evalWith, run_bind, Eval.run_attempt, Option.bind_assoc]
    refine congrArg _ (funext ?_)
    rintro ⟨outcome, t⟩
    cases outcome <;> rfl
  | orElse =>
    rw [method, Method.on, Query.evalWith, run_bind, Eval.run_attempt, Option.bind_assoc]
    refine congrArg _ (funext ?_)
    rintro ⟨outcome, t⟩
    cases outcome with
    | ok value => cases value <;> rfl
    | error e => rfl

/-- A recovered candidate is a candidate, so a chain is gone through from its innermost receiver outwards. -/
theorem attempt_chain (r : Recovery) (first : Query) (fallbacks : List Arg) (s : Store) :
    attempt world bound ctx (.query (first.chain (fallbacks.map r.method))) s =
      pick world bound ctx r (.query first) fallbacks s := by
  induction fallbacks generalizing first with
  | nil => rfl
  | cons fallback later ih =>
    rw [List.map_cons, Query.chain_cons, ih]
    cases later with
    | nil => exact attempt_on r first fallback s
    | cons next later =>
      rw [pick, attempt_on, pick, pick, Option.bind_assoc]
      refine congrArg _ (funext ?_)
      rintro ⟨outcome, t⟩
      by_cases good : r.takes outcome = true
      · simp [good]
      · simp [good, pick]

/-- What going through candidates comes to is what one of them comes to, behind some that are passed. -/
theorem pick_eq_some_iff (r : Recovery) (candidate : Arg) (others : List Arg) (s : Store) (outcome : Except Error Value)
    (t : Store) :
    pick world bound ctx r candidate others s = some (outcome, t) ↔
      ∃ passed chosen later, candidate :: others = passed ++ chosen :: later ∧
        Chooses world bound ctx r s passed chosen (outcome, t) ∧ (r.takes outcome = true ∨ later = []) := by
  induction others generalizing candidate s with
  | nil =>
    rw [pick]
    constructor
    · intro ended
      exact ⟨[], candidate, [], rfl, ⟨s, .nil s, ended⟩, .inr rfl⟩
    · rintro ⟨passed, chosen, later, split, ⟨between, passes, ended⟩, -⟩
      cases passed with
      | nil =>
        cases split
        cases passes
        exact ended
      | cons head tail => simp at split
  | cons next more ih =>
    rw [pick]
    constructor
    · intro ended
      obtain ⟨⟨first, middle⟩, ran, rest⟩ := Option.bind_eq_some_iff.mp ended
      by_cases good : r.takes first = true
      · simp only [good, if_true, Option.some.injEq] at rest
        cases rest
        exact ⟨[], candidate, next :: more, rfl, ⟨s, .nil s, ran⟩, .inl good⟩
      · simp only [good, Bool.false_eq_true, if_false] at rest
        obtain ⟨passed, chosen, later, split, ⟨between, passes, ended⟩, enough⟩ := (ih next _).mp rest
        rw [Bool.not_eq_true] at good
        exact ⟨candidate :: passed, chosen, later, congrArg _ split, ⟨between, .cons ran good passes, ended⟩, enough⟩
    · rintro ⟨passed, chosen, later, split, ⟨between, passes, ended⟩, enough⟩
      cases passed with
      | nil =>
        cases split
        cases passes
        have good : r.takes outcome = true := enough.resolve_right (by simp)
        simp [ended, good]
      | cons head tail =>
        obtain ⟨rfl, remaining⟩ := List.cons.inj split
        cases passes with
        | cons ran refused others =>
          have onward := (ih next _).mpr ⟨tail, chosen, later, remaining, ⟨between, others, ended⟩, enough⟩
          simp [ran, refused, onward]

/-- No candidate among some reaches an instance that holds a cell. -/
def Misses (maps : Table Query) (candidates : List Arg) (cell : Nat) : Prop :=
  ∀ candidate ∈ candidates, ∀ part ∈ candidate.parts, ∀ node, part.Reaches maps [] node → node.cell? ≠ some cell

theorem drawn_of_attempt {candidate : Arg} {s t : Store} {outcome : Except Error Value}
    (ended : attempt world bound ctx candidate s = some (outcome, t)) {cell : Nat}
    (misses : Misses ctx.maps [candidate] cell) : t.drawn cell = s.drawn cell := by
  cases candidate with
  | value v =>
    cases ended
    rfl
  | query q =>
    exact Call.frame ⟨world, bound, q, ctx⟩ ended (misses _ List.mem_cons_self q (by simp))

theorem Passes.drawn {r : Recovery} {s t : Store} {candidates : List Arg} (passes : Passes world bound ctx r s candidates t)
    {cell : Nat} (misses : Misses ctx.maps candidates cell) : t.drawn cell = s.drawn cell := by
  induction passes with
  | nil s => rfl
  | cons ended refused others ih =>
    obtain ⟨first, later⟩ := List.forall_mem_cons.mp misses
    rw [ih later, drawn_leave, drawn_of_attempt ended (List.forall_mem_singleton.mpr first)]

/-- A chain of fallbacks comes to an end just where one of its candidates does behind others that are not good enough:
for `catch` they all fail, for `or` they fail or give null. Each of these is evaluated once, in order and in the context
of the chain, and the one that ends the chain is good enough or the last. No candidate behind it is evaluated: a cell that
the ones before miss does not move, and the end of one that is good enough is that of the chain whatever stands behind. -/
theorem chain_picks (r : Recovery) (world : World) (bound : Nat) (ctx : Context) (first : Query) (fallbacks : List Arg)
    (s : Store) (outcome : Except Error Value) (t : Store) :
    (((first.chain (fallbacks.map r.method)).eval world bound ctx).run.run s = some (outcome, t) ↔
      ∃ passed chosen later, .query first :: fallbacks = passed ++ chosen :: later ∧
        Chooses world bound ctx r s passed chosen (outcome, t) ∧ (r.takes outcome = true ∨ later = [])) ∧
    ∀ passed chosen, Chooses world bound ctx r s passed chosen (outcome, t) →
      (∀ cell, Misses ctx.maps (passed ++ [chosen]) cell → t.drawn cell = s.drawn cell) ∧
      (r.takes outcome = true → ∀ fallbacks' later, .query first :: fallbacks' = passed ++ chosen :: later →
        ((first.chain (fallbacks'.map r.method)).eval world bound ctx).run.run s = some (outcome, t)) := by
  have ends (fallbacks : List Arg) :
      ((first.chain (fallbacks.map r.method)).eval world bound ctx).run.run s = some (outcome, t) ↔
        ∃ passed chosen later, .query first :: fallbacks = passed ++ chosen :: later ∧
          Chooses world bound ctx r s passed chosen (outcome, t) ∧ (r.takes outcome = true ∨ later = []) := by
    rw [← pick_eq_some_iff, ← attempt_chain]
    rfl
  refine ⟨ends fallbacks, ?_⟩
  intro passed chosen chooses
  refine ⟨?_, ?_⟩
  · intro cell misses
    obtain ⟨between, passes, ended⟩ := chooses
    obtain ⟨ofPassed, ofChosen⟩ := List.forall_mem_append.mp misses
    rw [drawn_of_attempt ended ofChosen, passes.drawn ofPassed]
  · intro good fallbacks' later split
    exact (ends fallbacks').mpr ⟨passed, chosen, later, split, chooses, .inl good⟩

/-- A counter that is read in vain, then null, then the counter again, and a generator that is left alone. -/
theorem chain_picks_tally :
    ∃ t, ((misused.chain ([.value .null, .query tally, .query dice].map orElse.method)).eval .blank 0 {}).run.run {} =
      some (.ok (.int 2), t) ∧ t.drawn 1 = 0 := by
  let noField : Except Error Value := .error (.typeMismatch "object" .integer)
  obtain ⟨s, t, failed, counted⟩ : ∃ s t, attempt .blank 0 {} (.query misused) {} = some (noField, s) ∧
      attempt .blank 0 {} (.query tally) (orElse.leave noField s) = some (.ok (.int 2), t) := ⟨_, _, rfl, rfl⟩
  have chooses : Chooses .blank 0 {} orElse {} [.query misused, .value .null] (.query tally) (.ok (.int 2), t) :=
    ⟨_, .cons failed rfl (.cons rfl rfl (.nil _)), counted⟩
  have misses : Misses .empty [.query misused, .value .null, .query tally] 1 := by
    have throughout : ∀ q ∈ [misused, tally], q.Throughout .empty fun node => node.cell? ≠ some 1 := by
      intro q member
      refine Query.throughout_of_closed [misused, tally] member ?_ ?_ ?_
      · simp [Table.empty]
      · simp [misused, tally, Query.parts]
      · simp [misused, tally, Query.cell?]
    refine List.forall_mem_cons.mpr ⟨?_, List.forall_mem_cons.mpr ⟨by simp, List.forall_mem_singleton.mpr ?_⟩⟩
    · exact List.forall_mem_singleton.mpr (throughout misused (by simp))
    · exact List.forall_mem_singleton.mpr (throughout tally (by simp))
  obtain ⟨ends, others⟩ :=
    chain_picks orElse .blank 0 {} misused [.value .null, .query tally, .query dice] {} (.ok (.int 2)) t
  obtain ⟨unmoved, -⟩ := others _ _ chooses
  exact ⟨t, ends.mpr ⟨_, _, [.query dice], rfl, chooses, .inl rfl⟩, unmoved 1 misses⟩

end Recovery

/-! ## Other records -/

/-- A query at another record of the batch. -/
def Query.movedTo (i : Int64) (f : Query) : Query := .atRecord f (.value (.int i))

/-- An argument that is evaluated at another record, if it is evaluated. -/
def Arg.movedTo (i : Int64) : Arg → Arg
  | .value v => .value v
  | .query g => .query (g.movedTo i)

namespace Method

/-- A method with its fallback at another record. -/
def movedTo (i : Int64) : Method → Method
  | .apply map => .apply map
  | .catching fallback => .catching (fallback.movedTo i)
  | .orElse fallback => .orElse (fallback.movedTo i)
  | .atRecord index => .atRecord index
  | .get path => .get path
  | .inCase letters => .inCase letters

/-- A method that evaluates in its own context whatever it evaluates. -/
def Stays : Method → Prop
  | .apply _ | .atRecord _ => False
  | _ => True

end Method

section

variable {world : World} {enter : Query → Context → Eval Value} {ctx : Context} (few : ctx.batch.size < 2 ^ 63) {i : Int64}
include few

theorem Query.evalWith_movedTo (f : Query) :
    (f.movedTo i).evalWith world enter ctx = match addressed? ctx.batch.size i.toInt with
      | some place => f.evalWith world enter (ctx.atIndex place)
      | none => throw (.indexOutOfBounds i.toInt ctx.batch.size) := by
  have literal : (liftExcept (expectInt (.int i)) : Eval Int64) = pure i := rfl
  rw [movedTo, evalWith, Arg.resolveWith, pure_bind, literal, pure_bind, Context.resolveIndex_eq few]
  cases addressed? ctx.batch.size i.toInt with
  | some place => rfl
  | none => rfl

theorem Query.evalWith_movedTo_of_outside (outside : ¬ (-(ctx.batch.size : Int) ≤ i.toInt ∧ i.toInt < ctx.batch.size))
    (f : Query) : (f.movedTo i).evalWith world enter ctx = throw (.indexOutOfBounds i.toInt ctx.batch.size) := by
  rw [evalWith_movedTo few, addressed?_eq_none (by omega)]

variable {place : Nat} (found : addressed? ctx.batch.size i.toInt = some place)
include found

theorem Query.evalWith_movedTo_of_found (f : Query) :
    (f.movedTo i).evalWith world enter ctx = f.evalWith world enter (ctx.atIndex place) := by
  rw [evalWith_movedTo few, found]

theorem Arg.resolveWith_movedTo (arg : Arg) :
    (arg.movedTo i).resolveWith world enter ctx = arg.resolveWith world enter (ctx.atIndex place) := by
  cases arg with
  | value v => rw [movedTo, resolveWith, resolveWith]
  | query g => rw [movedTo, resolveWith, resolveWith, Query.evalWith_movedTo_of_found few found]

/-- A method that stays sees the other record through its receiver and its fallback alone. -/
theorem Method.evalWith_movedTo {method : Method} (stays : method.Stays) {f f' : Query}
    (same : f.evalWith world enter (ctx.atIndex place) = f'.evalWith world enter ctx) :
    (method.on f).evalWith world enter (ctx.atIndex place) = ((method.movedTo i).on f').evalWith world enter ctx := by
  cases method with
  | apply map => exact stays.elim
  | atRecord index => exact stays.elim
  | catching fallback =>
    rw [movedTo, on, on, Query.evalWith, Query.evalWith, same, Arg.resolveWith_movedTo few found]
  | orElse fallback =>
    rw [movedTo, on, on, Query.evalWith, Query.evalWith, same, Arg.resolveWith_movedTo few found]
  | get path => rw [movedTo, on, on, Query.evalWith, Query.evalWith, same]
  | inCase letters => rw [movedTo, on, on, Query.evalWith, Query.evalWith, same]

theorem Query.evalWith_chain_movedTo {methods : List Method} (stay : ∀ method ∈ methods, method.Stays) {f f' : Query}
    (same : f.evalWith world enter (ctx.atIndex place) = f'.evalWith world enter ctx) :
    (f.chain methods).evalWith world enter (ctx.atIndex place) =
      (f'.chain (methods.map (Method.movedTo i))).evalWith world enter ctx := by
  induction methods generalizing f f' with
  | nil => exact same
  | cons method later ih =>
    obtain ⟨stays, others⟩ := List.forall_mem_cons.mp stay
    rw [List.map_cons, chain_cons, chain_cons]
    exact ih others (Method.evalWith_movedTo few found stays same)

end

namespace Query

/-- To go to a record and evaluate a chain of methods there, all of which stay, is to go there at the query under the chain
and at every fallback: the same outcome and store from every store. A move behind a move is decided by the inner one, once
the outer one has found its record; an index of no record fails before anything is evaluated. No batch has 2 ^ 63 records:
memory does not hold them. -/
theorem chain_movedTo (world : World) (bound : Nat) (ctx : Context) (few : ctx.batch.size < 2 ^ 63) (i : Int64)
    (inside : -(ctx.batch.size : Int) ≤ i.toInt ∧ i.toInt < ctx.batch.size) (f : Query) :
    (∀ methods : List Method, (∀ method ∈ methods, method.Stays) →
      ((f.chain methods).movedTo i).eval world bound ctx =
        ((f.movedTo i).chain (methods.map (Method.movedTo i))).eval world bound ctx) ∧
    ∀ j : Int64,
      (-(ctx.batch.size : Int) ≤ j.toInt ∧ j.toInt < ctx.batch.size →
        ((f.movedTo i).movedTo j).eval world bound ctx = (f.movedTo i).eval world bound ctx) ∧
      (¬ (-(ctx.batch.size : Int) ≤ j.toInt ∧ j.toInt < ctx.batch.size) →
        ((f.movedTo i).movedTo j).eval world bound ctx = throw (.indexOutOfBounds j.toInt ctx.batch.size)) := by
  obtain ⟨place, found⟩ := addressed?_of_inside inside
  rw [eval_eq_evalWith]
  refine ⟨?_, ?_⟩
  · intro methods stay
    rw [evalWith_movedTo_of_found few found]
    exact evalWith_chain_movedTo few found stay (evalWith_movedTo_of_found few found f).symm
  · intro j
    refine ⟨?_, fun outside => evalWith_movedTo_of_outside few outside _⟩
    intro insideToo
    obtain ⟨between, foundToo⟩ := addressed?_of_inside insideToo
    -- The batch is the same at the record between, so the inner index means the same there.
    have fewThere : (ctx.atIndex between).batch.size < 2 ^ 63 := few
    rw [evalWith_movedTo_of_found few foundToo, evalWith_movedTo_of_found few found,
      evalWith_movedTo_of_found fewThere found]
    rfl

/-- The name that a record has in its metadata. -/
def named : Query := .metadataAt (.value (.string "name"))

/-- Two records with names. -/
def pair : Context where
  batch := #[{ body := [], metadata := Table.empty.put "name" "ann" },
    { body := [], metadata := Table.empty.put "name" "bob" }]

/-- The last name in capitals, behind a path into it that fails. -/
theorem chain_movedTo_pair :
    let capitals := (named.movedTo (-1)).chain [.get ["x"], .catching (.query (named.movedTo (-1))), .inCase .upper]
    (∃ t, (capitals.eval .blank 0 pair).run.run {} = some (.ok (.string "BOB"), t)) ∧
      (((named.movedTo (-1)).movedTo 0).eval .blank 0 pair).run.run {} = some (.ok (.string "bob"), {}) ∧
      (((named.movedTo (-1)).movedTo 2).eval .blank 0 pair).run.run {} = some (.error (.indexOutOfBounds 2 2), {}) := by
  intro capitals
  obtain ⟨chains, moves⟩ := chain_movedTo .blank 0 pair (by decide) (-1) (by decide) named
  have there := chains [.get ["x"], .catching (.query named), .inCase .upper] (by simp [Method.Stays])
  refine ⟨?_, ?_, ?_⟩
  · rw [show capitals.eval .blank 0 pair = _ from there.symm]
    exact ⟨_, rfl⟩
  · rw [(moves 0).1 (by decide)]
    rfl
  · rw [(moves 2).2 (by decide)]
    rfl

end Query

end RecordQuery
