import RecordQuery.Execution
import RecordQuery.Proofs.Alike

/-!
# The error modes

What the three error modes make of a batch, told by the outcomes of its records: the values or errors of
evaluating the records one after another, whatever fails (`outcomesFrom`). The lenient modes evaluate
all records and differ in their warnings alone; the strict mode gives the same as long as no record
fails, and else ends with the first failure, before any later record is evaluated
(`execute_modes_agree`).
-/

namespace RecordQuery

/-- The evaluation of the record at an index, as an execution makes it. -/
def Query.evalAt (world : World) (bound : Nat) (vars : Table Value) (maps : Table Query) (batch : Batch)
    (q : Query) (index : Nat) : Eval Value :=
  q.eval world bound (({ batch, vars, maps } : Context).atIndex index)

theorem Query.evalAt_alike (world : World) (bound : Nat) (vars : Table Value) (maps : Table Query)
    (batch : Batch) (q : Query) (index : Nat) :
    Eval.Alike Store.SameProgress (q.evalAt world bound vars maps batch index)
      (q.evalAt world bound vars maps batch index) :=
  q.eval_alike_of_sameProgress world bound _

/-- The outcomes of a number of records from an index on, all evaluated in order. -/
def outcomesFrom (evaluate : Nat → Eval Value) : Nat → Nat → StateT Store Option (List (Except Error Value))
  | 0, _ => pure []
  | count + 1, index => do
    let outcome ← (evaluate index).run
    let later ← outcomesFrom evaluate count (index + 1)
    pure (outcome :: later)

/-- The value that stands for a record: null if it failed. -/
def valueOf : Except Error Value → Value
  | .ok value => value
  | .error _ => .null

/-- Whether a record failed. -/
def failed : Except Error Value → Bool
  | .ok _ => false
  | .error _ => true

/-- The warnings about the records that failed, where the first outcome is that of the record at an index. Each tells the
index of the record and the error. -/
def warningsFrom : Nat → List (Except Error Value) → List String
  | _, [] => []
  | index, .ok _ :: later => warningsFrom (index + 1) later
  | index, .error e :: later =>
    ("record " ++ toString index ++ ": " ++ e.message) :: warningsFrom (index + 1) later

/-- What a lenient mode makes of the outcomes of records. -/
def Outcomes.ofList (mode : ErrorMode) (index : Nat) (outcomes : List (Except Error Value)) : Outcomes where
  values := outcomes.map valueOf
  warnings := if mode = .collect then warningsFrom index outcomes else []
  failures := outcomes.countP failed

theorem warningsFrom_eq_nil {index : Nat} {outcomes : List (Except Error Value)} :
    warningsFrom index outcomes = [] ↔ ∀ outcome ∈ outcomes, failed outcome = false := by
  induction outcomes generalizing index with
  | nil => simp [warningsFrom]
  | cons outcome later ih => cases outcome <;> simp [warningsFrom, failed, ih]

/-- The first warning is about the first record that failed. -/
theorem warningsFrom_eq_cons {index : Nat} {outcomes : List (Except Error Value)} {first : String}
    {rest : List String} (warned : warningsFrom index outcomes = first :: rest) :
    ∃ earlier e later, outcomes = earlier ++ .error e :: later ∧
      (∀ outcome ∈ earlier, failed outcome = false) ∧
      first = "record " ++ toString (index + earlier.length) ++ ": " ++ e.message := by
  induction outcomes generalizing index with
  | nil => simp [warningsFrom] at warned
  | cons outcome outcomes ih =>
    cases outcome with
    | ok value =>
      obtain ⟨earlier, e, later, rfl, succeeded, rfl⟩ := ih warned
      refine ⟨.ok value :: earlier, e, later, rfl, ?_, ?_⟩
      · simpa [failed] using succeeded
      · rw [List.length_cons, Nat.add_assoc, Nat.add_comm 1]
    | error e =>
      obtain ⟨rfl, -⟩ := List.cons.inj warned
      exact ⟨[], e, outcomes, rfl, by simp, rfl⟩

namespace Outcomes

theorem succeed_ofList (mode : ErrorMode) (index : Nat) (value : Value) (later : List (Except Error Value)) :
    (ofList mode (index + 1) later).succeed value = ofList mode index (.ok value :: later) := by
  simp [ofList, succeed, warningsFrom, valueOf, failed]

theorem fail_ofList_collect (index : Nat) (e : Error) (later : List (Except Error Value)) :
    (ofList .collect (index + 1) later).fail (some (recordWarning index e)) = ofList .collect index (.error e :: later) := by
  simp [ofList, fail, warningsFrom, recordWarning, valueOf, failed, List.countP_cons]

theorem fail_ofList_ignore (index : Nat) (e : Error) (later : List (Except Error Value)) :
    (ofList .ignore (index + 1) later).fail none = ofList .ignore index (.error e :: later) := by
  simp [ofList, fail, valueOf, failed, List.countP_cons]

end Outcomes

section

variable {evaluate : Nat → Eval Value}

/-! ## Outcomes one after another -/

theorem run_outcomesFrom_succ (count index : Nat) (s : Store) :
    (outcomesFrom evaluate (count + 1) index).run s =
      ((evaluate index).run.run s).bind fun (outcome, t) =>
        ((outcomesFrom evaluate count (index + 1)).run t).bind fun (later, u) => some (outcome :: later, u) := by
  rw [outcomesFrom, StateT.run_bind]
  rfl

theorem outcomesFrom_succ_eq_some {count index : Nat} {s u : Store} {outcomes : List (Except Error Value)} :
    (outcomesFrom evaluate (count + 1) index).run s = some (outcomes, u) ↔
      ∃ outcome t later, (evaluate index).run.run s = some (outcome, t) ∧
        (outcomesFrom evaluate count (index + 1)).run t = some (later, u) ∧ outcomes = outcome :: later := by
  rw [run_outcomesFrom_succ]
  simp only [Option.bind_eq_some_iff, Prod.exists, Option.some.injEq, Prod.mk.injEq]
  constructor
  · rintro ⟨outcome, t, evaluated, later, _, rest, rfl, rfl⟩
    exact ⟨outcome, t, later, evaluated, rest, rfl⟩
  · rintro ⟨outcome, t, later, evaluated, rest, rfl⟩
    exact ⟨outcome, t, evaluated, later, u, rest, rfl, rfl⟩

theorem length_of_outcomesFrom {count index : Nat} {s t : Store} {outcomes : List (Except Error Value)}
    (ended : (outcomesFrom evaluate count index).run s = some (outcomes, t)) : outcomes.length = count := by
  induction count generalizing index s outcomes with
  | zero =>
    obtain ⟨rfl, rfl⟩ : [] = outcomes ∧ s = t := by simpa [outcomesFrom] using ended
    rfl
  | succ count ih =>
    obtain ⟨outcome, _, later, -, rest, rfl⟩ := outcomesFrom_succ_eq_some.mp ended
    rw [List.length_cons, ih rest]

/-- Records can be evaluated in two goes. -/
theorem outcomesFrom_add_eq_some {first second index : Nat} {s u : Store} {outcomes : List (Except Error Value)} :
    (outcomesFrom evaluate (first + second) index).run s = some (outcomes, u) ↔
      ∃ before t after, (outcomesFrom evaluate first index).run s = some (before, t) ∧
        (outcomesFrom evaluate second (index + first)).run t = some (after, u) ∧ outcomes = before ++ after := by
  induction first generalizing index s outcomes with
  | zero =>
    simp only [Nat.zero_add, Nat.add_zero, outcomesFrom]
    constructor
    · intro ended
      exact ⟨[], s, outcomes, rfl, ended, rfl⟩
    · rintro ⟨before, t, after, started, rest, rfl⟩
      obtain ⟨rfl, rfl⟩ : [] = before ∧ s = t := by simpa using started
      exact rest
  | succ first ih =>
    have place : index + 1 + first = index + (first + 1) := by omega
    rw [Nat.add_right_comm, outcomesFrom_succ_eq_some, ← place]
    constructor
    · rintro ⟨outcome, t, later, evaluated, remaining, rfl⟩
      obtain ⟨before, v, after, started, rest, rfl⟩ := ih.mp remaining
      have extended := outcomesFrom_succ_eq_some.mpr ⟨outcome, t, before, evaluated, started, rfl⟩
      exact ⟨outcome :: before, v, after, extended, rest, rfl⟩
    · rintro ⟨_, v, after, extended, rest, rfl⟩
      obtain ⟨outcome, t, before, evaluated, started, rfl⟩ := outcomesFrom_succ_eq_some.mp extended
      exact ⟨outcome, t, before ++ after, evaluated, ih.mpr ⟨before, v, after, started, rest, rfl⟩, rfl⟩

/-! ## Executions -/

/-- How an execution goes on after its first record. -/
theorem run_executeFrom_succ (mode : ErrorMode) (count index : Nat) (s : Store) :
    (executeFrom mode evaluate (count + 1) index).run.run s =
      ((evaluate index).run.run s).bind fun (outcome, t) =>
        match outcome with
        | .ok value => ((executeFrom mode evaluate count (index + 1)) >>= fun after => pure (after.succeed value)).run.run t
        | .error e =>
          match mode with
          | .strict => some (.error e, t)
          | .collect =>
            (Eval.note .warn .executor ("record " ++ toString index ++ " failed: " ++ e.message) >>= fun _ =>
              executeFrom .collect evaluate count (index + 1) >>= fun after =>
                pure (after.fail (some (recordWarning index e)))).run.run t
          | .ignore => (executeFrom .ignore evaluate count (index + 1) >>= fun after => pure (after.fail none)).run.run t := by
  rw [executeFrom, run_bind, Eval.run_attempt, Option.bind_assoc]
  refine congrArg (Option.bind _) (funext fun (outcome, t) => ?_)
  cases outcome with
  | ok value => rfl
  | error e => cases mode <;> rfl

theorem run_executeFrom_of_ok (mode : ErrorMode) {count index : Nat} {s t : Store} {value : Value}
    (evaluated : (evaluate index).run.run s = some (.ok value, t)) :
    (executeFrom mode evaluate (count + 1) index).run.run s =
      (executeFrom mode evaluate count (index + 1) >>= fun after => pure (after.succeed value)).run.run t := by
  rw [run_executeFrom_succ, evaluated]
  rfl

theorem run_executeFrom_strict_of_error {count index : Nat} {s t : Store} {e : Error}
    (evaluated : (evaluate index).run.run s = some (.error e, t)) :
    (executeFrom .strict evaluate (count + 1) index).run.run s = some (.error e, t) := by
  rw [run_executeFrom_succ, evaluated]
  rfl

/-- A lenient execution ends if the evaluations of all records do, with what it makes of their outcomes. -/
theorem executeFrom_lenient (mode : ErrorMode) (lenient : mode ≠ .strict)
    (oblivious : ∀ index, Eval.Alike Store.SameProgress (evaluate index) (evaluate index)) (count index : Nat)
    {s t : Store} (same : s.SameProgress t) :
    Option.Rel (fun ended all => ended.1 = .ok (.ofList mode index all.1) ∧ ended.2.SameProgress all.2)
      ((executeFrom mode evaluate count index).run.run s) ((outcomesFrom evaluate count index).run t) := by
  induction count generalizing index s t with
  | zero => exact .some ⟨by simp [Outcomes.ofList, warningsFrom], same⟩
  | succ count ih =>
    -- The records after the first, to whose outcomes that of the first is added.
    have onward {f : Outcomes → Outcomes} {outcome : Except Error Value} {s t : Store} (same : s.SameProgress t)
        (added : ∀ later, f (.ofList mode (index + 1) later) = .ofList mode index (outcome :: later)) :
        Option.Rel (fun ended all => ended.1 = .ok (.ofList mode index all.1) ∧ ended.2.SameProgress all.2)
          ((executeFrom mode evaluate count (index + 1) >>= fun after => pure (f after)).run.run s)
          (((outcomesFrom evaluate count (index + 1)).run t).bind fun (later, u) => some (outcome :: later, u)) := by
      rw [run_bind]
      refine rel_bind (ih (index + 1) same) ?_
      rintro ⟨_, s⟩ ⟨later, t⟩ ⟨rfl, same⟩
      exact .some ⟨congrArg Except.ok (added later), same⟩
    rw [run_executeFrom_succ, run_outcomesFrom_succ]
    refine rel_bind (oblivious index s t same) ?_
    rintro ⟨outcome, s⟩ ⟨_, t⟩ ⟨rfl, same⟩
    cases outcome with
    | ok value =>
      exact onward same (Outcomes.succeed_ofList mode index value)
    | error e =>
      cases mode with
      | strict => exact absurd rfl lenient
      | collect =>
        -- The warning that is written to the log leaves the progress as it is.
        have noted (entry : LogEntry) : Store.SameProgress { s with log := s.log.push entry } t := same
        exact onward (noted _) (Outcomes.fail_ofList_collect index e)
      | ignore => exact onward same (Outcomes.fail_ofList_ignore index e)

/-- A strict execution in which no record fails has all their values. -/
theorem executeFrom_strict_of_succeeded {count index : Nat} {s t : Store} {outcomes : List (Except Error Value)}
    (ended : (outcomesFrom evaluate count index).run s = some (outcomes, t))
    (succeeded : ∀ outcome ∈ outcomes, failed outcome = false) :
    (executeFrom .strict evaluate count index).run.run s = some (.ok { values := outcomes.map valueOf }, t) := by
  induction count generalizing index s outcomes with
  | zero =>
    obtain ⟨rfl, rfl⟩ : [] = outcomes ∧ s = t := by simpa [outcomesFrom] using ended
    rfl
  | succ count ih =>
    obtain ⟨outcome, u, later, evaluated, rest, rfl⟩ := outcomesFrom_succ_eq_some.mp ended
    cases outcome with
    | error e => simpa [failed] using succeeded (.error e) (by simp)
    | ok value =>
      have remaining := ih rest fun outcome member => succeeded outcome (by simp [member])
      rw [run_executeFrom_of_ok .strict evaluated, run_bind, remaining]
      rfl

/-- A strict execution stops at the first record that fails, with the store that its evaluation leaves. -/
theorem executeFrom_strict_stops {count index : Nat} {s t : Store} {earlier : List (Except Error Value)} {e : Error}
    (within : earlier.length < count) (succeeded : ∀ outcome ∈ earlier, failed outcome = false)
    (ended : (outcomesFrom evaluate (earlier.length + 1) index).run s = some (earlier ++ [.error e], t)) :
    (executeFrom .strict evaluate count index).run.run s = some (.error e, t) := by
  induction earlier generalizing count index s with
  | nil =>
    obtain ⟨count, rfl⟩ := Nat.exists_eq_add_of_lt within
    obtain ⟨outcome, u, later, evaluated, rest, equal⟩ := outcomesFrom_succ_eq_some.mp ended
    obtain ⟨rfl, rfl⟩ := List.cons.inj equal
    obtain rfl : u = t := by simpa [outcomesFrom] using rest
    exact run_executeFrom_strict_of_error evaluated
  | cons outcome earlier ih =>
    obtain ⟨count, rfl⟩ := Nat.exists_eq_add_of_lt within
    obtain ⟨_, u, _, evaluated, rest, equal⟩ := outcomesFrom_succ_eq_some.mp ended
    obtain ⟨rfl, rfl⟩ := List.cons.inj equal
    cases outcome with
    | error e => simpa [failed] using succeeded (.error e) (by simp)
    | ok value =>
      have fewer : earlier.length < (Except.ok value :: earlier).length + count := by
        rw [List.length_cons]
        omega
      have remaining := ih fewer (fun outcome member => succeeded outcome (by simp [member])) rest
      rw [run_executeFrom_of_ok .strict evaluated, run_bind, remaining]
      rfl

/-- The evaluations up to a record are those that come first when more records are evaluated. -/
theorem outcomesFrom_take {count index : Nat} {s t : Store} {earlier later : List (Except Error Value)}
    (ended : (outcomesFrom evaluate count index).run s = some (earlier ++ later, t)) :
    ∃ u, (outcomesFrom evaluate earlier.length index).run s = some (earlier, u) := by
  have total : count = earlier.length + later.length := by
    rw [← length_of_outcomesFrom ended, List.length_append]
  rw [total] at ended
  obtain ⟨before, u, after, started, -, equal⟩ := outcomesFrom_add_eq_some.mp ended
  obtain ⟨rfl, -⟩ := List.append_inj equal (length_of_outcomesFrom started).symm
  exact ⟨u, started⟩

/-! ## Executions of a query -/

theorem run_execute (world : World) (bound : Nat) (config : ExecutorConfig) (maps : Table Query) (q : Query)
    (batch : Batch) (s : Store) :
    (execute world bound config maps q batch).run.run s =
      ((executeFrom config.mode (q.evalAt world bound config.vars maps batch) batch.size 0).run.run s).bind
        fun (ended, t) =>
          match ended with
          | .ok outcomes =>
            some (.ok
              { values := outcomes.values
                stats := if config.collectStats then some ⟨batch.size, outcomes.failures⟩ else none
                warnings := outcomes.warnings },
              { t with log := t.log.push ⟨.debug, .executor, "executed " ++ q.describe ++ " over " ++
                toString batch.size ++ " records, " ++ toString outcomes.failures ++ " failed"⟩ })
          | .error e => some (.error e, t) := by
  rw [execute, run_bind]
  refine congrArg (Option.bind _) (funext fun (ended, t) => ?_)
  cases ended <;> rfl

/-- A lenient execution of a query gives what its mode makes of the outcomes of all records. -/
theorem execute_lenient (mode : ErrorMode) (lenient : mode ≠ .strict) (world : World) (bound : Nat)
    (vars : Table Value) (collectStats : Bool) (maps : Table Query) (q : Query) (batch : Batch) (s : Store) :
    Option.Rel
      (fun ended all => ended.2.SameProgress all.2 ∧ ended.1 = .ok
        { values := all.1.map valueOf
          stats := if collectStats then some ⟨batch.size, all.1.countP failed⟩ else none
          warnings := if mode = .collect then warningsFrom 0 all.1 else [] })
      ((execute world bound { mode, collectStats, vars } maps q batch).run.run s)
      ((outcomesFrom (q.evalAt world bound vars maps batch) batch.size 0).run s) := by
  have ofRecords := executeFrom_lenient mode lenient (q.evalAt_alike world bound vars maps batch) batch.size 0
    (Store.SameProgress.refl s)
  rw [run_execute]
  rw [← Option.bind_fun_some ((outcomesFrom (q.evalAt world bound vars maps batch) batch.size 0).run s)]
  refine rel_bind ofRecords ?_
  rintro ⟨_, t⟩ ⟨outcomes, u⟩ ⟨rfl, same⟩
  exact .some ⟨same, rfl⟩

theorem execute_lenient_eq_some {mode : ErrorMode} (lenient : mode ≠ .strict) {world : World} {bound : Nat}
    {vars : Table Value} (collectStats : Bool) {maps : Table Query} {q : Query} {batch : Batch} {s after : Store}
    {outcomes : List (Except Error Value)}
    (ended : (outcomesFrom (q.evalAt world bound vars maps batch) batch.size 0).run s = some (outcomes, after)) :
    ∃ t, t.SameProgress after ∧
      (execute world bound { mode, collectStats, vars } maps q batch).run.run s = some (.ok
        { values := outcomes.map valueOf
          stats := if collectStats then some ⟨batch.size, outcomes.countP failed⟩ else none
          warnings := if mode = .collect then warningsFrom 0 outcomes else [] }, t) := by
  have ofRecords := execute_lenient mode lenient world bound vars collectStats maps q batch s
  obtain ⟨⟨_, t⟩, executed, same, rfl⟩ := some_left_of_rel ofRecords ended
  exact ⟨t, same, executed⟩

/-- A strict execution over records of which none fails. -/
theorem execute_strict_of_succeeded {world : World} {bound : Nat} {vars : Table Value} (collectStats : Bool)
    {maps : Table Query} {q : Query} {batch : Batch} {s after : Store} {outcomes : List (Except Error Value)}
    (ended : (outcomesFrom (q.evalAt world bound vars maps batch) batch.size 0).run s = some (outcomes, after))
    (succeeded : ∀ outcome ∈ outcomes, failed outcome = false) :
    ∃ t, t.SameProgress after ∧
      (execute world bound { mode := .strict, collectStats, vars } maps q batch).run.run s = some (.ok
        { values := outcomes.map valueOf
          stats := if collectStats then some ⟨batch.size, 0⟩ else none
          warnings := [] }, t) := by
  rw [run_execute, executeFrom_strict_of_succeeded ended succeeded]
  -- The store differs from the one that the evaluations leave by an entry of the log.
  refine ⟨_, ?_, rfl⟩
  exact Store.SameProgress.refl after

/-- A strict execution over a batch with a record that fails after others that do not. -/
theorem execute_strict_stops {world : World} {bound : Nat} {vars : Table Value} (collectStats : Bool)
    {maps : Table Query} {q : Query} {batch : Batch} {s t : Store} {earlier : List (Except Error Value)} {e : Error}
    (within : earlier.length < batch.size) (succeeded : ∀ outcome ∈ earlier, failed outcome = false)
    (ended : (outcomesFrom (q.evalAt world bound vars maps batch) (earlier.length + 1) 0).run s =
      some (earlier ++ [.error e], t)) :
    (execute world bound { mode := .strict, collectStats, vars } maps q batch).run.run s = some (.error e, t) := by
  rw [run_execute, executeFrom_strict_stops within succeeded ended]
  rfl

/-- If records fail, a strict execution ends with the error of the one that the first warning is about, and with
the store that the evaluations up to this record leave. -/
theorem execute_strict_of_warned {world : World} {bound : Nat} {vars : Table Value} (collectStats : Bool)
    {maps : Table Query} {q : Query} {batch : Batch} {s after : Store} {outcomes : List (Except Error Value)}
    (ended : (outcomesFrom (q.evalAt world bound vars maps batch) batch.size 0).run s = some (outcomes, after))
    {first : String} {rest : List String} (warned : warningsFrom 0 outcomes = first :: rest) :
    ∃ earlier e later t, outcomes = earlier ++ .error e :: later ∧
      first = "record " ++ toString earlier.length ++ ": " ++ e.message ∧
      (outcomesFrom (q.evalAt world bound vars maps batch) (earlier.length + 1) 0).run s =
        some (earlier ++ [.error e], t) ∧
      (execute world bound { mode := .strict, collectStats, vars } maps q batch).run.run s = some (.error e, t) := by
  obtain ⟨earlier, e, later, rfl, succeeded, rfl⟩ := warningsFrom_eq_cons warned
  have within : earlier.length < batch.size := by
    rw [← length_of_outcomesFrom ended, List.length_append, List.length_cons]
    omega
  have split : earlier ++ .error e :: later = (earlier ++ [.error e]) ++ later := by simp
  rw [split] at ended
  obtain ⟨t, upTo⟩ := outcomesFrom_take ended
  rw [List.length_append, List.length_singleton] at upTo
  refine ⟨earlier, e, later, t, rfl, ?_, upTo, execute_strict_stops collectStats within succeeded upTo⟩
  rw [Nat.zero_add]

/-- A strict execution has a result exactly if no record fails. -/
theorem execute_strict_succeeds_iff {world : World} {bound : Nat} {vars : Table Value} (collectStats : Bool)
    {maps : Table Query} {q : Query} {batch : Batch} {s after : Store} {outcomes : List (Except Error Value)}
    (ended : (outcomesFrom (q.evalAt world bound vars maps batch) batch.size 0).run s = some (outcomes, after)) :
    (∃ result t, (execute world bound { mode := .strict, collectStats, vars } maps q batch).run.run s =
      some (.ok result, t)) ↔ ∀ outcome ∈ outcomes, failed outcome = false := by
  constructor
  · rintro ⟨result, t, executed⟩
    refine warningsFrom_eq_nil.mp (?_ : warningsFrom 0 outcomes = [])
    cases warned : warningsFrom 0 outcomes with
    | nil => rfl
    | cons first rest =>
      obtain ⟨earlier, e, later, u, -, -, -, stopped⟩ := execute_strict_of_warned collectStats ended warned
      cases executed.symm.trans stopped
  · intro succeeded
    obtain ⟨t, -, executed⟩ := execute_strict_of_succeeded collectStats ended succeeded
    exact ⟨_, t, executed⟩

end

end RecordQuery
