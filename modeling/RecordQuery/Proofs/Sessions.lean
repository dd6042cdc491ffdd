import RecordQuery.Proofs.Lines

/-!
# Sessions

What the parts of a session do to the console, one equation for each, and what a run makes of the execution of its
query: it fails as that fails, and else writes all values (`Run.run_execute_of_read`).
-/

namespace RecordQuery

theorem mapError_ok {ε δ α : Type} (f : ε → δ) (a : α) : (Except.ok a : Except ε α).mapError f = .ok a := rfl

theorem mapError_error {ε δ α : Type} (f : ε → δ) (e : ε) : (Except.error e : Except ε α).mapError f = .error (f e) := rfl

theorem eq_ok_of_mapError {ε δ α : Type} {f : ε → δ} {outcome : Except ε α} {a : α} (same : outcome.mapError f = .ok a) :
    outcome = .ok a := by
  cases outcome with
  | error e => cases same
  | ok b =>
    cases same
    rfl

namespace Session

variable {α β : Type}

/-- A session goes on from the console that its first part leaves, unless that part fails. -/
theorem run_bind (x : Session α) (f : α → Session β) (console : Console) :
    (x >>= f).run.run console =
      (x.run.run console).bind fun ended =>
        match ended.1 with
        | .ok a => (f a).run.run ended.2
        | .error failure => some (.error failure, ended.2) := by
  rw [ExceptT.run_bind, StateT.run_bind]
  refine bind_congr fun ended => ?_
  obtain ⟨outcome, after⟩ := ended
  cases outcome <;> rfl

theorem run_except (outcome : Except Failure α) (console : Console) :
    (liftExcept outcome : Session α).run.run console = some (outcome, console) := by
  cases outcome <;> rfl

theorem run_note (entries : Array LogEntry) (console : Console) :
    (note entries).run.run console = some (.ok (), { console with log := console.log ++ entries }) := rfl

theorem run_writeLine (line : String) (console : Console) :
    (writeLine line).run.run console = some (.ok (), { console with output := console.output ++ line ++ "\n" }) := rfl

/-- Lines are added to the output. -/
theorem run_writeLines (texts : List String) (console : Console) :
    (writeLines texts).run.run console = some (.ok (), { console with output := console.output ++ linesText texts }) := by
  induction texts generalizing console with
  | nil => simp [writeLines, linesText]
  | cons text texts ih =>
    have step : writeLines (text :: texts) = writeLine text >>= fun _ => writeLines texts := rfl
    rw [step, run_bind, run_writeLine, Option.bind_some]
    simp only [ih, linesText_cons, String.append_assoc]

/-- Building ends with what is built or with the failure to build it, and leaves its log. -/
theorem run_build (x : Build α) (console : Console) :
    (Session.build x).run.run console =
      some ((x.run.run {}).1.mapError Failure.building, { console with log := console.log ++ (x.run.run {}).2.log }) := by
  show (note _ >>= fun _ => liftExcept _ : Session α).run.run console = _
  rw [run_bind, run_note, Option.bind_some]
  exact run_except _ _

/-- Evaluating ends if the evaluation does, with its value or with the failure of it, and leaves its log. -/
theorem run_evaluate (x : Eval α) (console : Console) :
    (Session.evaluate x).run.run console = (x.run.run {}).map fun ended =>
      (ended.1.mapError Failure.executing, { console with log := console.log ++ ended.2.log }) := by
  unfold Session.evaluate
  cases x.run.run {} with
  | none => rfl
  | some ended =>
    show (note _ >>= fun _ => liftExcept _ : Session α).run.run console = _
    rw [run_bind, run_note, Option.bind_some]
    exact run_except _ _

end Session

namespace Run

/-- What a run makes of an execution, from the console before it: the values are written if it has a result. -/
def conclude (world : World) (before : Console) : Except Error ExecutionResult × Store → Except Failure (Option ExecutionStats) × Console
  | (.ok result, store) =>
    (.ok result.stats, ⟨before.output ++ linesText (world.texts result.values), before.log ++ store.log⟩)
  | (.error e, store) => (.error (.executing e), ⟨before.output, before.log ++ store.log⟩)

/-- What is in the log when a query is built. -/
def builtLog (q : Query) (bench : Workbench) : Array LogEntry := bench.log ++ #[⟨.debug, .runner, "built query " ++ q.describe⟩]

/-- What is in the log when the records are read. -/
def readLog (q : Query) (bench : Workbench) (batch : Batch) : Array LogEntry :=
  builtLog q bench ++ #[⟨.info, .runner, "read " ++ toString batch.size ++ " records"⟩]

variable {world : World} {r : Registry} {settings : Settings} {d : Document} {input : FileContent}
  {q : Query} {maps : Table Query} {bench : Workbench}

/-- A run whose query is built and whose records are read is what it makes of the execution over these. -/
theorem run_execute_of_read {batch : Batch} (built : (d.build r).run.run {} = (.ok (q, maps), bench))
    (read : readRecords input = .ok batch) (console : Console) :
    (Run.execute world r settings d input).run.run console =
      ((RecordQuery.execute world nestingBound settings.executorConfig maps q batch).run.run {}).map
        (conclude world { console with log := console.log ++ readLog q bench batch }) := by
  unfold Run.execute
  simp only [Session.run_bind, Session.run_build, built, Session.run_note, read, Session.run_except, Session.run_evaluate,
    mapError_ok, Option.bind_some]
  cases (RecordQuery.execute world nestingBound settings.executorConfig maps q batch).run.run {} with
  | none => rfl
  | some ended =>
    obtain ⟨outcome, store⟩ := ended
    cases outcome with
    | error e => simp [mapError_error, conclude, readLog, builtLog, Array.append_assoc]
    | ok result => simp [mapError_ok, Session.run_writeLines, conclude, readLog, builtLog, Array.append_assoc]

/-- A run whose query is built and whose records cannot be read fails for that, having evaluated nothing. -/
theorem run_execute_of_unread {fault : ReadFault} (built : (d.build r).run.run {} = (.ok (q, maps), bench))
    (unread : readRecords input = .error fault) (console : Console) :
    (Run.execute world r settings d input).run.run console =
      some (.error (.reading fault), { console with log := console.log ++ builtLog q bench }) := by
  unfold Run.execute
  simp only [Session.run_bind, Session.run_build, built, Session.run_note, unread, Session.run_except, mapError_ok,
    mapError_error, Option.bind_some]
  simp [builtLog]

end Run

end RecordQuery
