import RecordQuery.Proofs.Rereading

/-!
# Framing

How an input is cut into lines does not show in what a run makes of it: from whatever layout of its texts, a run is
the execution over these texts as records, with one line written for each (`Run.execute_framing`).
-/

namespace RecordQuery

theorem Eval.Ensures.any {α : Type} (x : Eval α) : x.Ensures (fun _ => True) fun _ => True := by
  intro s outcome t _
  cases outcome <;> trivial

theorem size_recordsOf (texts : List String) : (recordsOf texts).size = texts.length := by
  simp [recordsOf]

/-- An execution gives a value for each record. -/
theorem length_of_execute {world : World} {bound : Nat} {config : ExecutorConfig} {maps : Table Query} {q : Query} {batch : Batch}
    {s t : Store} {result : ExecutionResult}
    (executed : (execute world bound config maps q batch).run.run s = some (.ok result, t)) : result.values.length = batch.size :=
  (execute_ensures trivial (fun _ => .any _) s _ t executed).1

namespace Run

/-- A run over texts that are laid out on lines in any way, with any blank lines around them, is the execution over
one record for each of them, in order: it does not end if that does not, it fails with the error of that, with
nothing written, and it has the statistics of that and writes each of its values on one line, of which there are as
many as texts; the lines stand for the values in any world that writes texts of values. A run over an input with a line
that is not the bytes of a text fails once its query is built: what follows in the log, if anything was evaluated, is
missing there. -/
theorem execute_framing (world : World) (r : Registry) (settings : Settings) {d : Document} {q : Query} {maps : Table Query}
    {bench : Workbench} (built : (d.build r).run.run {} = (.ok (q, maps), bench)) (console : Console) :
    (∀ texts input, LaidOut texts input →
      let execution := (RecordQuery.execute world nestingBound settings.executorConfig maps q (recordsOf texts)).run.run {}
      let run := (Run.execute world r settings d (.ok input)).run.run console
      (execution = none → run = none) ∧
      (∀ e store, execution = some (.error e, store) → ∃ log, run = some (.error (.executing e), ⟨console.output, log⟩)) ∧
      ∀ result store, execution = some (.ok result, store) →
        result.values.length = texts.length ∧
        (∀ v ∈ result.values, '\n' ∉ v.write.toList ∧ ∀ text, v.Written text → '\n' ∉ text.toList) ∧
        (world.Faithful → (∀ v ∈ result.values, v.Canonical) →
          List.Forall₂ Value.Written result.values (world.texts result.values)) ∧
        ∃ log, run = some (.ok result.stats, ⟨console.output ++ linesText (world.texts result.values), log⟩)) ∧
    ∀ line input, IsLine line input → (∀ text, Utf8.encode text ≠ line) →
      (Run.execute world r settings d (.ok input)).run.run console =
        some (.error (.reading .notText), { console with log := console.log ++ builtLog q bench }) := by
  constructor
  · intro texts input layout execution run
    have concluded : run = execution.map (conclude world { console with log := console.log ++ readLog q bench (recordsOf texts) }) :=
      run_execute_of_read built (readRecords_of_laidOut layout) console
    refine ⟨?_, ?_, ?_⟩
    · intro endless
      rw [concluded, endless, Option.map_none]
    · intro e store executed
      rw [concluded, executed]
      exact ⟨_, rfl⟩
    · intro result store executed
      have many : result.values.length = texts.length := (length_of_execute executed).trans (size_recordsOf texts)
      have oneLine {text : String} (printable : Printable text) : '\n' ∉ text.toList := fun feed =>
        absurd (printable _ feed) (by decide)
      refine ⟨many, fun v _ => ⟨oneLine v.printable_write, fun text written => oneLine written.printable⟩,
        fun faithful canonical => faithful.texts canonical, ?_⟩
      rw [concluded, executed]
      exact ⟨_, rfl⟩
  · intro line input isLine noText
    exact run_execute_of_unread built (readRecords_of_line isLine noText) console

/-- Two records with blank lines of several kinds around them, the last one not ended, and an input with a line that
is no text behind one that is. -/
theorem execute_framing_mixed :
    let run (input : Bytes) := (Run.execute .blank .standard {} constantDocument (.ok input)).run.run {}
    (∃ log, run (Utf8.encode "\u3000\r\na\r\n \r\n\nb") = some (.ok none, ⟨"\"\\n\"\n\"\\n\"\n", log⟩)) ∧
    ∃ console, run [97, 10, 255, 13, 10] = some (.error (.reading .notText), console) ∧ console.output = "" := by
  intro run
  have built : (constantDocument.build .standard).run.run {} = (.ok (.literal (.string "\n"), .empty), {}) := rfl
  obtain ⟨laidOut, unread⟩ := execute_framing .blank .standard {} built {}
  constructor
  · have layout : LaidOut ["a", "b"] (Utf8.encode "\u3000\r\na\r\n \r\n\nb") := by
      have wide : BlankLine "\u3000" := ⟨by decide, by decide⟩
      have narrow : BlankLine " " := ⟨by decide, by decide⟩
      have empty : BlankLine "" := ⟨by decide, by decide⟩
      have first : RecordLine "a" := ⟨by decide, by decide, by decide⟩
      have second : RecordLine "b" := ⟨by decide, by decide, by decide⟩
      exact .blank wide .returnFeed (.record first .returnFeed (.blank narrow .returnFeed (.blank empty .feed (.last second))))
    obtain ⟨-, -, ends⟩ := laidOut ["a", "b"] _ layout
    obtain ⟨-, -, -, log, ran⟩ := ends ⟨[.string "\n", .string "\n"], none, []⟩ _ rfl
    exact ⟨log, ran⟩
  · have isLine : IsLine [255, 13] [97, 10, 255, 13, 10] :=
      ⟨[97, 10], [10], rfl, by decide, .inr ⟨[97], rfl⟩, .inr ⟨[], rfl⟩⟩
    have noText : ∀ text, Utf8.encode text ≠ [255, 13] := by
      intro text same
      have unread : Utf8.decode? [255, 13] = none := by simp [Utf8.decode?, Utf8.scan, Utf8.next, Utf8.lead?]
      rw [← same, Utf8.decode?_encode] at unread
      cases unread
    exact ⟨_, unread _ _ isLine noText, rfl⟩

end Run

end RecordQuery
