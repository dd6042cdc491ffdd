import RecordQuery.Proofs.Canonical
import RecordQuery.Proofs.Sessions

/-!
# Output read again

The output of a run, taken as an input, is a record for each value that the run has written, whatever order the world
gives the members of objects, and each record is read as its value (`written_reads_back`).
-/

namespace RecordQuery

open JsonText

theorem World.faithful_blank : World.blank.Faithful := fun _ => Value.Canonical.written

/-- What a run that ends well writes: a line for each value of the result. -/
theorem Run.run_execute {world : World} {r : Registry} {settings : Settings} {d : Document} {input : FileContent}
    {q : Query} {maps : Table Query} {bench : Workbench} {batch : Batch} {result : ExecutionResult} {store : Store}
    (built : (d.build r).run.run {} = (.ok (q, maps), bench)) (read : readRecords input = .ok batch)
    (executed : (RecordQuery.execute world nestingBound settings.executorConfig maps q batch).run.run {} =
      some (.ok result, store)) :
    ∃ log, (Run.execute world r settings d input).run.run {} =
      some (.ok result.stats, { output := linesText (world.texts result.values), log }) := by
  rw [run_execute_of_read built read, executed]
  exact ⟨_, rfl⟩

/-- A record holds a text of a value, and is read as that value if it has no floats and does not nest too deep. -/
def Value.ReadAgain (v : Value) (record : Record) : Prop :=
  (∃ text, v.Written text ∧ record.body = Utf8.encode text) ∧ (v.FloatFree → v.depth < 128 → record.json = .ok v)

/-- Records of texts of values. -/
theorem each_readAgain {values : List Value} {texts : List String} (each : List.Forall₂ Value.Written values texts)
    (canonical : ∀ v ∈ values, v.Canonical) :
    List.Forall₂ Value.ReadAgain values (texts.map fun text => { body := Utf8.encode text }) := by
  induction each with
  | nil => exact .nil
  | @cons v text _ _ written _ ih =>
    obtain ⟨first, others⟩ := List.forall_mem_cons.mp canonical
    refine .cons ⟨⟨text, written, rfl⟩, fun floatFree shallow => ?_⟩ (ih others)
    exact written.parse ⟨first, floatFree, Nat.le_of_lt_succ shallow⟩

theorem recordText_of_written {values : List Value} {texts : List String} (each : List.Forall₂ Value.Written values texts) :
    ∀ text ∈ texts, RecordText text := by
  induction each with
  | nil => exact List.forall_mem_nil _
  | cons written _ ih => exact List.forall_mem_cons.mpr ⟨Value.Written.recordText written, ih⟩

/-- What is written is read back. The writer gives a compact text of a value; every such text, whatever the order of
the members in it, is one record by itself, which is read as that value if no float is in it and it nests
fewer than 128 levels. So what a run writes is, taken as an input, a record of the same value for each value
of the result, in any world that writes texts of values. The keys of objects in the result ascend, as they have to for
that, if those in the literals of the query and in the variables do. -/
theorem written_reads_back :
    (∀ v : Value, v.Canonical → v.Written v.write) ∧
    (∀ (v : Value) (text : String), v.Canonical → v.FloatFree → v.depth < 128 → v.Written text → v.IsRecord text) ∧
    ∀ (world : World) (r : Registry) (settings : Settings) (d : Document) (input : FileContent) (q : Query)
      (maps : Table Query) (bench : Workbench) (batch : Batch) (result : ExecutionResult) (store : Store),
      world.Faithful → (d.build r).run.run {} = (.ok (q, maps), bench) → readRecords input = .ok batch →
      (execute world Run.nestingBound settings.executorConfig maps q batch).run.run {} = some (.ok result, store) →
      ((q.Throughout maps (Query.Holds Value.Canonical fun _ => True)) →
        (∀ name v, settings.values.find? name = some v → v.Canonical) → ∀ v ∈ result.values, v.Canonical) ∧
      ((∀ v ∈ result.values, v.Canonical) →
        ∃ console records, (Run.execute world r settings d input).run.run {} = some (.ok result.stats, console) ∧
          readRecords (.ok (Utf8.encode console.output)) = .ok records ∧
          records.toList.map Record.body = (world.texts result.values).map Utf8.encode ∧
          List.Forall₂ Value.ReadAgain result.values records.toList) := by
  refine ⟨Value.Canonical.written, ?_, ?_⟩
  · intro v text canonical floatFree shallow written
    exact written.isRecord ⟨canonical, floatFree, Nat.le_of_lt_succ shallow⟩
  · intro world r settings d input q maps bench batch result store faithful built read executed
    refine ⟨fun literals vars => execute_canonical literals vars executed, fun canonical => ?_⟩
    have each := faithful.texts canonical
    obtain ⟨log, ran⟩ := Run.run_execute built read executed
    refine ⟨_, _, ran, readRecords_linesText (recordText_of_written each), ?_, each_readAgain each canonical⟩
    simp

/-- A value with what has to be escaped, what is not ASCII, and the least integer. -/
def awkward : Value :=
  .object [("\n\"", .array [.int Int64.minValue, .string "é\x01\\"]), ("z", .null)]

/-- A document of one literal. -/
def constantDocument : Document := ⟨⟨none, none, some (.string "\n"), [], []⟩, .empty⟩

/-- The awkward value, and a run that writes two lines. -/
theorem written_reads_back_awkward :
    awkward.write = "\x7b\"\\n\\\"\":[-9223372036854775808,\"é\\u0001\\\\\"],\"z\":null\x7d" ∧
    awkward.IsRecord awkward.write ∧
    ∃ stats console records,
      (Run.execute .blank .standard {} constantDocument (.ok (Utf8.encode (linesText ["a", "b"])))).run.run {} =
        some (.ok stats, console) ∧
      readRecords (.ok (Utf8.encode console.output)) = .ok records ∧
      records.toList.map Record.json = [.ok (.string "\n"), .ok (.string "\n")] := by
  have ascending : Ascending [("\n\"", Value.array [.int Int64.minValue, .string "é\x01\\"]), ("z", .null)] :=
    List.pairwise_pair.mpr (by decide)
  have canonical : awkward.Canonical := ⟨ascending, ⟨trivial, trivial, trivial⟩, trivial, trivial⟩
  have floatFree : awkward.FloatFree := by
    simp [awkward, Value.FloatFree, Value.FloatFreeItems, Value.FloatFreeMembers]
  have lettered : ∀ text ∈ ["a", "b"], RecordText text := by
    simp only [List.forall_mem_cons]
    exact ⟨⟨printable_of_all (by decide), by decide⟩, ⟨printable_of_all (by decide), by decide⟩, List.forall_mem_nil _⟩
  have literals : (Query.literal (.string "\n")).Throughout .empty (Query.Holds Value.Canonical fun _ => True) := by
    refine Query.throughout_of_closed [.literal (.string "\n")] List.mem_cons_self (List.forall_mem_nil _) ?_ ?_
    · simp [Query.parts]
    · simp [Query.Holds, Value.Canonical]
  obtain ⟨writes, reads, runs⟩ := written_reads_back
  refine ⟨by decide, reads awkward awkward.write canonical floatFree (by decide) (writes awkward canonical), ?_⟩
  obtain ⟨ofLiterals, again⟩ := runs .blank .standard {} constantDocument (.ok (Utf8.encode (linesText ["a", "b"])))
    (.literal (.string "\n")) .empty _ #[⟨Utf8.encode "a", .empty⟩, ⟨Utf8.encode "b", .empty⟩]
    ⟨[.string "\n", .string "\n"], none, []⟩ _ World.faithful_blank rfl (readRecords_linesText lettered) rfl
  obtain ⟨console, records, ran, read, -, each⟩ := again (ofLiterals literals fun _ _ found => by cases found)
  refine ⟨_, console, records, ran, read, ?_⟩
  cases spelled : records.toList with
  | nil => simp [spelled] at each
  | cons first more =>
    cases more with
    | nil => simp [spelled] at each
    | cons second more =>
      simp [spelled, Value.ReadAgain, Value.FloatFree, Value.depth] at each
      simp [each]

end RecordQuery
