import RecordQuery.Program
import RecordQuery.Proofs.InStep
import RecordQuery.Proofs.Sessions
import RecordQuery.Proofs.Written

/-!
# Output

What is written to the output is written all together: a session that fails has left the output as it was, and one that
does not has written everything that it has to say (`Session.Writes`). Parts that do not write, such as building,
reading and evaluating, come first in a run, and nothing fails once the first line is written, since every value can
be serialized (`Value.serialize_eq`). The program has nothing on its output whenever it ends with the code of a failure
(`Program.run_allOrNothing`).
-/

namespace RecordQuery

namespace Session

variable {α β : Type}

/-- A part of a session that leaves the output as it is, and what it gives unless it fails. -/
structure Quiet (x : Session α) (gives : α → Prop) : Prop where
  unchanged {console after : Console} {outcome : Except Failure α} (ended : x.run.run console = some (outcome, after)) :
    after.output = console.output
  given {console after : Console} {a : α} (ended : x.run.run console = some (.ok a, after)) : gives a

/-- A session that has written nothing if it fails, and else one of the texts that are all of it. -/
structure Writes (x : Session α) (all : String → Prop) : Prop where
  nothing {console after : Console} {failure : Failure} (ended : x.run.run console = some (.error failure, after)) :
    after.output = console.output
  everything {console after : Console} {a : α} (ended : x.run.run console = some (.ok a, after)) :
    ∃ text, all text ∧ after.output = console.output ++ text

theorem Writes.mono {x : Session α} {all wider : String → Prop} (writes : x.Writes all) (widen : ∀ text, all text → wider text) :
    x.Writes wider where
  nothing := writes.nothing
  everything ended :=
    have ⟨text, inAll, output⟩ := writes.everything ended
    ⟨text, widen text inAll, output⟩

/-! ## Parts -/

theorem quiet_note (entries : Array LogEntry) : (note entries).Quiet fun _ => True where
  unchanged ended := by
    rw [run_note] at ended
    cases ended
    rfl
  given _ := trivial

theorem quiet_except (outcome : Except Failure α) : (liftExcept outcome : Session α).Quiet (outcome = .ok ·) where
  unchanged ended := by
    rw [run_except] at ended
    cases ended
    rfl
  given ended := by
    rw [run_except] at ended
    cases ended
    rfl

theorem quiet_build (x : Build α) : (Session.build x).Quiet fun a => ∃ bench, x.run.run {} = (.ok a, bench) where
  unchanged ended := by
    rw [run_build] at ended
    cases ended
    rfl
  given {console after a} ended := by
    rw [run_build] at ended
    obtain ⟨same, -⟩ := Prod.mk.inj (Option.some.inj ended)
    exact ⟨_, Prod.ext (eq_ok_of_mapError same) rfl⟩

theorem quiet_evaluate (x : Eval α) : (Session.evaluate x).Quiet fun a => ∃ store, x.run.run {} = some (.ok a, store) where
  unchanged ended := by
    rw [run_evaluate] at ended
    obtain ⟨_, -, same⟩ := Option.map_eq_some_iff.mp ended
    cases same
    rfl
  given ended := by
    rw [run_evaluate] at ended
    obtain ⟨⟨outcome, store⟩, evaluated, same⟩ := Option.map_eq_some_iff.mp ended
    obtain ⟨same, -⟩ := Prod.mk.inj same
    cases eq_ok_of_mapError same
    exact ⟨store, evaluated⟩

/-! ## Whole sessions -/

/-- What is quiet may stand before a session that writes all or nothing. -/
theorem Quiet.bind {x : Session α} {f : α → Session β} {gives : α → Prop} {all : String → Prop} (quiet : x.Quiet gives)
    (next : ∀ a, gives a → (f a).Writes all) : (x >>= f).Writes all where
  nothing {console after failure} ended := by
    rw [run_bind] at ended
    obtain ⟨⟨outcome, between⟩, first, ended⟩ := Option.bind_eq_some_iff.mp ended
    have unchanged : between.output = console.output := quiet.unchanged first
    cases outcome with
    | error e =>
      cases ended
      exact unchanged
    | ok a => exact ((next a (quiet.given first)).nothing ended).trans unchanged
  everything {console after b} ended := by
    rw [run_bind] at ended
    obtain ⟨⟨outcome, between⟩, first, ended⟩ := Option.bind_eq_some_iff.mp ended
    have unchanged : between.output = console.output := quiet.unchanged first
    cases outcome with
    | error e => cases ended
    | ok a =>
      obtain ⟨text, inAll, output⟩ := (next a (quiet.given first)).everything ended
      exact ⟨text, inAll, by rw [output, unchanged]⟩

/-- Lines are all written: no line fails. -/
theorem writes_lines (texts : List String) : (writeLines texts).Writes (· = linesText texts) where
  nothing ended := by
    rw [run_writeLines] at ended
    cases ended
  everything ended := by
    rw [run_writeLines] at ended
    cases ended
    exact ⟨_, rfl, rfl⟩

theorem writes_throw (failure : Failure) (all : String → Prop) : (throw failure : Session α).Writes all where
  nothing ended := by
    cases ended
    rfl
  everything ended := by cases ended

/-- What a session gives does not matter to what it writes. -/
theorem Writes.ending {x : Session α} {all : String → Prop} (writes : x.Writes all) (b : β) :
    (x >>= fun _ => pure b : Session β).Writes all where
  nothing {console after failure} ended := by
    rw [run_bind] at ended
    obtain ⟨⟨outcome, between⟩, first, ended⟩ := Option.bind_eq_some_iff.mp ended
    cases outcome with
    | error e =>
      cases ended
      exact writes.nothing first
    | ok a => cases ended
  everything {console after _} ended := by
    rw [run_bind] at ended
    obtain ⟨⟨outcome, between⟩, first, ended⟩ := Option.bind_eq_some_iff.mp ended
    cases outcome with
    | error e => cases ended
    | ok a =>
      cases ended
      exact writes.everything first

end Session

/-! ## Serialization -/

/-- Why a value cannot be serialized. -/
inductive SerializeFault where
  | keyMustBeString

namespace Value

/-- The text of a key of an object, for which only strings are taken. -/
def keyText : Value → Except SerializeFault String
  | .string key => .ok (Json.quote key)
  | _ => .error .keyMustBeString

mutual

/-- The text of a value with the members of objects in an order that depends on their texts, as far as it can be
serialized. -/
def serialize (order : List (String × String) → List (String × String)) : Value → Except SerializeFault String
  | .array items => do
    let texts ← serializeItems order items
    .ok (Json.writeArray texts)
  | .object members => do
    let entries ← serializeMembers order members
    .ok (Json.writeObject (order entries))
  | scalar => .ok scalar.write

def serializeItems (order : List (String × String) → List (String × String)) : List Value → Except SerializeFault (List String)
  | [] => .ok []
  | item :: rest => do
    let head ← item.serialize order
    let tail ← serializeItems order rest
    .ok (head :: tail)

def serializeMembers (order : List (String × String) → List (String × String)) :
    List (String × Value) → Except SerializeFault (List (String × String))
  | [] => .ok []
  | (key, member) :: rest => do
    let key ← keyText (.string key)
    let text ← member.serialize order
    let tail ← serializeMembers order rest
    .ok ((key, text) :: tail)

end

mutual

/-- The text of a value with the members of objects in an order. -/
def writeBy (order : List (String × String) → List (String × String)) : Value → String
  | .array items => Json.writeArray (writeItemsBy order items)
  | .object members => Json.writeObject (order (writeMembersBy order members))
  | scalar => scalar.write

def writeItemsBy (order : List (String × String) → List (String × String)) : List Value → List String
  | [] => []
  | item :: rest => item.writeBy order :: writeItemsBy order rest

def writeMembersBy (order : List (String × String) → List (String × String)) : List (String × Value) → List (String × String)
  | [] => []
  | (key, member) :: rest => (Json.quote key, member.writeBy order) :: writeMembersBy order rest

end

mutual

/-- The writer has the members in ascending order. -/
theorem writeBy_ascendingEntries : (v : Value) → v.writeBy ascendingEntries = v.write
  | .array items => by rw [writeBy, write, writeItemsBy_ascendingEntries items]
  | .object members => by rw [writeBy, write, writeMembersBy_ascendingEntries members]
  | .null | .bool _ | .int _ | .float _ | .string _ => by simp [writeBy]

theorem writeItemsBy_ascendingEntries : (items : List Value) → writeItemsBy ascendingEntries items = writeItems items
  | [] => rfl
  | item :: rest => by
    rw [writeItemsBy, writeItems, writeBy_ascendingEntries item, writeItemsBy_ascendingEntries rest]

theorem writeMembersBy_ascendingEntries :
    (members : List (String × Value)) → writeMembersBy ascendingEntries members = writeMembers members
  | [] => rfl
  | (key, member) :: rest => by
    rw [writeMembersBy, writeMembers, writeBy_ascendingEntries member, writeMembersBy_ascendingEntries rest]

end

section

variable (order : List (String × String) → List (String × String))

mutual

/-- Every value can be serialized. -/
theorem serialize_eq : (v : Value) → v.serialize order = .ok (v.writeBy order)
  | .array items => by
    rw [serialize, serializeItems_eq items, writeBy]
    rfl
  | .object members => by
    rw [serialize, serializeMembers_eq members, writeBy]
    rfl
  | .null | .bool _ | .int _ | .float _ | .string _ => by simp [serialize, writeBy]

theorem serializeItems_eq : (items : List Value) → serializeItems order items = .ok (writeItemsBy order items)
  | [] => by rw [serializeItems, writeItemsBy]
  | item :: rest => by
    rw [serializeItems, serialize_eq item, serializeItems_eq rest, writeItemsBy]
    rfl

theorem serializeMembers_eq :
    (members : List (String × Value)) → serializeMembers order members = .ok (writeMembersBy order members)
  | [] => by rw [serializeMembers, writeMembersBy]
  | (key, member) :: rest => by
    rw [serializeMembers, serialize_eq member, serializeMembers_eq rest, writeMembersBy]
    rfl

end

end

end Value

namespace Session

/-- Writes values one after the other, each as soon as it is serialized, with an order of members for every place. -/
def writeResults (refused : SerializeFault → Failure) (order : Nat → List (String × String) → List (String × String))
    (values : List Value) : Session Unit :=
  (values.mapIdx fun place v => v.serialize (order place)).forM fun serialized => do
    let text ← liftExcept (serialized.mapError refused)
    writeLine text

/-- None of them stops the others: it is as if all were serialized before the first one is written. -/
theorem writeResults_eq (refused : SerializeFault → Failure) (order : Nat → List (String × String) → List (String × String))
    (values : List Value) :
    writeResults refused order values = writeLines (values.mapIdx fun place v => v.writeBy (order place)) := by
  have serialized : (values.mapIdx fun place v => v.serialize (order place)) =
      (values.mapIdx fun place v => v.writeBy (order place)).map .ok := by
    refine List.ext_getElem (by simp) fun place _ _ => ?_
    rw [List.getElem_map, List.getElem_mapIdx, List.getElem_mapIdx, Value.serialize_eq]
  rw [writeResults, serialized, writeLines]
  generalize (values.mapIdx fun place v => v.writeBy (order place)) = texts
  induction texts with
  | nil => rfl
  | cons text texts ih => exact congrArg (fun next => writeLine text >>= fun _ => next) ih

end Session

/-! ## Runs -/

namespace Run

/-- The targets of the query of a document, on lines. -/
def TargetsText (r : Registry) (d : Document) (text : String) : Prop :=
  ∃ q maps bench, (d.build r).run.run {} = (.ok (q, maps), bench) ∧
    text = linesText ((q.targets { maps }).2.map targetLine)

/-- All values of the execution of the query of a document over an input, on lines, which stand for the values in any world
that writes texts of values. -/
def ResultText (world : World) (r : Registry) (settings : Settings) (d : Document) (input : FileContent) (text : String) : Prop :=
  ∃ q maps bench batch result store, (d.build r).run.run {} = (.ok (q, maps), bench) ∧ readRecords input = .ok batch ∧
    (RecordQuery.execute world nestingBound settings.executorConfig maps q batch).run.run {} = some (.ok result, store) ∧
    text = linesText (world.texts result.values) ∧
    (world.Faithful → (∀ v ∈ result.values, v.Canonical) →
      List.Forall₂ Value.Written result.values (world.texts result.values))

theorem writeTargets_writes (r : Registry) (d : Document) : (writeTargets r d).Writes (TargetsText r d) := by
  refine (Session.quiet_build _).bind fun (q, maps) ⟨bench, built⟩ => ?_
  exact (Session.writes_lines _).mono fun text same => ⟨q, maps, bench, built, same⟩

theorem execute_writes (world : World) (r : Registry) (settings : Settings) (d : Document) (input : FileContent) :
    (execute world r settings d input).Writes (ResultText world r settings d input) := by
  refine (Session.quiet_build _).bind fun (q, maps) ⟨bench, built⟩ => (Session.quiet_note _).bind fun _ _ => ?_
  refine (Session.quiet_except _).bind fun batch read => (Session.quiet_note _).bind fun _ _ => ?_
  refine (Session.quiet_evaluate _).bind fun result ⟨store, executed⟩ => ?_
  exact ((Session.writes_lines _).ending result.stats).mono fun text same =>
    ⟨q, maps, bench, batch, result, store, built, eq_ok_of_mapError read, executed, same,
      fun faithful canonical => faithful.texts canonical⟩

end Run

/-! ## The program -/

namespace Program

theorem perform_writes (around : Surroundings) (line : CommandLine) (s : Settings) :
    (perform around line s).Writes fun _ => True := by
  refine (Session.quiet_note _).bind fun _ _ => ?_
  split
  · exact ((Session.writes_lines _).ending none).mono fun _ _ => trivial
  · split
    · exact Session.writes_throw _ _
    · refine (Session.quiet_except _).bind fun d _ => ?_
      split
      · exact ((Run.writeTargets_writes _ d).ending none).mono fun _ _ => trivial
      · refine (Session.quiet_except _).bind fun input _ => ?_
        exact (Run.execute_writes _ _ s d input).mono fun _ _ => trivial

/-- The program has nothing on its output if it ends with the code of a failure. A run and a listing of targets, on
any console, write nothing if they fail, and else everything: all values, or all targets. It makes no difference to
that if values are serialized while they are written, with the members of objects in any order. -/
theorem run_allOrNothing :
    (∀ around args report, run around args = some report → report.exitCode = 1 → report.output = "") ∧
    (∀ r d, (Run.writeTargets r d).Writes (Run.TargetsText r d)) ∧
    (∀ world r settings d input, (Run.execute world r settings d input).Writes (Run.ResultText world r settings d input)) ∧
    (∀ refused order values, Session.writeResults refused order values =
      Session.writeLines (values.mapIdx fun place v => v.writeBy (order place))) ∧
    ∀ v : Value, v.writeBy ascendingEntries = v.write := by
  refine ⟨?_, Run.writeTargets_writes, Run.execute_writes, Session.writeResults_eq, Value.writeBy_ascendingEntries⟩
  intro around args left ended failed
  unfold run at ended
  split at ended
  next stop _ =>
    cases ended
    cases stop <;> cases failed
  next line _ =>
    split at ended
    next =>
      cases ended
      rfl
    next s _ =>
      obtain ⟨⟨outcome, console⟩, performed, same⟩ := Option.map_eq_some_iff.mp ended
      cases outcome with
      | ok stats =>
        cases same
        cases failed
      | error failure =>
        cases same
        exact (perform_writes around line s).nothing performed

/-- A query that reads a number out of every record, and two records of which only the first has one. -/
def halfReadable : Surroundings where
  file path :=
    if path = "numbers.json" then .ok (Utf8.encode "\x7b\"query\":\x7b\"function\":\"json\",\"args\":[\"n\"]\x7d\x7d")
    else .error .missing
  standardInput := Utf8.encode "\x7b\"n\":1\x7d\nbad\n"
  world := .blank

/-- The number of the first record is not on the output when the second one has failed the run, but it is there when
failures are collected. -/
theorem run_allOrNothing_halfway :
    (∃ report, run halfReadable ["numbers.json"] = some report ∧ report.exitCode = 1 ∧ report.output = "") ∧
    ∃ report, run halfReadable ["--error-mode", "collect", "numbers.json"] = some report ∧ report.exitCode = 0 ∧
      report.output = "1\nnull\n" := by
  constructor
  · have failed : (run halfReadable ["numbers.json"]).map (·.exitCode) = some 1 := by decide +kernel
    obtain ⟨report, ended, code⟩ := Option.map_eq_some_iff.mp failed
    exact ⟨report, ended, code, run_allOrNothing.1 _ _ report ended code⟩
  · have collected : (run halfReadable ["--error-mode", "collect", "numbers.json"]).map
        (fun report => (report.exitCode, report.output)) = some (0, "1\nnull\n") := by decide +kernel
    obtain ⟨report, ended, same⟩ := Option.map_eq_some_iff.mp collected
    obtain ⟨code, output⟩ := Prod.mk.inj same
    exact ⟨report, ended, code, output⟩

end Program

end RecordQuery
