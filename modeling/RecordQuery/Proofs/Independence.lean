import RecordQuery.Proofs.ErrorModes

/-!
# Records are evaluated independently

A query that reaches neither a place of the batch nor a counter, a generator, the clock or the entropy
(`Query.RecordLocal`) uses batch and index for nothing but to fetch the current record. Its outcome for a
record is the same wherever the record stands and whatever was evaluated before (`Query.eval_recordLocal`),
so an execution over one batch followed by another makes of each what it makes of it alone
(`execute_append`).
-/

namespace RecordQuery

/-- Whether what a node adds of its own comes from the record, the bound value, the variables, the maps and
the environment alone. -/
def Query.RecordLocal : Query → Prop
  | .batchIndex => False
  | .batchSize => False
  | .count _ _ => False
  | .randomInt _ => False
  | .randomIntFrom (.value _) _ => False
  | .unixTime => False
  | .unixNanoTime => False
  | .utcTime _ => False
  | .uuid => False
  | .atRecord _ _ => False
  | _ => True

/-! ## One record in two batches -/

/-- Two contexts that stand at the same record and differ in nothing else but their batches and indices. -/
structure Context.SameRecord (left right : Context) : Prop where
  record : ∃ r, left.record? = some r ∧ right.record? = some r
  vars : left.vars = right.vars
  maps : left.maps = right.maps
  bound : left.bound = right.bound

namespace Context.SameRecord

variable {left right : Context}

theorem bind (same : left.SameRecord right) (value : Value) : (left.bind value).SameRecord (right.bind value) :=
  ⟨same.record, same.vars, same.maps, rfl⟩

theorem record? (same : left.SameRecord right) : left.record? = right.record? := by
  obtain ⟨r, found, found'⟩ := same.record
  rw [found, found']

/-- There is a record at either index, so no error tells the index or the size of the batch. -/
theorem record_eq (same : left.SameRecord right) : left.record = right.record := by
  obtain ⟨r, found, found'⟩ := same.record
  rw [Context.record, Context.record, found, found']

theorem body_eq (same : left.SameRecord right) : left.body = right.body := by
  rw [Context.body, Context.body, same.record_eq]

theorem readsAlike {one other : World} (environment : one.env = other.env) (same : left.SameRecord right)
    {node : Query} (recordLocal : node.RecordLocal) : node.ReadsAlike one other left right := by
  cases node with
  | field path =>
    show left.field path = right.field path
    rw [Context.field, Context.field, same.bound, same.body_eq]
  | json path =>
    show left.lookup path = right.lookup path
    rw [Context.lookup, Context.lookup, same.body_eq]
  | content => exact congrArg _ same.record_eq
  | env name =>
    intro text _
    rw [World.envText, World.envText, environment]
  | metadata => exact congrArg _ same.record?
  | metadataAt key =>
    intro text _
    rw [Context.metadataAt?, Context.metadataAt?, same.record?]
  | var name =>
    intro text _
    rw [same.vars]
  | apply receiver map => exact congrArg (·.find? map) same.maps
  | batchIndex | batchSize | randomInt | atRecord => exact recordLocal.elim
  | _ => trivial

end Context.SameRecord

theorem Query.RecordLocal.drawsAlike {P : (α : Type) → Eval α → Eval α → Prop} {one other : World} {node : Query}
    (recordLocal : node.RecordLocal) : node.DrawsAlike P one other := by
  unfold DrawsAlike
  split <;> first | exact recordLocal.elim | trivial

/-- The outcome of a query that is local to the record depends neither on where the record stands nor on what
was evaluated before. -/
theorem Query.eval_recordLocal {one other : World} (environment : one.env = other.env) {maps : Table Query}
    {q : Query} (recordLocal : q.Throughout maps RecordLocal) (bound : Nat) {left right : Context}
    (ofMaps : left.maps = maps) (same : left.SameRecord right) :
    Eval.Alike (fun _ _ => True) (q.eval one bound left) (q.eval other bound right) := by
  have congruence : Eval.Congruence fun _ => Eval.Alike fun _ _ => True :=
    Eval.congruence_alike fun _ _ _ _ => trivial
  have inStep : q.InStep one other maps fun left right => left.maps = maps ∧ left.SameRecord right := by
    refine ⟨fun related => related.1, ?_, ?_, ?_⟩
    · rintro left right ⟨ofMaps, same⟩ value
      exact ⟨ofMaps, same.bind value⟩
    · intro receiver index walk
      exact (recordLocal _ walk).elim
    · rintro node walk left right ⟨-, same⟩
      exact same.readsAlike environment (recordLocal node walk)
  exact eval_related congruence (fun _ _ _ => .none) inStep (fun node walk => (recordLocal node walk).drawsAlike)
    bound ⟨ofMaps, same⟩

/-! ## Outcomes whatever the store -/

/-- From every store, a computation ends with an outcome. -/
def Eval.Gives {α : Type} (x : Eval α) (outcome : Except Error α) : Prop := ∀ s, ∃ t, x.run.run s = some (outcome, t)

/-- Computations that are alike from all stores give one outcome if the first ends from some store. -/
theorem Eval.Alike.gives {α : Type} {x y : Eval α} (alike : Alike (fun _ _ => True) x y)
    (ends : ∃ s, x.run.run s ≠ none) : ∃ outcome, x.Gives outcome ∧ y.Gives outcome := by
  obtain ⟨s, ends⟩ := ends
  obtain ⟨⟨outcome, after⟩, ended⟩ := Option.ne_none_iff_exists'.mp ends
  have second : y.Gives outcome := by
    intro t
    obtain ⟨⟨_, after⟩, ended', rfl, -⟩ := some_right_of_rel (alike s t trivial) ended
    exact ⟨after, ended'⟩
  refine ⟨outcome, ?_, second⟩
  intro t
  obtain ⟨_, ended'⟩ := second t
  obtain ⟨⟨_, final⟩, finished, rfl, -⟩ := some_left_of_rel (alike t t trivial) ended'
  exact ⟨final, finished⟩

/-- From every store, the evaluations of a number of records from an index on end with these outcomes. -/
def AllGive (evaluate : Nat → Eval Value) (count index : Nat) (outcomes : List (Except Error Value)) : Prop :=
  ∀ s, ∃ t, (outcomesFrom evaluate count index).run s = some (outcomes, t)

namespace AllGive

variable {evaluate evaluate' : Nat → Eval Value}

theorem succ {count index : Nat} {outcome : Except Error Value} {later : List (Except Error Value)}
    (first : (evaluate index).Gives outcome) (rest : AllGive evaluate count (index + 1) later) :
    AllGive evaluate (count + 1) index (outcome :: later) := by
  intro s
  obtain ⟨t, evaluated⟩ := first s
  obtain ⟨u, remaining⟩ := rest t
  exact ⟨u, outcomesFrom_succ_eq_some.mpr ⟨outcome, t, later, evaluated, remaining, rfl⟩⟩

theorem append {first second index : Nat} {before after : List (Except Error Value)}
    (started : AllGive evaluate first index before) (rest : AllGive evaluate second (index + first) after) :
    AllGive evaluate (first + second) index (before ++ after) := by
  intro s
  obtain ⟨t, started⟩ := started s
  obtain ⟨u, rest⟩ := rest t
  exact ⟨u, outcomesFrom_add_eq_some.mpr ⟨before, t, after, started, rest, rfl⟩⟩

/-- If each record gives one outcome in two places, so do all of them together. -/
theorem of_pointwise {count index index' : Nat}
    (each : ∀ i < count, ∃ outcome, (evaluate (index + i)).Gives outcome ∧ (evaluate' (index' + i)).Gives outcome) :
    ∃ outcomes, outcomes.length = count ∧ AllGive evaluate count index outcomes ∧
      AllGive evaluate' count index' outcomes := by
  induction count generalizing index index' with
  | zero => exact ⟨[], rfl, fun s => ⟨s, rfl⟩, fun s => ⟨s, rfl⟩⟩
  | succ count ih =>
    obtain ⟨outcome, gives, gives'⟩ := each 0 (Nat.succ_pos count)
    have onward : ∀ i < count, ∃ outcome, (evaluate (index + 1 + i)).Gives outcome ∧
        (evaluate' (index' + 1 + i)).Gives outcome := by
      intro i within
      rw [Nat.add_right_comm index, Nat.add_right_comm index']
      exact each (i + 1) (Nat.succ_lt_succ within)
    obtain ⟨later, total, rest, rest'⟩ := ih onward
    refine ⟨outcome :: later, ?_, succ gives rest, succ gives' rest'⟩
    rw [List.length_cons, total]

end AllGive

theorem warningsFrom_append (index : Nat) (before after : List (Except Error Value)) :
    warningsFrom index (before ++ after) = warningsFrom index before ++ warningsFrom (index + before.length) after := by
  induction before generalizing index with
  | nil => rfl
  | cons outcome before ih =>
    have place : index + (before.length + 1) = index + 1 + before.length := by omega
    cases outcome <;> simp [warningsFrom, ih, place]

/-! ## Executions over two batches -/

theorem Query.evalAt_recordLocal {one other : World} (environment : one.env = other.env) {maps : Table Query}
    {q : Query} (recordLocal : q.Throughout maps RecordLocal) (bound : Nat) (vars : Table Value) {left right : Batch}
    {place place' : Nat} (within : place < left.size) (sameRecord : right[place']? = left[place]?) :
    Eval.Alike (fun _ _ => True) (q.evalAt one bound vars maps left place)
      (q.evalAt other bound vars maps right place') := by
  have found : left[place]? = some left[place] := Array.getElem?_eq_getElem within
  exact eval_recordLocal environment recordLocal bound rfl ⟨⟨_, found, sameRecord.trans found⟩, rfl, rfl, rfl⟩

/-- Over one batch followed by another, a query that is local to the record gives the outcomes that it gives over
each alone, from whatever stores. So its lenient executions have the values of the one followed by those of the
other, and the same with the warnings if they are collected, where those about the second batch count its records
from the size of the first; a strict execution succeeds exactly if it does over either batch. -/
theorem execute_append {world worldA worldB : World} (environmentA : worldA.env = world.env)
    (environmentB : worldB.env = world.env) {maps : Table Query} {q : Query}
    (recordLocal : q.Throughout maps Query.RecordLocal) (bound : Nat) (vars : Table Value) (a b : Batch)
    (endsA : ∀ i < a.size, ∃ s, (q.evalAt worldA bound vars maps a i).run.run s ≠ none)
    (endsB : ∀ i < b.size, ∃ s, (q.evalAt worldB bound vars maps b i).run.run s ≠ none) :
    ∃ outcomesA outcomesB : List (Except Error Value), outcomesA.length = a.size ∧ outcomesB.length = b.size ∧
      ∀ (collectStats : Bool) (s sA sB : Store),
        let runA (mode : ErrorMode) := (execute worldA bound { mode, collectStats, vars } maps q a).run.run sA
        let runB (mode : ErrorMode) := (execute worldB bound { mode, collectStats, vars } maps q b).run.run sB
        let run (mode : ErrorMode) := (execute world bound { mode, collectStats, vars } maps q (a ++ b)).run.run s
        (∀ mode ≠ .strict, ∃ resultA tA resultB tB result t,
          runA mode = some (.ok resultA, tA) ∧ runB mode = some (.ok resultB, tB) ∧ run mode = some (.ok result, t) ∧
          resultA.values = outcomesA.map valueOf ∧ resultB.values = outcomesB.map valueOf ∧
          result.values = resultA.values ++ resultB.values ∧
          (mode = .collect → resultA.warnings = warningsFrom 0 outcomesA ∧ resultB.warnings = warningsFrom 0 outcomesB ∧
            result.warnings = resultA.warnings ++ warningsFrom a.size outcomesB)) ∧
        ((∃ result t, run .strict = some (.ok result, t)) ↔
          (∃ result t, runA .strict = some (.ok result, t)) ∧ ∃ result t, runB .strict = some (.ok result, t)) := by
  have first : ∀ i < a.size, ∃ outcome, (q.evalAt worldA bound vars maps a (0 + i)).Gives outcome ∧
      (q.evalAt world bound vars maps (a ++ b) (0 + i)).Gives outcome := by
    intro i within
    rw [Nat.zero_add]
    have sameRecord : (a ++ b)[i]? = a[i]? := Array.getElem?_append_left within
    exact (Query.evalAt_recordLocal environmentA recordLocal bound vars within sameRecord).gives (endsA i within)
  have second : ∀ i < b.size, ∃ outcome, (q.evalAt worldB bound vars maps b (0 + i)).Gives outcome ∧
      (q.evalAt world bound vars maps (a ++ b) (a.size + i)).Gives outcome := by
    intro i within
    rw [Nat.zero_add]
    have sameRecord : (a ++ b)[a.size + i]? = b[i]? := by
      rw [Array.getElem?_append_right (Nat.le_add_right a.size i), Nat.add_sub_cancel_left]
    exact (Query.evalAt_recordLocal environmentB recordLocal bound vars within sameRecord).gives (endsB i within)
  obtain ⟨outcomesA, lengthA, aloneA, withinA⟩ := AllGive.of_pointwise first
  obtain ⟨outcomesB, lengthB, aloneB, withinB⟩ := AllGive.of_pointwise second
  have both : AllGive (q.evalAt world bound vars maps (a ++ b)) (a ++ b).size 0 (outcomesA ++ outcomesB) := by
    rw [Array.size_append]
    rw [← Nat.zero_add a.size] at withinB
    exact withinA.append withinB
  refine ⟨outcomesA, outcomesB, lengthA, lengthB, ?_⟩
  intro collectStats s sA sB runA runB run
  obtain ⟨_, endedA⟩ := aloneA sA
  obtain ⟨_, endedB⟩ := aloneB sB
  obtain ⟨_, ended⟩ := both s
  constructor
  · intro mode lenient
    obtain ⟨tA, -, executedA⟩ := execute_lenient_eq_some lenient collectStats endedA
    obtain ⟨tB, -, executedB⟩ := execute_lenient_eq_some lenient collectStats endedB
    obtain ⟨t, -, executed⟩ := execute_lenient_eq_some lenient collectStats ended
    refine ⟨_, tA, _, tB, _, t, executedA, executedB, executed, rfl, rfl, List.map_append, ?_⟩
    rintro rfl
    refine ⟨rfl, rfl, ?_⟩
    show warningsFrom 0 (outcomesA ++ outcomesB) = warningsFrom 0 outcomesA ++ _
    rw [warningsFrom_append, lengthA, Nat.zero_add]
  · have succeedsA := execute_strict_succeeds_iff collectStats endedA
    have succeedsB := execute_strict_succeeds_iff collectStats endedB
    have succeeds := execute_strict_succeeds_iff collectStats ended
    rw [succeeds, succeedsA, succeedsB]
    exact List.forall_mem_append

/-- The topic in the metadata of a record, passed through a named map. -/
def topic : Query := .apply (.metadataAt (.value (.string "topic"))) "same"

/-- The named map under its name. -/
def topicMaps : Table Query := Table.empty.put "same" (.field [])

/-- A record with a topic followed by one without, whatever the store. The warning about the second counts from the first. -/
theorem execute_append_topic :
    let a : Batch := #[⟨[], Table.empty.put "topic" "news"⟩]
    let b : Batch := #[⟨[], .empty⟩]
    ∀ s, (∃ result t,
        (execute .blank 1 { mode := .collect } topicMaps topic (a ++ b)).run.run s = some (.ok result, t) ∧
        result.values = [.string "news", .null] ∧ result.warnings = ["record 1: metadata value 'topic' not found"]) ∧
      ¬ ∃ result t, (execute .blank 1 { mode := .strict } topicMaps topic (a ++ b)).run.run s = some (.ok result, t) := by
  intro a b s
  have recordLocal : topic.Throughout topicMaps Query.RecordLocal := by
    refine Query.throughout_of_closed [topic, .metadataAt (.value (.string "topic")), .field []] ?_ ?_ ?_ ?_
    · simp
    · simp [topicMaps, Table.put, Table.empty, putEntry]
    · simp [topic, Query.parts]
    · simp [topic, Query.RecordLocal]
  have endsA : ∀ i < a.size, ∃ s, (topic.evalAt .blank 1 .empty topicMaps a i).run.run s ≠ none := by
    intro i within
    obtain rfl : i = 0 := Nat.lt_one_iff.mp within
    exact ⟨{}, Option.some_ne_none _⟩
  have endsB : ∀ i < b.size, ∃ s, (topic.evalAt .blank 1 .empty topicMaps b i).run.run s ≠ none := by
    intro i within
    obtain rfl : i = 0 := Nat.lt_one_iff.mp within
    exact ⟨{}, Option.some_ne_none _⟩
  obtain ⟨outcomesA, outcomesB, -, lengthB, independent⟩ :=
    @execute_append .blank .blank .blank rfl rfl topicMaps topic recordLocal 1 .empty a b endsA endsB
  obtain ⟨lenient, strict⟩ := independent false s {} {}
  have collectA : ∃ t, (execute .blank 1 { mode := .collect } topicMaps topic a).run.run {} =
      some (.ok ⟨[.string "news"], none, []⟩, t) := ⟨_, rfl⟩
  have collectB : ∃ t, (execute .blank 1 { mode := .collect } topicMaps topic b).run.run {} =
      some (.ok ⟨[.null], none, ["record 0: metadata value 'topic' not found"]⟩, t) := ⟨_, rfl⟩
  have strictB : ∃ e t, (execute .blank 1 { mode := .strict } topicMaps topic b).run.run {} = some (.error e, t) :=
    ⟨_, _, rfl⟩
  constructor
  · obtain ⟨resultA, tA, resultB, tB, result, t, executedA, executedB, executed, -, -, values, collected⟩ :=
      lenient .collect (by decide)
    obtain ⟨_, knownA⟩ := collectA
    obtain ⟨_, knownB⟩ := collectB
    cases executedA.symm.trans knownA
    cases executedB.symm.trans knownB
    obtain ⟨-, alone, behind⟩ := collected rfl
    refine ⟨result, t, executed, values, ?_⟩
    obtain ⟨outcome, rfl⟩ := List.length_eq_one_iff.mp lengthB
    cases outcome with
    | ok v => cases alone
    | error e =>
      have told : "record 0: " ++ "metadata value 'topic' not found" = "record 0: " ++ e.message := (List.cons.inj alone).1
      have message : "metadata value 'topic' not found" = e.message := (String.append_right_inj _).mp told
      rw [behind]
      show ["record " ++ toString 1 ++ ": " ++ e.message] = _
      rw [← message]
      rfl
  · intro succeeds
    obtain ⟨-, resultB, tB, executedB⟩ := strict.mp succeeds
    obtain ⟨e, t, knownB⟩ := strictB
    cases executedB.symm.trans knownB

end RecordQuery
