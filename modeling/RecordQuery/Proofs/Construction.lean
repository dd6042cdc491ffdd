import RecordQuery.Proofs.Building
import RecordQuery.Proofs.Outcomes

/-!
# Errors of building and of evaluating

Building fails with errors of building only. What it has built fails with errors of evaluating, but for one way: a
format of times with `%#z` can be read, so building takes it, and cannot be written, so that every evaluation of it is
refused as if it were built (`Document.construction_errors`).
-/

namespace RecordQuery

/-! ## Formats that cannot be written -/

namespace Pattern

/-- Parts can be written unless one is an offset that can only be read. -/
theorem renderItems?_eq_none_iff (c : Civil) (items : List PatternItem) :
    renderItems? c items = none ↔ .readOnlyOffset ∈ items := by
  have one (item : PatternItem) : renderItem? c item = none ↔ item = .readOnlyOffset := by
    cases item <;> simp [renderItem?]
  induction items with
  | nil => simp [renderItems?]
  | cons item items ih =>
    have either : renderItems? c (item :: items) = none ↔ renderItem? c item = none ∨ renderItems? c items = none := by
      rw [renderItems?]
      cases renderItem? c item with
      | none => simp
      | some head => cases renderItems? c items <;> simp
    rw [either, one, List.mem_cons, @eq_comm _ item]
    exact or_congr_right ih

theorem specifier?_writable {input : List Char} {items : List PatternItem} {count : Nat}
    (read : specifier? input = some (items, count)) : .readOnlyOffset ∉ items := by
  unfold specifier? at read
  split at read
  next spelling item found =>
    have long : ∀ entry ∈ longSpecifiers, entry.2 ≠ .readOnlyOffset := by decide
    cases read
    simpa using (long _ (List.mem_of_find?_eq_some found)).symm
  next =>
    split at read
    next => cases read
    next letter _ =>
      obtain ⟨spelled, ofLetter, same⟩ := Option.map_eq_some_iff.mp read
      obtain rfl : spelled = items := congrArg Prod.fst same
      unfold Pattern.ofLetter at ofLetter
      split at ofLetter <;> cases ofLetter <;> decide

theorem item?_readOnlyOffset {input : List Char} {items : List PatternItem} {count : Nat}
    (read : item? input = some (items, count)) (member : .readOnlyOffset ∈ items) : ['#', 'z'] <+: input := by
  unfold item? at read
  split at read
  next => cases read
  next mark rest =>
    split at read
    next padding marked =>
      split at read
      next part _ count' _ =>
        cases read
        simp at member
      next => cases read
    next =>
      split at read
      next hash =>
        split at read
        next more => exact ⟨more, by simp [hash]⟩
        next => cases read
      next => exact absurd member (specifier?_writable read)

/-- A format with an offset that can only be read has `%#z` in it. -/
theorem parseFrom_readOnlyOffset {skip : Nat} {input : List Char} {items : List PatternItem}
    (read : parseFrom skip input = some items) (member : .readOnlyOffset ∈ items) : ['%', '#', 'z'] <:+: input := by
  induction input generalizing skip items with
  | nil =>
    cases read
    cases member
  | cons c rest ih =>
    have onward : ['%', '#', 'z'] <:+: rest → ['%', '#', 'z'] <:+: c :: rest := fun within => within.trans (List.suffix_cons c rest).isInfix
    cases skip with
    -- A character that a specifier has used up already.
    | succ skip => exact onward (ih read member)
    | zero =>
      rw [parseFrom] at read
      split at read
      next percent =>
        split at read
        next => cases read
        next first count item =>
          obtain ⟨later, readLater, rfl⟩ := Option.map_eq_some_iff.mp read
          rcases List.mem_append.mp member with now | later
          · obtain ⟨more, rfl⟩ := item?_readOnlyOffset item now
            exact ⟨[], more, by simp [percent]⟩
          · exact onward (ih readLater later)
      next =>
        obtain ⟨later, readLater, rfl⟩ := Option.map_eq_some_iff.mp read
        exact onward (ih readLater (by simpa using member))

end Pattern

namespace Query

theorem utcText_eq_error {pattern : String} {moment : Moment} {e : Error} {items : List PatternItem}
    (read : Pattern.parse? pattern = some items) :
    utcText (some pattern) moment = .error e ↔
      .readOnlyOffset ∈ items ∧ e = .invalidArguments "timestamp_utc" (.format pattern) := by
  rw [← Pattern.renderItems?_eq_none_iff (.ofMoment moment), utcText, Pattern.render?, read, Option.bind_some]
  cases Pattern.renderItems? (.ofMoment moment) items with
  | none => simp [eq_comm]
  | some text => simp

/-- What holds of built trees at every depth holds of all that a query reaches. -/
theorem Each.throughout {holds : Query → Prop} {q : Query} {maps : Table Query} (each : q.Each holds)
    (ofMaps : ∀ entry ∈ maps.entries, entry.2.Each holds) : q.Throughout maps holds := by
  intro node walk
  have reached : node.Each holds := by
    induction walk with
    | refl => exact each
    | tail _ step before =>
      cases step with
      | part member =>
        obtain ⟨-, parts⟩ := before
        exact parts _ member
      | body _ found => exact ofMaps _ (Table.mem_of_find? found)
  obtain ⟨here, -⟩ := reached
  exact here

end Query

/-- The error of a reached format that can be read but not written. -/
def Query.Unwritable (q : Query) (maps : Table Query) (e : Error) : Prop :=
  ∃ pattern items, q.Reaches maps [] (.utcTime (some pattern)) ∧ Pattern.parse? pattern = some items ∧
    .readOnlyOffset ∈ items ∧ e = .invalidArguments "timestamp_utc" (.format pattern)

theorem Value.closed_true : Value.Closed fun _ => True :=
  ⟨fun _ => trivial, fun _ => trivial, fun _ => trivial, fun _ _ _ => trivial, fun _ _ _ _ _ => trivial, fun _ _ _ _ _ => trivial⟩

/-- What is built from a document fails with errors of evaluating, but for formats that can only be read. -/
theorem WellBuilt.eval_ensures {q : Query} {maps : Table Query} (wellBuilt : WellBuilt (q, maps)) (world : World) (bound : Nat)
    {ctx : Context} (ofMaps : ctx.maps = maps) :
    (q.eval world bound ctx).Ensures (fun _ => True) fun e => e.isConstruction = true → q.Unwritable maps e := by
  have runtime : ∀ e : Error, e.isConstruction = false → e.isConstruction = true → q.Unwritable maps e := by
    intro e isRuntime isConstruction
    rw [isRuntime] at isConstruction
    cases isConstruction
  refine Query.eval_ensures Value.closed_true runtime (fun node walk => ?_) bound ⟨ofMaps, fun _ _ _ => trivial, fun _ _ => trivial⟩
  have hasFormat := (wellBuilt.1.throughout wellBuilt.2 node walk).hasFormat
  -- Only formats of times can fail with an error of building; literals are of no concern here.
  cases node with
  | utcTime pattern =>
    intro moment e failed isConstruction
    cases pattern with
    | none => cases failed
    | some pattern =>
      obtain ⟨items, read⟩ := Option.isSome_iff_exists.mp hasFormat
      obtain ⟨member, rfl⟩ := (Query.utcText_eq_error read).mp failed
      exact ⟨pattern, items, walk, read, member, rfl⟩
  | catching receiver fallback => cases fallback <;> trivial
  | orElse receiver fallback => cases fallback <;> trivial
  | _ => trivial

/-- Building fails with errors of building only. What it has built fails, in every context and after any calls, with
errors of evaluating, unless it evaluates a format that can be read but not written; such a format has `%#z` in it,
and its every evaluation is refused with an error of building. -/
theorem Document.construction_errors (d : Document) (bench : Workbench) :
    (∀ e, (d.build .standard).outcome bench = .error e → e.isConstruction = true) ∧
    (∀ q maps, (d.build .standard).outcome bench = .ok (q, maps) → ∀ world bound ctx store e after, ctx.maps = maps →
      (q.eval world bound ctx).run.run store = some (.error e, after) → e.isConstruction = true → q.Unwritable maps e) ∧
    ∀ pattern items, Pattern.parse? pattern = some items → .readOnlyOffset ∈ items →
      ['%', '#', 'z'] <:+: pattern.toList ∧
      ∀ world bound ctx store, ∃ after, ((Query.utcTime (some pattern)).eval world bound ctx).run.run store =
        some (.error (.invalidArguments "timestamp_utc" (.format pattern)), after) := by
  have gives := d.build_gives bench
  refine ⟨?_, ?_, ?_⟩
  · intro e failed
    rw [failed] at gives
    obtain ⟨step, -, fault⟩ := List.exists_of_findSome?_eq_some (gives : firstFault d.steps = some e)
    exact Error.isConstruction_of_isCheck (BuildStep.isCheck_fault fault)
  · intro q maps built world bound ctx store e after ofMaps failed isConstruction
    rw [built] at gives
    exact gives.2.eval_ensures world bound ofMaps store _ after failed isConstruction
  · intro pattern items read member
    refine ⟨Pattern.parseFrom_readOnlyOffset read member, fun world bound ctx store => ?_⟩
    have refused (enter : Query → Context → Eval Value) : ∃ after,
        ((Query.utcTime (some pattern)).evalWith world enter ctx).run.run store =
          some (.error (.invalidArguments "timestamp_utc" (.format pattern)), after) := by
      have failed : Query.utcText (some pattern) (world.clock store.clockReadings) = .error _ :=
        (Query.utcText_eq_error read).mpr ⟨member, rfl⟩
      have now : (Eval.now world).run.run store =
          some (.ok (world.clock store.clockReadings), { store with clockReadings := store.clockReadings + 1 }) := rfl
      refine ⟨{ store with clockReadings := store.clockReadings + 1 }, ?_⟩
      rw [Query.evalWith, run_bind, now, Option.bind_some]
      dsimp only
      rw [failed]
      rfl
    cases bound with
    | zero => exact refused _
    | succ bound => exact refused _

/-- A document of a format that is taken and cannot be written. -/
def unwritableDocument : Document := ⟨⟨some "timestamp_utc", none, none, [.literal (.string "%#z")], []⟩, .empty⟩

theorem unwritableDocument_fails :
    ∃ q maps, (unwritableDocument.build .standard).outcome {} = .ok (q, maps) ∧
      ∃ e after, (q.eval .blank 0 { maps }).run.run {} = some (.error e, after) ∧ e.isConstruction = true :=
  ⟨.utcTime (some "%#z"), .empty, rfl, _, _, rfl, rfl⟩

end RecordQuery
