import RecordQuery.Execution
import RecordQuery.Proofs.Inherited
import RecordQuery.Proofs.RoundTrip

/-!
# Canonical results

Evaluation keeps the keys of objects ascending: what is parsed has them so, paths and metadata do, and so has every
result of a query whose literals, variables and bound value have them (`execute_canonical`).
-/

namespace RecordQuery

namespace Value

theorem canonicalItems_iff {items : List Value} : CanonicalItems items ↔ ∀ item ∈ items, item.Canonical := by
  induction items with
  | nil => simp [CanonicalItems]
  | cons item items ih => rw [CanonicalItems, ih, List.forall_mem_cons]

theorem canonicalMembers_iff {members : List (String × Value)} :
    CanonicalMembers members ↔ ∀ member ∈ members, member.2.Canonical := by
  induction members with
  | nil => simp [CanonicalMembers]
  | cons member members ih => rw [CanonicalMembers, ih, List.forall_mem_cons]

theorem inherited_canonical : Inherited Canonical where
  null := trivial
  array _ := canonicalItems_iff
  object _ canonical := canonicalMembers_iff.mp canonical.2

/-! ## Texts -/

mutual

theorem canonical_ofData : (data : Data) → (ofData data).Canonical
  | .array all => by
    rw [ofData_array]
    exact canonicalItems_iff.mpr (List.forall_mem_map.mpr (canonical_ofDataItems all))
  | .object all => by
    rw [ofData_object]
    refine ⟨ascending_ascendingEntries _, canonicalMembers_iff.mpr fun member isMember => ?_⟩
    obtain ⟨entry, isEntry, rfl⟩ := List.mem_map.mp (mem_ascendingEntries isMember)
    exact canonical_ofDataMembers all entry isEntry
  | .null | .bool _ | .string _ => trivial
  | .number n => by
    rw [ofData, Data.toJson, ofJson, ofJsonNumber.eq_def]
    split
    · split <;> trivial
    · trivial
    · trivial
  | .nonFinite _ | .outOfRange _ => trivial

theorem canonical_ofDataItems : (all : List Data) → ∀ data ∈ all, (ofData data).Canonical
  | [] => List.forall_mem_nil _
  | data :: all => List.forall_mem_cons.mpr ⟨canonical_ofData data, canonical_ofDataItems all⟩

theorem canonical_ofDataMembers : (all : List (String × Data)) → ∀ entry ∈ all, (ofData entry.2).Canonical
  | [] => List.forall_mem_nil _
  | (_, data) :: all => List.forall_mem_cons.mpr ⟨canonical_ofData data, canonical_ofDataMembers all⟩

end

/-- Values with ascending keys are kept by all that evaluation does. -/
theorem closed_canonical : Value.Closed Canonical where
  int _ := trivial
  string _ := trivial
  metadata texts := by
    refine ⟨(texts.map Value.string).ascending, canonicalMembers_iff.mpr fun member isMember => ?_⟩
    obtain ⟨entry, -, rfl⟩ := List.mem_map.mp isMember
    trivial
  parse text v same := by
    unfold Value.parse at same
    split at same
    next data _ =>
      cases same
      exact canonical_ofData data
    next => cases same
  fieldPath _ _ _ := inherited_canonical.fieldPath
  lookupPath _ _ _ := inherited_canonical.lookupPath

end Value

/-! ## Executions -/

/-- An execution of a number of records has as many values, each with a property that null has and that evaluations give. -/
theorem executeFrom_ensures {V : Value → Prop} {E : Error → Prop} (null : V .null) {evaluate : Nat → Eval Value}
    (each : ∀ index, (evaluate index).Ensures V E) (mode : ErrorMode) (count index : Nat) :
    (executeFrom mode evaluate count index).Ensures
      (fun outcomes => outcomes.values.length = count ∧ ∀ v ∈ outcomes.values, V v) E := by
  induction count generalizing index with
  | zero => exact .pure ⟨rfl, List.forall_mem_nil _⟩
  | succ count ih =>
    have onward {f : Outcomes → Outcomes} {v : Value} (added : ∀ after, (f after).values = v :: after.values) (ofValue : V v) :
        (executeFrom mode evaluate count (index + 1) >>= fun after => pure (f after)).Ensures
          (fun outcomes => outcomes.values.length = count + 1 ∧ ∀ v ∈ outcomes.values, V v) E := by
      refine (ih (index + 1)).bind fun after ⟨many, others⟩ => .pure ?_
      rw [added, List.length_cons, many]
      exact ⟨rfl, List.forall_mem_cons.mpr ⟨ofValue, others⟩⟩
    refine (each index).attempt.bind fun outcome within => ?_
    cases outcome with
    | ok value => exact onward (fun _ => rfl) within
    | error e =>
      cases mode with
      | strict => exact .throw within
      | collect => exact (Eval.Ensures.note _ _ _).bind fun _ _ => onward (fun _ => rfl) null
      | ignore => exact onward (fun _ => rfl) null

/-- An execution over a batch has one value for each record, each with a property that null has and that evaluations
give. -/
theorem execute_ensures {V : Value → Prop} {E : Error → Prop} (null : V .null) {world : World} {bound : Nat}
    {config : ExecutorConfig} {maps : Table Query} {q : Query} {batch : Batch}
    (each : ∀ index, (q.eval world bound (Context.atIndex { batch, vars := config.vars, maps } index)).Ensures V E) :
    (execute world bound config maps q batch).Ensures
      (fun result => result.values.length = batch.size ∧ ∀ v ∈ result.values, V v) E :=
  (executeFrom_ensures null each config.mode batch.size 0).bind fun _ ofValues =>
    (Eval.Ensures.note _ _ _).bind fun _ _ => .pure ofValues

/-- The keys of objects ascend in all results of a query in whose literals and variables they do. -/
theorem execute_canonical {world : World} {bound : Nat} {config : ExecutorConfig} {maps : Table Query} {q : Query}
    {batch : Batch} (literals : q.Throughout maps (Query.Holds Value.Canonical fun _ => True))
    (vars : ∀ name v, config.vars.find? name = some v → v.Canonical) {s t : Store} {result : ExecutionResult}
    (ended : (execute world bound config maps q batch).run.run s = some (.ok result, t)) : ∀ v ∈ result.values, v.Canonical := by
  have each (index : Nat) : (q.eval world bound (Context.atIndex { batch, vars := config.vars, maps } index)).Ensures
      Value.Canonical fun _ => True :=
    Query.eval_ensures Value.closed_canonical (fun _ _ => trivial) literals bound ⟨rfl, vars, fun _ same => by cases same⟩
  exact ((execute_ensures trivial each) s _ t ended).2

end RecordQuery
