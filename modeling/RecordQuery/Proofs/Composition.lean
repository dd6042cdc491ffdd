import RecordQuery.Proofs.Bound
import RecordQuery.Proofs.Tables
import RecordQuery.Query.Builder

/-!
# Paths in steps

A dotted path is followed in steps: first its one part, then from there the other (`Value.fieldPath_append`). So `get` by
two paths one after the other is `get` by the path of both with a dot between them, and a map that is a field is applied
as `get` by the path of that field (`projections_compose`).
-/

namespace RecordQuery

/-! ## Splitting at a dot -/

theorem splitDots_ne_nil (text : List Char) : splitDots text ≠ [] := by
  cases text with
  | nil => simp [splitDots]
  | cons c rest =>
    unfold splitDots
    split
    · simp
    · split <;> simp

/-- A dot ends a segment, whatever stands before and behind it. -/
theorem splitDots_append (text more : List Char) : splitDots (text ++ '.' :: more) = splitDots text ++ splitDots more := by
  induction text with
  | nil => simp [splitDots]
  | cons c rest ih =>
    rw [List.cons_append, splitDots, splitDots, ih]
    by_cases dot : c = '.'
    · simp [dot]
    · cases segments : splitDots rest with
      | nil => exact absurd segments (splitDots_ne_nil rest)
      | cons segment others => simp [dot]

/-- The empty path has no segments and not the empty one, so neither part may be empty. -/
theorem splitPath_append {path more : String} (present : path ≠ "") (moreToCome : more ≠ "") :
    splitPath (path ++ "." ++ more) = splitPath path ++ splitPath more := by
  have joined : path ++ "." ++ more ≠ "" := by simp [present]
  have spelled : (path ++ "." ++ more).toList = path.toList ++ '.' :: more.toList := by simp
  rw [splitPath, splitPath, splitPath, if_neg joined, if_neg present, if_neg moreToCome, spelled, splitDots_append,
    List.map_append]

/-! ## Following a path -/

theorem Value.fieldPath_append (v : Value) (path more : List String) :
    v.fieldPath (path ++ more) = v.fieldPath path >>= fun part => part.fieldPath more := by
  rw [fieldPath, List.foldlM_append]
  rfl

namespace Query

variable {world : World} {enter : Query → Context → Eval Value} {ctx : Context}

theorem evalWith_get_get (f : Query) (path more : List String) :
    (Query.get (.get f path) more).evalWith world enter ctx = (Query.get f (path ++ more)).evalWith world enter ctx := by
  rw [evalWith, evalWith, evalWith, bind_assoc]
  refine bind_congr fun value => ?_
  rw [Value.fieldPath_append]
  cases value.fieldPath path with
  | ok part => rfl
  | error e => rfl

/-- A map that is a field reads the value that it is applied to, and nothing else. -/
theorem eval_apply_field {map : String} {path : List String} (found : ctx.maps.find? map = some (.field path)) (f : Query)
    (bound : Nat) : (Query.apply f map).eval world (bound + 1) ctx = (Query.get f path).eval world (bound + 1) ctx := by
  rw [eval_eq_evalWith, evalWith, evalWith]
  refine bind_congr fun value => ?_
  simp only [found, entering]
  rw [eval_eq_evalWith, evalWith_field]
  rfl

end Query

/-- `get` by two paths one after the other is `get` by both with a dot between them, in every context and within every
nesting: the same value or error with the same store after it, from every store. And where a map is the field of a path,
to apply it is to `get` by that path, once there is room for an application: the two come to the same ends. -/
theorem projections_compose :
    (∀ (world : World) (bound : Nat) (ctx : Context) (f : Query) (p q : String), p ≠ "" → q ≠ "" →
      (Query.get (.get f (splitPath p)) (splitPath q)).eval world bound ctx =
        (Query.get f (splitPath (p ++ "." ++ q))).eval world bound ctx) ∧
    ∀ (world : World) (ctx : Context) (f : Query) (map p : String), ctx.maps.find? map = some (.ofField p) →
      (∀ bound, (Query.apply f map).eval world (bound + 1) ctx = (Query.get f (splitPath p)).eval world (bound + 1) ctx) ∧
        ∀ s ended, (Query.apply f map).Ends world ctx s ended ↔ (Query.get f (splitPath p)).Ends world ctx s ended := by
  refine ⟨?_, ?_⟩
  · intro world bound ctx f p q present moreToCome
    rw [splitPath_append present moreToCome, Query.eval_eq_evalWith]
    exact Query.evalWith_get_get f _ _
  · intro world ctx f map p found
    have same (bound : Nat) :
        (Query.apply f map).eval world (bound + 1) ctx = (Query.get f (splitPath p)).eval world (bound + 1) ctx :=
      Query.eval_apply_field found f bound
    exact ⟨same, Query.ends_iff_of_eval_succ same⟩

/-- Rows of which one is null, under a key that is empty, behind a counter that is read in vain. -/
def counted : Query :=
  .catching (.get (.count "rows" 0) ["x"])
    (.value (.object [("rows", .array [.object [("", .object [("x", .int 1)])], .null])]))

/-- A context with the path through the empty key as a map. -/
def stepwise : Context := { maps := Table.empty.put "pick" (.ofField "rows..x") }

theorem projections_compose_counted :
    ∃ t, ((Query.get (.get counted (splitPath "rows")) (splitPath ".x")).eval .blank 1 stepwise).run.run {} =
        some (.ok (.array [.int 1, .null]), t) ∧
      (Query.apply counted "pick").Ends .blank stepwise {} (.ok (.array [.int 1, .null]), t) ∧ t.drawn 0 = 1 := by
  obtain ⟨steps, maps⟩ := projections_compose
  have split : splitPath "rows..x" = ["rows", "", "x"] := by decide +kernel
  obtain ⟨t, ran, drawn⟩ : ∃ t, ((Query.get counted (splitPath "rows..x")).eval .blank 1 stepwise).run.run {} =
      some (.ok (.array [.int 1, .null]), t) ∧ t.drawn 0 = 1 := by
    rw [split]
    exact ⟨_, rfl, rfl⟩
  refine ⟨t, ?_, ?_, drawn⟩
  · rw [steps .blank 1 stepwise counted "rows" ".x" (by decide) (by decide)]
    exact ran
  · obtain ⟨-, ends⟩ := maps .blank stepwise counted "pick" "rows..x" rfl
    exact (ends _ _).mpr ⟨1, ran⟩

end RecordQuery
