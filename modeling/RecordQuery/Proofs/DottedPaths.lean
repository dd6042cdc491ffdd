import RecordQuery.Proofs.Composition

/-!
# Dotted paths

A dotted path is its segments with dots between them: to split it and to join the segments gives it back, and to join
segments and to split gives them back, but for the one empty segment, whose path is that of no segments
(`joinPath_splitPath`, `splitPath_joinPath`). So queries that keep the segments alone still tell the path as it was
written, in their descriptions and where it is not found (`dotted_paths_return`).
-/

namespace RecordQuery

/-! ## Splitting and joining -/

theorem splitDots_eq_splitOn (text : List Char) : splitDots text = text.splitOn '.' := by
  induction text with
  | nil => rfl
  | cons c rest ih =>
    rw [splitDots, List.splitOn, List.splitOnP_cons_eq_if_modifyHead, ← List.splitOn, ← ih]
    by_cases dot : c = '.'
    · simp [dot]
    · cases segments : splitDots rest with
      | nil => exact absurd segments (splitDots_ne_nil rest)
      | cons segment others => simp [dot]

theorem toList_joinPath (segments : List String) :
    (joinPath segments).toList = ['.'].intercalate (segments.map String.toList) := by
  rw [joinPath, String.toList_intercalate]
  rfl

theorem joinPath_splitPath (path : String) : joinPath (splitPath path) = path := by
  by_cases whole : path = ""
  · simp [whole, splitPath, joinPath]
  · apply String.toList_inj.mp
    have segments : (splitPath path).map String.toList = path.toList.splitOn '.' := by
      simp [splitPath, whole, splitDots_eq_splitOn, Function.comp_def]
    rw [toList_joinPath, segments, List.intercalate_splitOn]

/-- Segments without dots are got back. Only those of the empty path are none, and not the one empty segment. -/
theorem splitPath_joinPath {segments : List String} (dotFree : ∀ segment ∈ segments, '.' ∉ segment.toList)
    (notBlank : segments ≠ [""]) : splitPath (joinPath segments) = segments := by
  by_cases none : segments = []
  · simp [none, splitPath, joinPath]
  · have split : splitDots (joinPath segments).toList = segments.map String.toList := by
      rw [splitDots_eq_splitOn, toList_joinPath]
      exact List.splitOn_intercalate '.' (by simpa using dotFree) (by simpa using none)
    have named : joinPath segments ≠ "" := by
      intro empty
      rw [empty] at split
      have blank : segments.map String.toList = [""].map String.toList := split.symm
      exact notBlank ((List.map_inj_right fun _ _ => String.toList_inj.mp).mp blank)
    rw [splitPath, if_neg named, split]
    simp [Function.comp_def]

/-! ## Paths that are not found -/

/-- A path that is not found is told whole, wherever the walk has stopped. -/
theorem Value.eq_of_lookupFrom {path missing : String} {v : Value} {keys : List String}
    (failed : v.lookupFrom path keys = .error (.pathNotFound missing)) : missing = path := by
  induction keys generalizing v with
  | nil => cases failed
  | cons key keys ih =>
    unfold lookupFrom at failed
    split at failed
    · split at failed
      · exact ih failed
      · cases failed
        rfl
    · split at failed
      · exact ih failed
      · cases failed
        rfl
    · cases failed

theorem Context.body_ne_pathNotFound (ctx : Context) (missing : String) : ctx.body ≠ .error (.pathNotFound missing) := by
  unfold body record
  cases ctx.record? with
  | none => exact nofun
  | some r =>
    show Value.parse r.body ≠ _
    unfold Value.parse
    split <;> exact nofun

theorem Context.eq_of_lookup {ctx : Context} {path missing : String}
    (failed : ctx.lookup (splitPath path) = .error (.pathNotFound missing)) : missing = path := by
  unfold lookup at failed
  cases parsed : ctx.body with
  | error e =>
    rw [parsed] at failed
    cases failed
    exact absurd parsed (ctx.body_ne_pathNotFound missing)
  | ok body =>
    rw [parsed] at failed
    have whole : missing = joinPath (splitPath path) := Value.eq_of_lookupFrom failed
    rwa [joinPath_splitPath] at whole

/-- In an object without members no key is found, so no path but the empty one. -/
theorem Context.lookup_of_blank {ctx : Context} {path : String} (blank : ctx.body = .ok (.object [])) (named : path ≠ "") :
    ctx.lookup (splitPath path) = .error (.pathNotFound path) := by
  have spelled := joinPath_splitPath path
  unfold lookup
  rw [blank]
  show (Value.object []).lookupFrom (joinPath (splitPath path)) (splitPath path) = _
  cases segments : splitPath path with
  | nil =>
    rw [segments] at spelled
    exact absurd spelled.symm named
  | cons key keys =>
    rw [segments] at spelled
    rw [spelled]
    rfl

theorem Eval.run_liftExcept {α : Type} (outcome : Except Error α) (s : Store) :
    (liftExcept outcome : Eval α).run.run s = some (outcome, s) := by
  cases outcome <;> rfl

/-- To split a path and to join its segments are inverse to each other, up to the one empty segment. So `json` and `get`,
which are built from a path and keep its segments, describe themselves by the path as it was, and `json` tells no other
where nothing is found, at any record; at a record without members that is every path that names some. -/
theorem dotted_paths_return :
    (∀ path, joinPath (splitPath path) = path) ∧
    (∀ segments : List String, (∀ segment ∈ segments, '.' ∉ segment.toList) → segments ≠ [""] →
      splitPath (joinPath segments) = segments) ∧
    (∀ path, ∃ json, Query.buildJson [.value (.string path)] = pure json ∧
      json.describe = "json(\"" ++ path ++ "\")" ∧
      ∀ world bound ctx s, ∃ outcome, (json.eval world bound ctx).run.run s = some (outcome, s) ∧
        (∀ missing, outcome = .error (.pathNotFound missing) → missing = path) ∧
        (ctx.body = .ok (.object []) → path ≠ "" → outcome = .error (.pathNotFound path))) ∧
    ∀ f path, ∃ get, Query.buildGet f [.value (.string path)] = pure get ∧
      get.describe = f.describe ++ ".get(\"" ++ path ++ "\")" := by
  refine ⟨joinPath_splitPath, fun segments dotFree notBlank => splitPath_joinPath dotFree notBlank, ?_, ?_⟩
  · intro path
    refine ⟨.json (splitPath path), rfl, ?_, fun world bound ctx s => ⟨ctx.lookup (splitPath path), ?_, ?_, ?_⟩⟩
    · rw [Query.describe, joinPath_splitPath]
      apply String.toList_inj.mp
      simp [describeCall, inQuotes, Value.text, Value.commaSeparated]
    · rw [Query.eval_eq_evalWith, Query.evalWith_json]
      exact Eval.run_liftExcept _ s
    · exact fun missing => Context.eq_of_lookup
    · exact Context.lookup_of_blank
  · intro f path
    refine ⟨.get f (splitPath path), rfl, ?_⟩
    rw [Query.describe, joinPath_splitPath]
    apply String.toList_inj.mp
    simp [describeMethod, describeCall, inQuotes, Value.text, Value.commaSeparated]

/-- A record with an empty list under a blank key. -/
def hollow : Context := { batch := #[{ body := Utf8.encode "\x7b\"\": \x7b\"a\": []\x7d\x7d" }] }

/-- A record without members. -/
def bare : Context := { batch := #[{ body := Utf8.encode "\x7b\x7d" }] }

/-- A path with dots at its beginning and repeated at its end. It stops being found in the list, or at once. -/
theorem dotted_paths_return_repeated :
    splitPath (joinPath ["", "a", "", ""]) = ["", "a", "", ""] ∧
      ∃ json, Query.buildJson [.value (.string ".a..")] = pure json ∧ json.describe = "json(\".a..\")" ∧
        (json.eval .blank 0 hollow).run.run {} = some (.error (.pathNotFound ".a.."), {}) ∧
        (json.eval .blank 0 bare).run.run {} = some (.error (.pathNotFound ".a.."), {}) := by
  obtain ⟨-, joined, built, -⟩ := dotted_paths_return
  refine ⟨joined _ (by decide) (by decide), ?_⟩
  obtain ⟨json, isBuilt, described, ends⟩ := built ".a.."
  refine ⟨json, isBuilt, described, ?_, ?_⟩
  · obtain ⟨outcome, ran, whole, -⟩ := ends .blank 0 hollow {}
    obtain rfl : Query.json (splitPath ".a..") = json := by
      have built : (Query.buildJson [.value (.string ".a..")]).run.run {} = (.ok json, {}) := by rw [isBuilt]; rfl
      cases built
      rfl
    have missed : (((Query.json (splitPath ".a..")).eval .blank 0 hollow).run.run {}).map (fun ended =>
        match ended.1 with
        | .error (.pathNotFound _) => true
        | _ => false) = some true := by decide +kernel
    rw [ran, Option.map_some] at missed
    rw [ran]
    cases outcome with
    | ok v => cases missed
    | error e =>
      cases e with
      | pathNotFound missing => rw [whole missing rfl]
      | _ => cases missed
  · obtain ⟨outcome, ran, -, missed⟩ := ends .blank 0 bare {}
    have blank : bare.body = .ok (.object []) := by with_unfolding_all rfl
    rw [ran, missed blank (by decide)]

end RecordQuery
