import RecordQuery.Proofs.Composition

/-!
# Applying maps

A named map is a function of the value that it is applied to: its body sees that value and, apart from it, the context of
the application (`Context.applyMap`). So to apply one map after another is to apply the map whose body applies the second
one to the result of the first, and a map that is the whole value changes nothing (`applications_compose`). The one body
in the other nests one application deeper, which is all that tells the two ways apart.
-/

namespace RecordQuery

/-- A named map on a value. -/
def Context.applyMap (enter : Query → Context → Eval Value) (ctx : Context) (map : String) (value : Value) : Eval Value :=
  match ctx.maps.find? map with
  | some body => enter body (ctx.bind value)
  | none => throw (.mapNotFound map)

namespace Query

variable {world : World} {ctx : Context}

theorem evalWith_apply (enter : Query → Context → Eval Value) (receiver : Query) (map : String) :
    (Query.apply receiver map).evalWith world enter ctx =
      receiver.evalWith world enter ctx >>= ctx.applyMap enter map := by
  rw [evalWith]
  rfl

/-- The bodies of maps are evaluated within every larger bound as they are within a smaller one, as far as they end. -/
theorem entering_extends (world : World) (bound : Nat) (body : Query) (ctx : Context) :
    Eval.Extends (entering world bound body ctx) (entering world (bound + 1) body ctx) := by
  cases bound with
  | zero =>
    intro s outcome ended
    cases ended
  | succ bound => exact body.eval_extends world (Nat.le_succ bound) ctx

theorem applyMap_extends (world : World) (bound : Nat) (ctx : Context) (map : String) (value : Value) :
    Eval.Extends (ctx.applyMap (entering world bound) map value) (ctx.applyMap (entering world (bound + 1)) map value) := by
  unfold Context.applyMap
  cases ctx.maps.find? map with
  | none => exact .refl _
  | some body => exact entering_extends world bound body _

/-! ## One map after another -/

section

variable {f first : Query} {a b c : String}

/-- Applied one after the other, both bodies have the same room. -/
theorem eval_apply_apply (found : ctx.maps.find? a = some first) (bound : Nat) :
    (Query.apply (.apply f a) b).eval world (bound + 1) ctx =
      f.eval world (bound + 1) ctx >>= fun value =>
        first.eval world bound (ctx.bind value) >>= ctx.applyMap (entering world (bound + 1)) b := by
  rw [eval_eq_evalWith, evalWith_apply, evalWith_apply, bind_assoc]
  refine bind_congr fun value => ?_
  rw [Context.applyMap, found]
  rfl

/-- Applied within the body of another map, the second body has room for one application less. -/
theorem eval_apply_composed (found : ctx.maps.find? c = some (.apply first b)) (bound : Nat) :
    (Query.apply f c).eval world (bound + 1) ctx =
      f.eval world (bound + 1) ctx >>= fun value =>
        first.eval world bound (ctx.bind value) >>= ctx.applyMap (entering world bound) b := by
  rw [eval_eq_evalWith, evalWith_apply]
  refine bind_congr fun value => ?_
  rw [Context.applyMap, found]
  show (Query.apply first b).eval world bound (ctx.bind value) = _
  rw [eval_eq_evalWith, evalWith_apply]
  -- The second map is looked up in the same table, and binds over what the first one was applied to.
  rfl

theorem composed_extends (ofFirst : ctx.maps.find? a = some first) (ofBoth : ctx.maps.find? c = some (.apply first b))
    (bound : Nat) :
    Eval.Extends ((Query.apply f c).eval world (bound + 1) ctx) ((Query.apply (.apply f a) b).eval world (bound + 1) ctx) := by
  rw [eval_apply_apply ofFirst, eval_apply_composed ofBoth]
  exact (Eval.Extends.refl _).bind fun value => (Eval.Extends.refl _).bind fun _ => applyMap_extends world bound ctx b _

theorem extends_composed (ofFirst : ctx.maps.find? a = some first) (ofBoth : ctx.maps.find? c = some (.apply first b))
    (bound : Nat) :
    Eval.Extends ((Query.apply (.apply f a) b).eval world (bound + 1) ctx) ((Query.apply f c).eval world (bound + 2) ctx) := by
  rw [eval_apply_apply ofFirst, eval_apply_composed ofBoth]
  refine (f.eval_extends world (Nat.le_succ _) ctx).bind fun value => ?_
  exact (first.eval_extends world (Nat.le_succ bound) _).bind fun _ => .refl _

end

/-! ## The map that changes nothing -/

/-- The field of the empty path is the value that the map is applied to. -/
theorem eval_apply_whole {map : String} (found : ctx.maps.find? map = some (.ofField "")) (f : Query) (bound : Nat) :
    (Query.apply f map).eval world (bound + 1) ctx = f.eval world (bound + 1) ctx := by
  rw [eval_apply_field found, eval_eq_evalWith, evalWith]
  exact bind_pure _

/-- What an evaluation comes to it comes to within some bound that is not the least. -/
theorem Ends.succ {q : Query} {s : Store} {ended : Except Error Value × Store} (ends : q.Ends world ctx s ended) :
    ∃ bound, (q.eval world (bound + 1) ctx).run.run s = some ended := by
  obtain ⟨bound, ran⟩ := ends
  exact ⟨bound, q.eval_extends world (Nat.le_succ bound) ctx s ended ran⟩

end Query

/-- To apply one map and then another is to apply the map whose body applies the second to the result of the first one's
body, whether there is a second map or not: from every store the two come to the same ends, each a value or an error with
the store after it, and so end in the same cases. To apply the map that is the whole value is to do nothing. -/
theorem applications_compose :
    (∀ (world : World) (ctx : Context) (f first : Query) (a b c : String), ctx.maps.find? a = some first →
      ctx.maps.find? c = some (.apply first b) → ∀ s ended,
        (Query.apply (.apply f a) b).Ends world ctx s ended ↔ (Query.apply f c).Ends world ctx s ended) ∧
    ∀ (world : World) (ctx : Context) (f : Query) (id : String), ctx.maps.find? id = some (.ofField "") → ∀ s ended,
      (Query.apply f id).Ends world ctx s ended ↔ f.Ends world ctx s ended := by
  refine ⟨?_, ?_⟩
  · intro world ctx f first a b c ofFirst ofBoth s ended
    constructor
    · intro ends
      obtain ⟨bound, ran⟩ := ends.succ
      exact ⟨bound + 2, Query.extends_composed ofFirst ofBoth bound s ended ran⟩
    · intro ends
      obtain ⟨bound, ran⟩ := ends.succ
      exact ⟨bound + 1, Query.composed_extends ofFirst ofBoth bound s ended ran⟩
  · intro world ctx f id found
    exact Query.ends_iff_of_eval_succ (Query.eval_apply_whole found f)

/-- A word behind a counter that is read in vain. -/
def overheard : Query := .catching (.get (.count "calls" 0) ["x"]) (.value (.string "hey"))

def aloud : Query := .inCase (.field []) .upper

/-- A context with a map, two maps that go on from it, to itself and to a map that is missing, and the map of the whole. -/
def voices : Context where
  maps := (((Table.empty.put "aloud" aloud).put "twice" (.apply aloud "aloud")).put "lost" (.apply aloud "nowhere")).put
    "same" (.ofField "")

theorem applications_compose_voices :
    ∃ t, (Query.apply overheard "twice").Ends .blank voices {} (.ok (.string "HEY"), t) ∧
      (Query.apply overheard "lost").Ends .blank voices {} (.error (.mapNotFound "nowhere"), t) ∧
      (Query.apply overheard "same").Ends .blank voices {} (.ok (.string "hey"), t) ∧ t.drawn 0 = 1 := by
  obtain ⟨t, present, absent, alone, drawn⟩ : ∃ t,
      ((Query.apply (.apply overheard "aloud") "aloud").eval .blank 1 voices).run.run {} = some (.ok (.string "HEY"), t) ∧
      ((Query.apply (.apply overheard "aloud") "nowhere").eval .blank 1 voices).run.run {} =
        some (.error (.mapNotFound "nowhere"), t) ∧
      (overheard.eval .blank 0 voices).run.run {} = some (.ok (.string "hey"), t) ∧ t.drawn 0 = 1 :=
    ⟨_, rfl, rfl, rfl, rfl⟩
  obtain ⟨composed, whole⟩ := applications_compose
  refine ⟨t, ?_, ?_, ?_, drawn⟩
  · exact (composed .blank voices overheard aloud "aloud" "aloud" "twice" rfl rfl _ _).mp ⟨1, present⟩
  · exact (composed .blank voices overheard aloud "aloud" "nowhere" "lost" rfl rfl _ _).mp ⟨1, absent⟩
  · exact (whole .blank voices overheard "same" rfl _ _).mpr ⟨0, alone⟩

end RecordQuery
