import RecordQuery.Proofs.Alike
import RecordQuery.Proofs.Tables

/-!
# Extension

A context is extended by variables and maps under new names. A query that recovers from no error cannot tell that a
name is missing without failing, so what it gives in a context it gives in every extension of it, with the same effects
(`Query.eval_ok_of_extends`). Nodes that recover can tell: they may give something else when a name turns up.
-/

namespace RecordQuery

/-- A context that has all variables and maps of another one, and may have more, at the same record of the same batch
with the same bound value. -/
structure Context.Extends (small large : Context) : Prop where
  batch : small.batch = large.batch
  index : small.index = large.index
  bound : small.bound = large.bound
  vars {name : String} {value : Value} (found : small.vars.find? name = some value) : large.vars.find? name = some value
  maps {name : String} {body : Query} (found : small.maps.find? name = some body) : large.maps.find? name = some body

namespace Eval

/-- Wherever the one computation succeeds, the other gives the same value with the same effects. -/
def Succeeds {α : Type} (x y : Eval α) : Prop :=
  ∀ s a t, x.run.run s = some (.ok a, t) → y.run.run s = some (.ok a, t)

namespace Succeeds

variable {α β : Type}

theorem refl (x : Eval α) : Succeeds x x := fun _ _ _ ended => ended

/-- A computation that fails stands before any other. -/
theorem throw (e : Error) (y : Eval α) : Succeeds (throw e) y := by
  intro s a t ended
  cases ended

theorem bind {x y : Eval α} {f g : α → Eval β} (first : Succeeds x y) (next : ∀ a, Succeeds (f a) (g a)) :
    Succeeds (x >>= f) (y >>= g) := by
  intro s b t ended
  rw [run_bind] at ended ⊢
  obtain ⟨⟨outcome, between⟩, started, rest⟩ := Option.bind_eq_some_iff.mp ended
  cases outcome with
  | error e => cases rest
  | ok a =>
    rw [first s a between started, Option.bind_some]
    exact next a between b t rest

end Succeeds

/-- Success is kept by evaluation in sequence, but not by attempts, which succeed where something fails. -/
theorem sequential_succeeds : Sequential fun _ => Succeeds where
  pure _ := .refl _
  throw _ := .refl _
  note _ _ _ := .refl _
  bind first next := first.bind next

end Eval

namespace Context.Extends

variable {small large : Context}

theorem bind (wider : small.Extends large) (value : Value) : (small.bind value).Extends (large.bind value) where
  batch := wider.batch
  index := wider.index
  bound := rfl
  vars := wider.vars
  maps := wider.maps

theorem atIndex (wider : small.Extends large) (place : Nat) : (small.atIndex place).Extends (large.atIndex place) where
  batch := wider.batch
  index := rfl
  bound := wider.bound
  vars := wider.vars
  maps := wider.maps

/-- A variable that is missing fails, so what is there in the extension does not matter. -/
theorem varNamed (wider : small.Extends large) (name : String) : Eval.Succeeds (small.varNamed name) (large.varNamed name) := by
  rw [Context.varNamed, Context.varNamed]
  cases found : small.vars.find? name with
  | none => exact .throw _ _
  | some value =>
    rw [wider.vars found]
    exact .refl _

/-- No node reads anything in an extension that is not related to what it reads before. -/
theorem reads (wider : small.Extends large) (world : World) (q : Query) :
    q.ReadsRelated (fun _ => Eval.Succeeds) world world small large := by
  cases q with
  | var name => exact fun text _ => wider.varNamed text
  | apply receiver map =>
    cases found : small.maps.find? map with
    | none => exact .inr ⟨found, fun y => .throw _ y⟩
    | some body => exact .inl (found.trans (wider.maps found).symm)
  | _ =>
    -- All other nodes read what is no different in the extension.
    obtain ⟨batch, index, vars, maps, bound⟩ := small
    obtain ⟨_, _, moreVars, moreMaps, _⟩ := large
    obtain ⟨rfl, rfl, rfl, -, -⟩ := wider
    first | rfl | exact fun _ _ => rfl | trivial

theorem trans {mid : Context} (first : small.Extends mid) (later : mid.Extends large) : small.Extends large where
  batch := first.batch.trans later.batch
  index := first.index.trans later.index
  bound := first.bound.trans later.bound
  vars found := later.vars (first.vars found)
  maps found := later.maps (first.maps found)

/-- One more variable is an extension. -/
theorem putVar {name : String} (new : small.vars.find? name = none) (value : Value) :
    small.Extends { small with vars := small.vars.put name value } where
  batch := rfl
  index := rfl
  bound := rfl
  vars := Table.find?_put_of_new new
  maps := id

/-- One more map is an extension. -/
theorem putMap {name : String} (new : small.maps.find? name = none) (body : Query) :
    small.Extends { small with maps := small.maps.put name body } where
  batch := rfl
  index := rfl
  bound := rfl
  vars := id
  maps := Table.find?_put_of_new new

end Context.Extends

namespace Query

/-- A query in which nothing recovers gives in every extension of a context what it gives there, and leaves the same
store. -/
theorem eval_ok_of_extends (world : World) (bound : Nat) (q : Query) {small large : Context}
    (unrecovered : q.Throughout small.maps (¬ ·.Recovers)) (wider : small.Extends large) {s t : Store} {v : Value}
    (succeeded : (q.eval world bound small).run.run s = some (.ok v, t)) :
    (q.eval world bound large).run.run s = some (.ok v, t) := by
  -- The walk is on the maps before the extension: of those after it nothing is known but that they have these.
  let R (left right : Context) : Prop := left.maps = small.maps ∧ left.Extends right
  have carries : q.Carries (fun _ => Eval.Succeeds) world world small.maps R := by
    refine ⟨And.left, ?_, ?_, ?_, ?_, ?_⟩
    · exact fun related value => ⟨related.1, related.2.bind value⟩
    · exact fun _ _ _ related place => ⟨related.1, related.2.atIndex place⟩
    · exact fun {node} _ _ _ related => related.2.reads world node
    · exact fun {node} _ => node.drawsAlike_refl (fun _ => .refl) world
    · exact fun {node} walk recovers => absurd recovers (unrecovered node walk)
  exact eval_carried Eval.sequential_succeeds (.refl _) carries bound ⟨rfl, wider⟩ s v t succeeded

/-- A variable whose name is in another one, in capitals. -/
def shouted : Query := .apply (.var (.query (.var (.value (.string "key"))))) "shout"

/-- A context with the two variables and the map. -/
def quiet : Context where
  vars := (Table.empty.put "key" (.string "who")).put "who" (.string "alice")
  maps := Table.empty.put "shout" (.inCase (.field []) .upper)

/-- It gives the same with one more variable, and with a map that recovers but is applied nowhere. -/
theorem eval_ok_of_extends_shouted :
    let large : Context :=
      { quiet with
        vars := quiet.vars.put "other" .null
        maps := quiet.maps.put "again" (.catching (.field []) (.value .null)) }
    (shouted.eval .blank 1 large).run.run {} = some (.ok (.string "ALICE"), {}) := by
  intro large
  have unrecovered : shouted.Throughout quiet.maps (¬ ·.Recovers) := by
    refine throughout_of_closed
      [shouted, .var (.query (.var (.value (.string "key")))), .var (.value (.string "key")), .inCase (.field []) .upper, .field []]
      ?_ ?_ ?_ ?_
    · simp
    · simp [quiet, Table.put, Table.empty, putEntry]
    · simp [shouted, parts]
    · simp [shouted, Recovers]
  let between : Context := { quiet with vars := quiet.vars.put "other" .null }
  have newVar : quiet.Extends between := .putVar rfl .null
  have newMap : between.Extends large := .putMap rfl (.catching (.field []) (.value .null))
  have wider : quiet.Extends large := newVar.trans newMap
  exact eval_ok_of_extends .blank 1 shouted unrecovered wider rfl

/-- What recovers can give something else when a variable turns up that was missing. -/
example :
    let q : Query := .catching (.var (.value (.string "other"))) (.value (.int 0))
    (∃ store, (q.eval .blank 0 {}).run.run {} = some (.ok (.int 0), store)) ∧
      ∃ store, (q.eval .blank 0 { vars := Table.empty.put "other" (.int 1) }).run.run {} = some (.ok (.int 1), store) :=
  ⟨⟨_, rfl⟩, ⟨_, rfl⟩⟩

end Query

end RecordQuery
