import RecordQuery.Proofs.Bound
import RecordQuery.Proofs.Targets

/-!
# Evaluations that end

An evaluation enters the body of a map at every application, and only there does it leave the tree that it walks. If no
map can come to apply itself (`Query.Acyclic`), then the maps whose bodies are being evaluated are all different, so that
every body entered leaves one map less that can still be entered. That number is the rank which falls on the way into a
body; within a tree the tree gets smaller. So every evaluation ends, and its applications nest no deeper than there are
maps (`Query.eval_ends_of_acyclic`).
-/

namespace RecordQuery

namespace Eval

/-- From every store a computation comes to an end. -/
def Finishes {α : Type} (x : Eval α) : Prop := ∀ s, ∃ ended, x.run.run s = some ended

namespace Finishes

variable {α β : Type}

theorem bind {x : Eval α} {f : α → Eval β} (first : Finishes x) (next : ∀ a, Finishes (f a)) : Finishes (x >>= f) := by
  intro s
  obtain ⟨⟨outcome, t⟩, ran⟩ := first s
  rw [run_bind, ran, Option.bind_some]
  cases outcome with
  | ok a => exact next a t
  | error e => exact ⟨_, rfl⟩

theorem attempt {x : Eval α} (finishes : Finishes x) : Finishes x.attempt := by
  intro s
  obtain ⟨ended, ran⟩ := finishes s
  rw [run_attempt, ran]
  exact ⟨_, rfl⟩

end Finishes

/-- Coming to an end is kept by all that evaluation is composed of. -/
theorem congruence_finishes : Congruence fun _ x _ => Finishes x where
  pure _ _ := ⟨_, rfl⟩
  throw _ _ := ⟨_, rfl⟩
  note _ _ _ _ := ⟨_, rfl⟩
  bind first next := first.bind next
  attempt finishes := finishes.attempt

end Eval

namespace Query

/-- Instances, clock and entropy always give something. -/
theorem drawsAlike_finishes (world : World) (q : Query) : q.DrawsAlike (fun _ x _ => Eval.Finishes x) world world := by
  unfold DrawsAlike
  split <;> first | exact fun _ => ⟨_, rfl⟩ | trivial

/-! ## Maps that do not come to apply themselves -/

/-- No map that a query can come to apply, in receivers, arguments and bodies, can come to apply itself. -/
def Acyclic (maps : Table Query) (q : Query) : Prop :=
  ∀ map body, q.Applies maps map → maps.find? map = some body → ¬ body.Applies maps map

theorem Acyclic.onward {maps : Table Query} {q node : Query} (acyclic : q.Acyclic maps) (walk : q.Reaches maps [] node) :
    node.Acyclic maps :=
  fun map body applies found => acyclic map body (applies.onward walk) found

/-- One tree is evaluated to an end if the bodies of the maps are that it can come to apply. -/
theorem evalWith_finishes {world : World} {enter : Query → Context → Eval Value} {q : Query} {ctx : Context}
    (bodies : ∀ map body, q.Applies ctx.maps map → ctx.maps.find? map = some body →
      ∀ inner : Context, inner.maps = ctx.maps → (enter body inner).Finishes) :
    (q.evalWith world enter ctx).Finishes := by
  have carries := (q.inStep_refl world ctx.maps).carries Eval.congruence_finishes
    fun node _ => node.drawsAlike_finishes world
  -- The same evaluation stands on both sides, of which the right one does not matter.
  refine @evalWith_carried _ world world ctx ctx enter enter Eval.congruence_finishes.toSequential _ _ q carries ?_ ⟨rfl, rfl⟩
  intro map body applies found inner _ related
  exact bodies map body applies found inner related.2

/-- A query that is evaluated while the bodies of some maps are: no map that it can come to apply comes to apply itself,
and it can come to apply none of those maps. -/
structure ClearOf (active : Scope) (q : Query) : Prop where
  acyclic : q.Acyclic active.maps
  others : ∀ map ∈ active.expanding, ¬ q.Applies active.maps map

/-- A map that is entered is none of those whose bodies are being evaluated, and its body can come to apply neither it nor
those. -/
theorem ClearOf.enter {active : Scope} {q body : Query} {map : String} (clear : q.ClearOf active)
    (applies : q.Applies active.maps map) (found : active.maps.find? map = some body) :
    map ∉ active.expanding ∧ body.ClearOf (active.entering map) := by
  have walk : q.Reaches active.maps [] body := applies.reaches_body found
  refine ⟨fun isActive => clear.others map isActive applies, clear.acyclic.onward walk, ?_⟩
  refine List.forall_mem_cons.mpr ⟨clear.acyclic map body applies found, ?_⟩
  exact fun other isActive again => clear.others other isActive (again.onward walk)

/-- While the bodies of some maps are being evaluated, a query comes to an end if the bound leaves room for all others. -/
theorem eval_finishes (world : World) {bound : Nat} {q : Query} {active : Scope} {ctx : Context}
    (ofMaps : ctx.maps = active.maps) (clear : q.ClearOf active) (room : active.unwalked ≤ bound) :
    (q.eval world bound ctx).Finishes := by
  induction bound generalizing q active ctx with
  | zero =>
    refine evalWith_finishes fun map body applies found inner sameMaps => ?_
    rw [ofMaps] at applies found
    obtain ⟨isOpen, -⟩ := clear.enter applies found
    have less := Scope.unwalked_entering isOpen found
    omega
  | succ bound ih =>
    refine evalWith_finishes fun map body applies found inner sameMaps => ?_
    rw [ofMaps] at applies found
    obtain ⟨isOpen, clearThere⟩ := clear.enter applies found
    have less := Scope.unwalked_entering isOpen found
    have ofMapsThere : inner.maps = (active.entering map).maps := sameMaps.trans ofMaps
    exact ih ofMapsThere clearThere (by omega)

/-- Where no map that a query can come to apply comes to apply itself, the query comes to an end in every context and from
every store, a value or an error. The number of maps is room enough for its applications, so no more bodies than there
are maps are ever being evaluated at once, and with any more room the end is the same. -/
theorem eval_ends_of_acyclic (world : World) (q : Query) (ctx : Context) (acyclic : q.Acyclic ctx.maps) (s : Store) :
    ∃ outcome t, ∀ bound, ctx.maps.size ≤ bound → (q.eval world bound ctx).run.run s = some (outcome, t) := by
  have clear : q.ClearOf { maps := ctx.maps } := ⟨acyclic, by simp⟩
  obtain ⟨⟨outcome, t⟩, ran⟩ := eval_finishes world rfl clear (Scope.unwalked_le_size _) s
  exact ⟨outcome, t, fun bound room => q.eval_extends world room ctx s _ ran⟩

/-- A name of its parameter, and the same in capitals by another map. -/
def addresses : Table Query :=
  (Table.empty.put "name" (.get (.field []) ["name"])).put "shout" (.inCase (.apply (.field []) "name") .upper)

/-- The first map in vain, then the one that applies it. -/
def addressed : Query :=
  .orElse (.apply (.literal .null) "name") (.query (.apply (.literal (.object [("name", .string "ann")])) "shout"))

/-- Two maps, of which one applies the other: two levels of bodies are enough. -/
theorem eval_ends_of_acyclic_addressed :
    ∃ t, ∀ bound, 2 ≤ bound →
      (addressed.eval .blank bound { maps := addresses }).run.run {} = some (.ok (.string "ANN"), t) := by
  have acyclic : addressed.Acyclic addresses := by
    have ofName : addresses.find? "name" = some (.get (.field []) ["name"]) := rfl
    rintro map body - found ⟨receiver, walk⟩
    have entry : (map, body) ∈ [("name", .get (.field []) ["name"]), ("shout", .inCase (.apply (.field []) "name") .upper)] :=
      Table.mem_of_find? found
    rcases List.mem_cons.mp entry with same | others
    · cases same
      have apart : (Query.get (.field []) ["name"]).Throughout addresses (· ≠ .apply receiver "name") := by
        refine throughout_of_steps [.get (.field []) ["name"], .field []] ?_ ?_ ?_
        · simp
        · simp [leads_iff, parts]
        · simp
      exact apart _ walk rfl
    · cases List.mem_singleton.mp others
      have apart : (Query.inCase (.apply (.field []) "name") .upper).Throughout addresses (· ≠ .apply receiver "shout") := by
        refine throughout_of_steps
          [.inCase (.apply (.field []) "name") .upper, .apply (.field []) "name", .get (.field []) ["name"], .field []] ?_ ?_ ?_
        · simp
        · simp [leads_iff, parts, ofName]
        · simp
      exact apart _ walk rfl
  obtain ⟨outcome, t, ends⟩ := eval_ends_of_acyclic .blank addressed { maps := addresses } acyclic {}
  have ran : ∃ t, (addressed.eval .blank 2 { maps := addresses }).run.run {} = some (.ok (.string "ANN"), t) := ⟨_, rfl⟩
  obtain ⟨t', same⟩ := ran
  rw [ends 2 (by decide)] at same
  cases same
  exact ⟨t, ends⟩

end Query

end RecordQuery
