import RecordQuery.Proofs.Alike

/-!
# The bound on nested applications

A bound cuts off evaluations that nest applications of maps deeper, and does nothing else: what ends within a
bound ends in the same way within every larger one (`Query.eval_extends`). So the ends that a query comes to when no bound
is set are those within some bound (`Query.Ends`).
-/

namespace RecordQuery

namespace Eval

/-- Wherever the one computation ends, the other ends in the same way. -/
def Extends {α : Type} (x y : Eval α) : Prop :=
  ∀ s outcome, x.run.run s = some outcome → y.run.run s = some outcome

namespace Extends

variable {α β : Type}

theorem refl (x : Eval α) : Extends x x := fun _ _ ended => ended

theorem bind {x y : Eval α} {f g : α → Eval β} (first : Extends x y) (next : ∀ a, Extends (f a) (g a)) :
    Extends (x >>= f) (y >>= g) := by
  intro s outcome ended
  rw [run_bind] at ended ⊢
  obtain ⟨⟨result, t⟩, started, rest⟩ := Option.bind_eq_some_iff.mp ended
  rw [first s _ started, Option.bind_some]
  cases result with
  | ok a => exact next a t outcome rest
  | error e => exact rest

theorem attempt {x y : Eval α} (related : Extends x y) : Extends x.attempt y.attempt := by
  intro s outcome ended
  rw [run_attempt] at ended ⊢
  obtain ⟨after, started, rest⟩ := Option.bind_eq_some_iff.mp ended
  rw [related s after started]
  exact rest

end Extends

theorem congruence_extends : Congruence fun _ => Extends where
  pure _ := .refl _
  throw _ := .refl _
  note _ _ _ := .refl _
  bind first next := first.bind next
  attempt related := related.attempt

end Eval

/-- An evaluation that ends within a bound ends in the same way within any larger one. -/
theorem Query.eval_extends (world : World) {bound larger : Nat} (within : bound ≤ larger) (q : Query) (ctx : Context) :
    Eval.Extends (q.eval world bound ctx) (q.eval world larger ctx) := by
  have draws (q : Query) : q.Throughout ctx.maps (DrawsAlike (fun _ => Eval.Extends) world world) :=
    fun node _ => node.drawsAlike_refl (fun _ => .refl) world
  -- On the maps of the context, whatever else of it changes on the way to a body.
  suffices extending : ∀ (q : Query) (left right : Context), left = right ∧ left.maps = ctx.maps →
      Eval.Extends (q.eval world bound left) (q.eval world larger right) from extending q ctx ctx ⟨rfl, rfl⟩
  induction bound generalizing larger with
  | zero =>
    intro q left right same
    cases larger with
    | zero =>
      obtain ⟨rfl, -⟩ := same
      exact .refl _
    | succ larger =>
      -- A body that is not entered does not end.
      refine evalWith_related Eval.congruence_extends (q.inStep_refl world ctx.maps) (draws q) ?_ same
      intro body _ left right _ s outcome ended
      cases ended
  | succ bound ih =>
    intro q left right same
    obtain ⟨larger, rfl⟩ := Nat.exists_eq_succ_of_ne_zero (Nat.ne_zero_of_lt within)
    refine evalWith_related Eval.congruence_extends (q.inStep_refl world ctx.maps) (draws q) ?_ same
    intro body _ left right same
    exact ih (Nat.le_of_succ_le_succ within) body left right same

namespace Query

/-- From a store a query comes to an end, an outcome with a store, where applications of maps nest as deep as they need. -/
def Ends (world : World) (q : Query) (ctx : Context) (s : Store) (ended : Except Error Value × Store) : Prop :=
  ∃ bound, (q.eval world bound ctx).run.run s = some ended

/-- Queries come to the same ends if they do within all bounds but the least. -/
theorem ends_iff_of_eval_succ {world : World} {q q' : Query} {ctx : Context}
    (same : ∀ bound, q.eval world (bound + 1) ctx = q'.eval world (bound + 1) ctx) (s : Store)
    (ended : Except Error Value × Store) : q.Ends world ctx s ended ↔ q'.Ends world ctx s ended := by
  have onward {q q' : Query} (same : ∀ bound, q.eval world (bound + 1) ctx = q'.eval world (bound + 1) ctx) :
      q.Ends world ctx s ended → q'.Ends world ctx s ended := by
    rintro ⟨bound, ran⟩
    refine ⟨bound + 1, ?_⟩
    rw [← same bound]
    exact q.eval_extends world (Nat.le_succ bound) ctx s ended ran
  exact ⟨onward same, onward fun bound => (same bound).symm⟩

end Query

end RecordQuery
