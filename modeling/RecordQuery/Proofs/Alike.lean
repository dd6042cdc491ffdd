import RecordQuery.Proofs.InStep

/-!
# What evaluation makes of its store

Computations that give the same outcome from stores that are the same in some respect, and leave them the
same in that respect (`Eval.Alike`). An evaluation writes to the log but never reads it
(`Query.eval_alike_of_sameProgress`), so a log may be written in between without changing what follows.
-/

namespace RecordQuery

theorem rel_bind {α β γ δ : Type} {r : α → β → Prop} {after : γ → δ → Prop} {x : Option α} {y : Option β}
    {f : α → Option γ} {g : β → Option δ} (first : Option.Rel r x y)
    (next : ∀ a b, r a b → Option.Rel after (f a) (g b)) : Option.Rel after (x.bind f) (y.bind g) := by
  cases first with
  | some related => exact next _ _ related
  | none => exact .none

section

variable {α β : Type} {r : α → β → Prop} {x : Option α} {y : Option β}

theorem some_right_of_rel (related : Option.Rel r x y) {a : α} (found : x = some a) : ∃ b, y = some b ∧ r a b := by
  subst found
  cases related with
  | some pair => exact ⟨_, rfl, pair⟩

theorem some_left_of_rel (related : Option.Rel r x y) {b : β} (found : y = some b) : ∃ a, x = some a ∧ r a b := by
  subst found
  cases related with
  | some pair => exact ⟨_, rfl, pair⟩

end

/-- A computation goes on from the state that its first part leaves, unless that part fails or does not end. -/
theorem run_bind {ε σ α β : Type} (x : ExceptT ε (StateT σ Option) α) (f : α → ExceptT ε (StateT σ Option) β) (s : σ) :
    (x >>= f).run.run s = (x.run.run s).bind fun
      | (.ok a, t) => (f a).run.run t
      | (.error e, t) => some (.error e, t) := by
  rw [ExceptT.run_bind, StateT.run_bind]
  refine congrArg (Option.bind (x.run.run s)) (funext fun after => ?_)
  obtain ⟨outcome, t⟩ := after
  cases outcome <;> rfl

namespace Eval

theorem run_attempt {α : Type} (x : Eval α) (s : Store) :
    (attempt x).run.run s = (x.run.run s).bind fun after => some (pure after.1, after.2) := by
  rw [attempt, ExceptT.run_mk]
  simp only [StateT.run]
  cases x.run s <;> rfl

/-- Two ends of computations: the same outcome, and stores that are the same in some respect. -/
def SameEnd (same : Store → Store → Prop) {α : Type} (left right : Except Error α × Store) : Prop :=
  left.1 = right.1 ∧ same left.2 right.2

/-- From stores that are the same in some respect, two computations come to the same end in that respect, or
both to none. -/
def Alike (same : Store → Store → Prop) {α : Type} (x y : Eval α) : Prop :=
  ∀ s t, same s t → Option.Rel (SameEnd same) (x.run.run s) (y.run.run t)

namespace Alike

variable {same : Store → Store → Prop} {α β : Type}

theorem bind {x y : Eval α} {f g : α → Eval β} (first : Alike same x y) (next : ∀ a, Alike same (f a) (g a)) :
    Alike same (x >>= f) (y >>= g) := by
  intro s t related
  rw [run_bind, run_bind]
  refine rel_bind (first s t related) ?_
  rintro ⟨outcome, after⟩ ⟨_, after'⟩ ⟨rfl, relatedAfter⟩
  cases outcome with
  | ok a => exact next a _ _ relatedAfter
  | error e => exact .some ⟨rfl, relatedAfter⟩

theorem attempt {x y : Eval α} (alike : Alike same x y) : Alike same x.attempt y.attempt := by
  intro s t related
  rw [run_attempt, run_attempt]
  refine rel_bind (alike s t related) ?_
  rintro ⟨outcome, after⟩ ⟨_, after'⟩ ⟨rfl, relatedAfter⟩
  exact .some ⟨rfl, relatedAfter⟩

end Alike

/-- Being the same in a respect that the log does not change is kept by all that evaluation is composed of. -/
theorem congruence_alike {same : Store → Store → Prop}
    (noted : ∀ s t entry, same s t →
      same { s with log := s.log.push entry } { t with log := t.log.push entry }) :
    Congruence fun _ => Alike same where
  pure _ := fun _ _ related => .some ⟨rfl, related⟩
  throw _ := fun _ _ related => .some ⟨rfl, related⟩
  note _ _ _ := fun s t related => .some ⟨rfl, noted s t _ related⟩
  bind first next := first.bind next
  attempt alike := alike.attempt

end Eval

/-! ## Progress -/

/-- Two stores that differ in nothing but their logs. -/
def Store.SameProgress (s t : Store) : Prop :=
  s.draws = t.draws ∧ s.clockReadings = t.clockReadings ∧ s.entropyTaken = t.entropyTaken

namespace Store.SameProgress

variable {s t : Store}

theorem refl (s : Store) : s.SameProgress s := ⟨rfl, rfl, rfl⟩

theorem drawn (same : s.SameProgress t) (cell : Nat) : s.drawn cell = t.drawn cell := by
  rw [Store.drawn, Store.drawn, same.1]

theorem advance (same : s.SameProgress t) (cell : Nat) : (s.advance cell).SameProgress (t.advance cell) := by
  refine ⟨?_, same.2⟩
  rw [Store.advance, Store.advance, same.1]

end Store.SameProgress

/-- What evaluation draws depends on the progress of the store alone. -/
theorem Query.drawsAlike_of_sameProgress (world : World) (q : Query) :
    q.DrawsAlike (fun _ => Eval.Alike Store.SameProgress) world world := by
  have draw (cell : Nat) : Eval.Alike Store.SameProgress (Eval.draw cell) (Eval.draw cell) := by
    intro s t same
    exact .some ⟨congrArg Except.ok (same.drawn cell), same.advance cell⟩
  have now : Eval.Alike Store.SameProgress (Eval.now world) (Eval.now world) := by
    intro s t same
    refine .some ⟨congrArg (fun read => Except.ok (world.clock read)) same.2.1, same.1, ?_, same.2.2⟩
    exact congrArg (· + 1) same.2.1
  have word : Eval.Alike Store.SameProgress (Eval.randomWord world) (Eval.randomWord world) := by
    intro s t same
    refine .some ⟨congrArg (fun taken => Except.ok (world.entropy taken)) same.2.2, same.1, same.2.1, ?_⟩
    exact congrArg (· + 1) same.2.2
  unfold DrawsAlike
  split
  · exact draw _
  · exact draw _
  · exact draw _
  · exact now
  · exact now
  · exact now
  · exact word
  · trivial

/-- An evaluation does not read the log: from stores of the same progress it comes to the same end, again with
the same progress. -/
theorem Query.eval_alike_of_sameProgress (world : World) (bound : Nat) (q : Query) (ctx : Context) :
    Eval.Alike Store.SameProgress (q.eval world bound ctx) (q.eval world bound ctx) := by
  have congruence : Eval.Congruence fun _ => Eval.Alike Store.SameProgress :=
    Eval.congruence_alike fun _ _ _ same => same
  exact eval_related congruence (fun _ _ _ => .none) (q.inStep_refl world ctx.maps)
    (fun node _ => node.drawsAlike_of_sameProgress world) bound ⟨rfl, rfl⟩

end RecordQuery
