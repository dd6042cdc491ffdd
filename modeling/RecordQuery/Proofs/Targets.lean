import RecordQuery.Proofs.Reach
import RecordQuery.Query.Targets

/-!
# What the analysis of targets finds

The targets of a query are those that the nodes it reaches report for themselves: none is missed, since
a map that is being walked further up is only cut off where its body adds nothing new, and none is made
up. The analysis of a part leaves the scope as it found it, so the parts of a query are all analysed in
the scope of the query.
-/

namespace RecordQuery

namespace Query

/-- The targets that a query reports for itself, apart from its parts and from maps that it applies. -/
def ownTargets : Query → List Target
  | .field path => [⟨.value, path⟩]
  | .json path => [⟨.value, path⟩]
  | .content => [⟨.value, []⟩]
  | .metadata => [⟨.metadata, []⟩]
  | .metadataAt (.value (.string key)) => [⟨.metadata, [key]⟩]
  | .var (.value (.string name)) => [⟨.variable, [name]⟩]
  | _ => []

end Query

/-! ## One walk through a tree -/

section

variable {enter : Query → Scope → Survey} {scope : Scope} {target : Target}

private theorem Arg.targetsWith_scope_of_parts {arg : Arg}
    (parts : ∀ part ∈ arg.parts, ∀ scope, (part.targetsWith enter scope).1 = scope) :
    (arg.targetsWith enter scope).1 = scope := by
  cases arg with
  | value v => rw [Arg.targetsWith]
  | query q => rw [Arg.targetsWith, parts q (by simp)]

theorem Arg.mem_targetsWith {arg : Arg} :
    target ∈ (arg.targetsWith enter scope).2 ↔
      ∃ part ∈ arg.parts, target ∈ (part.targetsWith enter scope).2 := by
  cases arg <;> simp [Arg.targetsWith]

namespace Query

/-- The scope comes back as it was passed in. -/
theorem targetsWith_scope (q : Query) (scope : Scope) : (q.targetsWith enter scope).1 = scope := by
  induction q using partsInduction generalizing scope with
  | step q ih =>
    cases q with
    | env arg | randomIntFrom arg _ | throwing arg => exact Arg.targetsWith_scope_of_parts ih
    | metadataAt arg | var arg =>
      have ofArg : (arg.targetsWith enter scope).1 = scope := Arg.targetsWith_scope_of_parts ih
      rw [targetsWith.eq_def]
      split
      all_goals simp_all
    | apply receiver map =>
      have ofReceiver := ih receiver (by simp [parts]) scope
      simp only [targetsWith, ofReceiver]
      split
      · rfl
      · split <;> rfl
    | catching receiver arg | orElse receiver arg | atRecord receiver arg =>
      have ofReceiver := ih receiver (by simp [parts]) scope
      have ofArg : (arg.targetsWith enter scope).1 = scope :=
        Arg.targetsWith_scope_of_parts fun part member => ih part (by simp [parts, member])
      simp only [targetsWith, ofReceiver, ofArg]
    | get receiver _ | inCase receiver _ => exact ih receiver (by simp [parts]) scope
    | _ => rfl

end Query

theorem Arg.targetsWith_scope (arg : Arg) (scope : Scope) : (arg.targetsWith enter scope).1 = scope :=
  Arg.targetsWith_scope_of_parts fun part _ => part.targetsWith_scope

namespace Query

/-- A target found is the query's own, or that of a part, or, at an application, one that is found in
the body of the map. -/
theorem mem_targetsWith {q : Query} :
    target ∈ (q.targetsWith enter scope).2 ↔
      target ∈ q.ownTargets ∨ (∃ part ∈ q.parts, target ∈ (part.targetsWith enter scope).2) ∨
        ∃ receiver map body, q = .apply receiver map ∧ map ∉ scope.expanding ∧
          scope.maps.find? map = some body ∧ target ∈ (enter body (scope.entering map)).2 := by
  cases q with
  | env arg | randomIntFrom arg _ | throwing arg =>
    simp [targetsWith, ownTargets, parts, Arg.mem_targetsWith]
  | metadataAt arg | var arg =>
    cases arg with
    | value v => cases v <;> simp [targetsWith, ownTargets, parts, Arg.targetsWith]
    | query q => simp [targetsWith, ownTargets, parts, Arg.targetsWith]
  | apply receiver map =>
    simp only [targetsWith, targetsWith_scope, ownTargets, parts]
    by_cases walked : map ∈ scope.expanding
    · simp [walked]
    · cases found : scope.maps.find? map with
      | none => simp [walked, found]
      | some body =>
        constructor
        · intro member
          rcases List.mem_append.mp (by simpa [walked] using member) with ofReceiver | ofBody
          · exact .inr (.inl ⟨receiver, by simp, ofReceiver⟩)
          · exact .inr (.inr ⟨receiver, map, body, rfl, walked, found, ofBody⟩)
        · rintro (own | ⟨part, member, ofPart⟩ | ⟨_, _, other, same, -, foundOther, ofBody⟩)
          · simp at own
          · obtain rfl : part = receiver := by simpa using member
            simp [walked, ofPart]
          · cases same
            obtain rfl : body = other := Option.some.inj (found.symm.trans foundOther)
            simp [walked, ofBody]
  | catching receiver arg | orElse receiver arg | atRecord receiver arg =>
    simp [targetsWith, targetsWith_scope, Arg.mem_targetsWith, ownTargets, parts]
  | get receiver _ | inCase receiver _ => simp [targetsWith, ownTargets, parts]
  | _ => simp [targetsWith, ownTargets, parts]

end Query

end

/-! ## Bodies of maps -/

/-- How many maps of the table are not being walked. -/
def Scope.unwalked (scope : Scope) : Nat :=
  scope.maps.entries.countP fun entry => entry.1 ∉ scope.expanding

namespace Scope

theorem unwalked_le_size (scope : Scope) : scope.unwalked ≤ scope.maps.size :=
  List.countP_le_length

/-- Entering a map leaves one map less that can still be entered. -/
theorem unwalked_entering {scope : Scope} {map : String} {body : Query} (isOpen : map ∉ scope.expanding)
    (found : scope.maps.find? map = some body) : (scope.entering map).unwalked < scope.unwalked := by
  obtain ⟨before, after, split, -⟩ := List.lookup_eq_some_iff.mp found
  have fewer (entries : List (String × Query)) :
      (entries.countP fun entry => entry.1 ∉ map :: scope.expanding) ≤
        entries.countP fun entry => entry.1 ∉ scope.expanding := by
    refine List.countP_mono_left fun entry _ unlisted => ?_
    simp only [List.mem_cons, not_or, decide_eq_true_eq] at unlisted ⊢
    exact unlisted.2
  have ofBefore := fewer before
  have ofAfter := fewer after
  simp only [unwalked, entering, split, List.countP_append, List.countP_cons]
  simp only [List.mem_cons, true_or, not_true_eq_false, isOpen, not_false_eq_true, decide_true,
    decide_false, Bool.false_eq_true, if_true, if_false]
  simp only [List.mem_cons] at ofBefore ofAfter
  omega

end Scope

namespace Query

variable {target : Target}

/-- The walk through one tree makes up no target, if the walks through bodies of maps make up none. -/
theorem reaches_of_mem_targetsWith {enter : Query → Scope → Survey} {scope : Scope} {q : Query}
    (bodies : ∀ map body, target ∈ (enter body (scope.entering map)).2 →
      ∃ node, body.Reaches scope.maps (map :: scope.expanding) node ∧ target ∈ node.ownTargets)
    (member : target ∈ (q.targetsWith enter scope).2) :
    ∃ node, q.Reaches scope.maps scope.expanding node ∧ target ∈ node.ownTargets := by
  induction q using partsInduction with
  | step q ih =>
    rcases mem_targetsWith.mp member with
      own | ⟨part, isPart, ofPart⟩ | ⟨receiver, map, body, rfl, isOpen, found, ofBody⟩
    · exact ⟨q, .refl, own⟩
    · obtain ⟨node, walk, own⟩ := ih part isPart ofPart
      exact ⟨node, walk.head (.part isPart), own⟩
    · obtain ⟨node, walk, own⟩ := bodies map body ofBody
      have onward : body.Reaches scope.maps scope.expanding node :=
        walk.mono (List.subset_cons_self map scope.expanding)
      exact ⟨node, onward.head (.body isOpen found), own⟩

/-- Every target found is one that a node reports for itself which the query reaches without entering
again the maps that are being walked. -/
theorem reaches_of_mem_targetsWithin {bound : Nat} {q : Query} {scope : Scope}
    (member : target ∈ (q.targetsWithin bound scope).2) :
    ∃ node, q.Reaches scope.maps scope.expanding node ∧ target ∈ node.ownTargets := by
  induction bound generalizing q scope with
  | zero =>
    refine reaches_of_mem_targetsWith (fun map body ofBody => ?_) member
    simp at ofBody
  | succ bound within => exact reaches_of_mem_targetsWith (fun map body ofBody => within ofBody) member

/-- The walk through one tree misses no target, if the walks through bodies of maps miss none. -/
theorem mem_targetsWith_of_reaches {enter : Query → Scope → Survey} {scope : Scope} {q node : Query}
    (bodies : ∀ map body, map ∉ scope.expanding → scope.maps.find? map = some body →
      body.Reaches scope.maps (map :: scope.expanding) node →
        target ∈ (enter body (scope.entering map)).2)
    (walk : q.Reaches scope.maps scope.expanding node) (own : target ∈ node.ownTargets) :
    target ∈ (q.targetsWith enter scope).2 := by
  induction walk using Relation.ReflTransGen.head_induction_on with
  | refl => exact mem_targetsWith.mpr (.inl own)
  | head step onward ih =>
    cases step with
    | part member => exact mem_targetsWith.mpr (.inr (.inl ⟨_, member, ih⟩))
    | @body receiver _ map isOpen found =>
      have ofBody := bodies map _ isOpen found (Reaches.close found onward)
      exact mem_targetsWith.mpr (.inr (.inr ⟨receiver, map, _, rfl, isOpen, found, ofBody⟩))

/-- No target is missed if the bound is at least the number of maps that are not being walked. -/
theorem mem_targetsWithin_of_reaches {bound : Nat} {q node : Query} {scope : Scope}
    (enough : scope.unwalked ≤ bound) (walk : q.Reaches scope.maps scope.expanding node)
    (own : target ∈ node.ownTargets) : target ∈ (q.targetsWithin bound scope).2 := by
  induction bound generalizing q scope with
  | zero =>
    refine mem_targetsWith_of_reaches (fun map body isOpen found _ => ?_) walk own
    have less := Scope.unwalked_entering isOpen found
    omega
  | succ bound within =>
    refine mem_targetsWith_of_reaches (fun map body isOpen found onward => ?_) walk own
    have less := Scope.unwalked_entering isOpen found
    exact within (by omega) onward

/-- The targets found from any scope. -/
theorem mem_targets {q : Query} {scope : Scope} :
    target ∈ (q.targets scope).2 ↔
      ∃ node, q.Reaches scope.maps scope.expanding node ∧ target ∈ node.ownTargets := by
  constructor
  · exact reaches_of_mem_targetsWithin
  · rintro ⟨node, walk, own⟩
    exact mem_targetsWithin_of_reaches scope.unwalked_le_size walk own

theorem targetsWithin_scope (bound : Nat) (q : Query) (scope : Scope) :
    (q.targetsWithin bound scope).1 = scope := by
  cases bound <;> exact targetsWith_scope q scope

/-- The analysis finds the targets that the nodes report for themselves which the query reaches, and no
others; and from any scope it gives that scope back, so that it finds the same in a part whatever was
analysed before. -/
theorem targets_eq_reachable (q : Query) (maps : Table Query) :
    (∀ target, target ∈ (q.targets { maps }).2 ↔
      ∃ node, q.Reaches maps [] node ∧ target ∈ node.ownTargets) ∧
    (∀ scope, (q.targets scope).1 = scope) ∧
    ∀ scope target, target ∈ (q.targets scope).2 ↔
      ∃ node, q.Reaches scope.maps scope.expanding node ∧ target ∈ node.ownTargets :=
  ⟨fun _ => mem_targets, fun scope => targetsWithin_scope scope.maps.size q scope, fun _ _ => mem_targets⟩

end Query

end RecordQuery
