import Mathlib.Data.List.Perm.Subperm
import RecordQuery.Proofs.Targets

/-!
# Expansions of maps

The analysis of targets walks the body of a named map at every application of it, except where that body is being walked
already. So the maps whose bodies are being walked are different maps of the table (`Scope.Nests`), no more nest than the
table has, and the analysis ends on tables of any shape. A bound that leaves room for that many changes nothing, neither
the targets nor their order, and what stands for the bodies beyond it is never asked (`Query.expansions_nest`).
-/

namespace RecordQuery

/-! ## One walk through a tree -/

section

variable {enter enter' : Query → Scope → Survey}

private theorem Arg.targetsWith_congr_of_parts {arg : Arg} {scope : Scope}
    (parts : ∀ part ∈ arg.parts, part.targetsWith enter scope = part.targetsWith enter' scope) :
    arg.targetsWith enter scope = arg.targetsWith enter' scope := by
  cases arg with
  | value v => rw [Arg.targetsWith, Arg.targetsWith]
  | query q => rw [Arg.targetsWith, Arg.targetsWith, parts q (by simp)]

/-- The walk through one tree asks for nothing but the bodies of maps of the table that are not being walked. -/
theorem Query.targetsWith_congr {scope : Scope}
    (same : ∀ map body, map ∉ scope.expanding → scope.maps.find? map = some body →
      enter body (scope.entering map) = enter' body (scope.entering map)) (q : Query) :
    q.targetsWith enter scope = q.targetsWith enter' scope := by
  induction q using partsInduction with
  | step q ih =>
    cases q with
    | env arg | randomIntFrom arg _ | throwing arg => exact Arg.targetsWith_congr_of_parts ih
    | metadataAt arg | var arg =>
      have ofArg : arg.targetsWith enter scope = arg.targetsWith enter' scope := Arg.targetsWith_congr_of_parts ih
      rw [targetsWith.eq_def, targetsWith.eq_def]
      split
      all_goals simp_all
    | apply receiver map =>
      have ofReceiver := ih receiver (by simp [parts])
      have scopeAfter : (receiver.targetsWith enter' scope).1 = scope := receiver.targetsWith_scope scope
      simp only [targetsWith, ofReceiver, scopeAfter]
      by_cases walked : map ∈ scope.expanding
      · simp [walked]
      · cases found : scope.maps.find? map with
        | none => rfl
        | some body => simp [walked, same map body walked found]
    | catching receiver arg | orElse receiver arg | atRecord receiver arg =>
      have ofReceiver := ih receiver (by simp [parts])
      have scopeAfter : (receiver.targetsWith enter' scope).1 = scope := receiver.targetsWith_scope scope
      have ofArg : arg.targetsWith enter scope = arg.targetsWith enter' scope :=
        Arg.targetsWith_congr_of_parts fun part member => ih part (by simp [parts, member])
      simp only [targetsWith, ofReceiver, scopeAfter, ofArg]
    | get receiver _ | inCase receiver _ => exact ih receiver (by simp [parts])
    | _ => rfl

end

/-! ## The maps that are being walked -/

/-- The maps whose bodies are being walked are different maps of the table. -/
structure Scope.Nests (maps : Table Query) (scope : Scope) : Prop where
  sameMaps : scope.maps = maps
  distinct : scope.expanding.Nodup
  listed : ∀ map ∈ scope.expanding, map ∈ maps.names

namespace Scope.Nests

variable {maps : Table Query} {scope : Scope}

theorem start (maps : Table Query) : Scope.Nests maps { maps } := ⟨rfl, List.nodup_nil, by simp⟩

theorem entering {map : String} {body : Query} (nests : scope.Nests maps) (isOpen : map ∉ scope.expanding)
    (found : scope.maps.find? map = some body) : (scope.entering map).Nests maps where
  sameMaps := nests.sameMaps
  distinct := List.nodup_cons.mpr ⟨isOpen, nests.distinct⟩
  listed := by
    rw [nests.sameMaps] at found
    exact List.forall_mem_cons.mpr ⟨List.mem_map_of_mem (Table.mem_of_find? found), nests.listed⟩

/-- No more maps are being walked than there are. -/
theorem length_le (nests : scope.Nests maps) : scope.expanding.length ≤ maps.size := by
  have fits := (List.subperm_of_subset nests.distinct nests.listed).length_le
  rwa [Table.names, List.length_map] at fits

end Scope.Nests

/-! ## Walks with notes -/

/-- Walks the bodies of maps down to a bound, and writes what `note` makes of the scope before the targets that it finds
in a body. Deeper bodies are left to `beyond`. -/
def Scope.enterNoted (note : Scope → List Target) (beyond : Query → Scope → Survey) : Nat → Query → Scope → Survey
  | 0 => beyond
  | bound + 1 => fun body scope =>
    let survey := body.targetsWith (enterNoted note beyond bound) scope
    (survey.1, note scope ++ survey.2)

namespace Query

variable {note : Scope → List Target} {beyond beyond' : Query → Scope → Survey}

/-- Where the bound leaves room for all maps that are not being walked, it does not matter, nor what is beyond it. -/
theorem enterNoted_eq {bound bound' : Nat} {scope : Scope} {map : String} {body : Query} (isOpen : map ∉ scope.expanding)
    (found : scope.maps.find? map = some body) (room : scope.unwalked ≤ bound) (room' : scope.unwalked ≤ bound') :
    Scope.enterNoted note beyond bound body (scope.entering map) =
      Scope.enterNoted note beyond' bound' body (scope.entering map) := by
  have less := Scope.unwalked_entering isOpen found
  induction bound generalizing bound' scope map body with
  | zero => omega
  | succ bound ih =>
    obtain ⟨bound', rfl⟩ : ∃ smaller, bound' = smaller + 1 := ⟨bound' - 1, by omega⟩
    have same : body.targetsWith (Scope.enterNoted note beyond bound) (scope.entering map) =
        body.targetsWith (Scope.enterNoted note beyond' bound') (scope.entering map) := by
      refine targetsWith_congr (fun inner innerBody innerOpen innerFound => ?_) body
      exact ih innerOpen innerFound (by omega) (by omega) (Scope.unwalked_entering innerOpen innerFound)
    simp only [Scope.enterNoted, same]

/-- Without notes, and nothing found beyond the bound, this is the analysis within the bound. -/
theorem targetsWith_enterNoted_nothing (bound : Nat) :
    targetsWith (Scope.enterNoted (fun _ => []) (fun _ scope => (scope, [])) bound) = targetsWithin bound := by
  induction bound with
  | zero => rfl
  | succ bound ih =>
    rw [targetsWithin, ← ih]
    rfl

/-- Notes are all that is added to the analysis, each of them about a scope that nests. -/
theorem mem_enterNoted {maps : Table Query} {bound : Nat} {q : Query} {scope : Scope} {target : Target}
    (nests : scope.Nests maps) (room : scope.unwalked ≤ bound)
    (member : target ∈ (q.targetsWith (Scope.enterNoted note beyond bound) scope).2) :
    target ∈ (q.targetsWithin bound scope).2 ∨ ∃ inner : Scope, inner.Nests maps ∧ target ∈ note inner := by
  induction bound generalizing q scope with
  | zero =>
    refine .inl ?_
    rwa [targetsWithin, ← targetsWith_congr fun map body isOpen found => ?_]
    have less := Scope.unwalked_entering isOpen found
    omega
  | succ bound within =>
    rw [targetsWithin]
    induction q using partsInduction with
    | step q ih =>
      rcases mem_targetsWith.mp member with own | ⟨part, isPart, ofPart⟩ | ⟨receiver, map, body, same, isOpen, found, ofBody⟩
      · exact .inl (mem_targetsWith.mpr (.inl own))
      · exact (ih part isPart ofPart).imp_left fun inPart => mem_targetsWith.mpr (.inr (.inl ⟨part, isPart, inPart⟩))
      · have less := Scope.unwalked_entering isOpen found
        have nestsThere := nests.entering isOpen found
        rcases List.mem_append.mp ofBody with noted | ofBody
        · exact .inr ⟨scope.entering map, nestsThere, noted⟩
        · refine (within nestsThere (by omega) ofBody).imp_left fun inBody => ?_
          exact mem_targetsWith.mpr (.inr (.inr ⟨receiver, map, body, same, isOpen, found, inBody⟩))

/-- On tables of any shape the analysis ends: a bound that leaves room for as many bodies inside one another as there are
maps gives the targets, in their order, whatever stands for the bodies beyond it. Wherever a body is entered, the maps
whose bodies are being walked are different maps of the table, so there are no more of them than maps. -/
theorem expansions_nest (q : Query) (maps : Table Query) (bound : Nat) (room : maps.size ≤ bound) :
    q.targetsWithin bound { maps } = q.targets { maps } ∧
    ∀ beyond : Query → Scope → Survey,
      q.targetsWith (Scope.enterNoted (fun _ => []) beyond bound) { maps } = q.targets { maps } ∧
      ∀ (note : Scope → List Target), ∀ target ∈ (q.targetsWith (Scope.enterNoted note beyond bound) { maps }).2,
        target ∈ (q.targets { maps }).2 ∨
          ∃ scope : Scope, scope.Nests maps ∧ scope.expanding.length ≤ maps.size ∧ target ∈ note scope := by
  have unwalked : Scope.unwalked { maps } ≤ maps.size := Scope.unwalked_le_size _
  have any (beyond : Query → Scope → Survey) :
      q.targetsWith (Scope.enterNoted (fun _ => []) beyond bound) { maps } = q.targets { maps } := by
    rw [targets, ← targetsWith_enterNoted_nothing]
    refine targetsWith_congr (fun map body isOpen found => ?_) q
    exact enterNoted_eq isOpen found (by omega) unwalked
  have within : q.targetsWithin bound { maps } = q.targets { maps } := by
    rw [← targetsWith_enterNoted_nothing]
    exact any _
  refine ⟨within, fun beyond => ⟨any beyond, fun note target member => ?_⟩⟩
  rw [← within]
  refine (mem_enterNoted (.start maps) (by omega) member).imp_right ?_
  rintro ⟨scope, nests, noted⟩
  exact ⟨scope, nests, nests.length_le, noted⟩

/-- Two maps that apply each other. -/
def pingPong : Table Query :=
  (Table.empty.put "ping" (.apply (.field ["a"]) "pong")).put "pong" (.apply (.field ["b"]) "ping")

def serve : Query := .apply (.field []) "ping"

/-- The maps that are being walked, written down as a variable of that path. -/
def walked (scope : Scope) : List Target := [⟨.variable, scope.expanding⟩]

/-- Bodies beyond the bound would be found to read metadata. -/
def overrun (_ : Query) (scope : Scope) : Survey := (scope, [⟨.metadata, []⟩])

/-- Each map is entered once, inside the other. -/
theorem expansions_nest_pingPong :
    let noted := (serve.targetsWith (Scope.enterNoted walked overrun 5) { maps := pingPong }).2
    serve.targetsWithin 5 { maps := pingPong } = serve.targets { maps := pingPong } ∧
      ⟨.variable, ["pong", "ping"]⟩ ∈ noted ∧
      ∀ target ∈ noted, target.storage = .variable → target.path.Nodup ∧ target.path.length ≤ 2 := by
  intro noted
  obtain ⟨enough, each⟩ := expansions_nest serve pingPong 5 (by decide)
  obtain ⟨-, notes⟩ := each overrun
  refine ⟨enough, by decide, fun target member isWalked => ?_⟩
  rcases notes walked target member with found | ⟨scope, nests, few, isNote⟩
  · have values : ∀ target ∈ (serve.targets { maps := pingPong }).2, target.storage ≠ .variable := by decide
    exact absurd isWalked (values target found)
  · obtain rfl := List.mem_singleton.mp isNote
    exact ⟨nests.distinct, few⟩

end Query

end RecordQuery
