import Mathlib.Logic.Relation
import RecordQuery.Proofs.Tables
import RecordQuery.Query

/-!
# Reachability

Which queries can be evaluated or analysed in the course of a query: its receiver, its arguments that
are queries, and at an application the body of the named map, over any number of steps
(`Query.Reaches`). Maps can be closed to a walk; a walk to a map's own body never has to enter that map
again (`Query.Reaches.close`), which is what makes it enough to walk every body once on each path.
-/

namespace RecordQuery

/-- The query of an argument that is evaluated on every call. -/
def Arg.parts : Arg → List Query
  | .value _ => []
  | .query q => [q]

/-- The receiver of a query and those of its arguments that are queries. -/
def Query.parts : Query → List Query
  | .env name => name.parts
  | .metadataAt key => key.parts
  | .randomIntFrom seed _ => seed.parts
  | .throwing message => message.parts
  | .var name => name.parts
  | .apply receiver _ => [receiver]
  | .catching receiver fallback => receiver :: fallback.parts
  | .orElse receiver fallback => receiver :: fallback.parts
  | .atRecord receiver index => receiver :: index.parts
  | .get receiver _ => [receiver]
  | .inCase receiver _ => [receiver]
  | .literal _ | .field _ | .json _ | .content | .batchIndex | .batchSize | .count .. | .metadata
  | .randomInt _ | .unixTime | .unixNanoTime | .utcTime _ | .uuid => []

namespace Arg

@[simp]
theorem parts_value (v : Value) : (Arg.value v).parts = [] := rfl

@[simp]
theorem parts_query (q : Query) : (Arg.query q).parts = [q] := rfl

theorem sizeOf_part {arg : Arg} {part : Query} (member : part ∈ arg.parts) :
    sizeOf part < sizeOf arg := by
  cases arg with
  | value v => simp at member
  | query q =>
    obtain rfl : part = q := by simpa using member
    simp

end Arg

namespace Query

theorem sizeOf_part {q part : Query} (member : part ∈ q.parts) : sizeOf part < sizeOf q := by
  cases q with
  | env arg | metadataAt arg | randomIntFrom arg _ | throwing arg | var arg =>
    have smaller : sizeOf part < sizeOf arg := Arg.sizeOf_part member
    simp
    omega
  | apply receiver _ | get receiver _ | inCase receiver _ =>
    obtain rfl : part = receiver := by simpa [parts] using member
    simp
    omega
  | catching receiver arg | orElse receiver arg | atRecord receiver arg =>
    rcases List.mem_cons.mp member with rfl | member
    · simp
      omega
    · have smaller := Arg.sizeOf_part member
      simp
      omega
  | _ => simp [parts] at member

/-- Induction over a tree: a query may assume what is to be shown of its parts. -/
theorem partsInduction {motive : Query → Prop}
    (step : ∀ q, (∀ part ∈ q.parts, motive part) → motive q) (q : Query) : motive q :=
  step q fun part _ => partsInduction step part
termination_by sizeOf q
decreasing_by exact sizeOf_part ‹_›

/-! ## Walks -/

/-- One step of a walk on a table of maps: to a part, or from an application to the body of its map,
unless that map is closed. -/
inductive Leads (maps : Table Query) (closed : List String) : Query → Query → Prop
  | part {q node : Query} (member : node ∈ q.parts) : Leads maps closed q node
  | body {receiver node : Query} {map : String} (isOpen : map ∉ closed) (found : maps.find? map = some node) :
      Leads maps closed (.apply receiver map) node

theorem leads_iff {maps : Table Query} {q node : Query} :
    q.Leads maps [] node ↔ node ∈ q.parts ∨ ∃ receiver map, q = .apply receiver map ∧ maps.find? map = some node := by
  constructor
  · rintro (member | ⟨-, found⟩)
    · exact .inl member
    · exact .inr ⟨_, _, rfl, found⟩
  · rintro (member | ⟨receiver, map, rfl, found⟩)
    · exact .part member
    · exact .body List.not_mem_nil found

/-- A walk of any number of steps, also of none. -/
def Reaches (maps : Table Query) (closed : List String) : Query → Query → Prop :=
  Relation.ReflTransGen (Leads maps closed)

/-- A walk to a node still goes when one more map is closed, or else it goes from the body of that
map. -/
theorem Reaches.avoid {maps : Table Query} {closed : List String} {map : String} {body q node : Query}
    (found : maps.find? map = some body) (walk : q.Reaches maps closed node) :
    q.Reaches maps (map :: closed) node ∨ body.Reaches maps (map :: closed) node := by
  induction walk using Relation.ReflTransGen.head_induction_on with
  | refl => exact .inl .refl
  | @head q next step _ ih =>
    rcases ih with onward | fromBody
    · cases step with
      | part member => exact .inl (onward.head (.part member))
      | @body receiver _ other isOpen foundOther =>
        by_cases same : other = map
        · subst same
          obtain rfl : body = next := Option.some.inj (found.symm.trans foundOther)
          exact .inr onward
        · have stillOpen : other ∉ map :: closed := by simp [same, isOpen]
          exact .inl (onward.head (.body stillOpen foundOther))
    · exact .inr fromBody

/-- A walk from the body of a map never has to enter that map again. -/
theorem Reaches.close {maps : Table Query} {closed : List String} {map : String} {body node : Query}
    (found : maps.find? map = some body) (walk : body.Reaches maps closed node) :
    body.Reaches maps (map :: closed) node :=
  (walk.avoid found).elim id id

/-- Fewer closed maps allow more walks. -/
theorem Reaches.mono {maps : Table Query} {few many : List String} (fewer : few ⊆ many) {q node : Query}
    (walk : q.Reaches maps many node) : q.Reaches maps few node := by
  refine Relation.ReflTransGen.mono ?_ _ _ walk
  intro source target step
  cases step with
  | part member => exact .part member
  | body isOpen found => exact .body (fun member => isOpen (fewer member)) found

/-- A query can come to apply a named map: it reaches an application of it. -/
def Applies (maps : Table Query) (q : Query) (map : String) : Prop :=
  ∃ receiver, q.Reaches maps [] (.apply receiver map)

namespace Applies

variable {maps : Table Query} {q node body : Query} {map : String}

/-- What a node that is reached can come to apply, the query can. -/
theorem onward (walk : q.Reaches maps [] node) (applies : node.Applies maps map) : q.Applies maps map :=
  ⟨applies.choose, walk.trans applies.choose_spec⟩

theorem reaches_body (applies : q.Applies maps map) (found : maps.find? map = some body) : q.Reaches maps [] body :=
  applies.choose_spec.tail (.body List.not_mem_nil found)

end Applies

/-! ## What holds on every walk -/

/-- A property of all nodes that a query reaches. -/
def Throughout (maps : Table Query) (property : Query → Prop) (q : Query) : Prop :=
  ∀ node, q.Reaches maps [] node → property node

namespace Throughout

variable {maps : Table Query} {property : Query → Prop} {q : Query}

theorem here (throughout : q.Throughout maps property) : property q := throughout q .refl

theorem onward (throughout : q.Throughout maps property) {node : Query} (step : q.Leads maps [] node) :
    node.Throughout maps property :=
  fun far walk => throughout far (walk.head step)

theorem part (throughout : q.Throughout maps property) {node : Query} (member : node ∈ q.parts) :
    node.Throughout maps property :=
  throughout.onward (.part member)

end Throughout

/-- What holds of all members of a list holds throughout if the list has the query, and with every member whatever it
leads to. -/
theorem throughout_of_steps {maps : Table Query} {property : Query → Prop} {q : Query} (nodes : List Query)
    (first : q ∈ nodes) (steps : ∀ node ∈ nodes, ∀ next, node.Leads maps [] next → next ∈ nodes)
    (holds : ∀ node ∈ nodes, property node) : q.Throughout maps property := by
  intro node walk
  refine holds node ?_
  induction walk with
  | refl => exact first
  | tail _ step member => exact steps _ member _ step

/-- What holds of all members of a list holds throughout if the list has the query, the bodies of all maps,
and with every member its parts. -/
theorem throughout_of_closed {maps : Table Query} {property : Query → Prop} {q : Query} (nodes : List Query)
    (first : q ∈ nodes) (bodies : ∀ entry ∈ maps.entries, entry.2 ∈ nodes)
    (parts : ∀ node ∈ nodes, ∀ part ∈ node.parts, part ∈ nodes) (holds : ∀ node ∈ nodes, property node) :
    q.Throughout maps property := by
  refine throughout_of_steps nodes first (fun node member next step => ?_) holds
  cases step with
  | part isPart => exact parts node member next isPart
  | @body _ _ map _ found => exact bodies (map, next) (Table.mem_of_find? found)

end Query

end RecordQuery
