import RecordQuery.Proofs.Building
import RecordQuery.Proofs.Traced

/-!
# Cells of built instances

Building hands cells out one after another and uses none of them twice. So of what building makes, the cells lie between
those handed out before and those handed out since, and no two nodes share one (`Allotted`); every step of building
keeps this of all that was made up to it (`Build.Allots`). In a document, a cell belongs to one node of the query and the
maps, however often that is evaluated (`Document.eq_of_cell`).
-/

namespace RecordQuery

/-! ## Nodes -/

/-- A query has a node in its tree: itself, or one of a part. -/
def Query.Contains (q node : Query) : Prop := Relation.ReflTransGen (fun whole part => part ∈ whole.parts) q node

theorem Query.contains_iff {q node : Query} : q.Contains node ↔ node = q ∨ ∃ part ∈ q.parts, part.Contains node := by
  constructor
  · intro contains
    obtain rfl | ⟨part, isPart, within⟩ := contains.cases_head
    · exact .inl rfl
    · exact .inr ⟨part, isPart, within⟩
  · rintro (rfl | ⟨part, isPart, within⟩)
    · exact .refl
    · exact within.head isPart

/-- The nodes of the queries among some arguments. -/
def nodesOf (args : List Arg) (node : Query) : Prop := ∃ q, .query q ∈ args ∧ q.Contains node

/-- Cells of some nodes: all lie in a range, and no two nodes share one. -/
structure Allotted (first next : Nat) (nodes : Query → Prop) : Prop where
  within {node : Query} {cell : Nat} (isNode : nodes node) (held : node.cell? = some cell) : first ≤ cell ∧ cell < next
  sole {node other : Query} {cell : Nat} (isNode : nodes node) (isOther : nodes other) (held : node.cell? = some cell)
    (held' : other.cell? = some cell) : node = other

namespace Allotted

variable {first middle next : Nat} {nodes others : Query → Prop}

theorem none (first next : Nat) : Allotted first next fun _ => False := ⟨nofun, nofun⟩

theorem mono (allotted : Allotted first next nodes) (fewer : ∀ node, others node → nodes node) : Allotted first next others where
  within isNode := allotted.within (fewer _ isNode)
  sole isNode isOther := allotted.sole (fewer _ isNode) (fewer _ isOther)

/-- Nodes whose cells were handed out later share none with those before. -/
theorem or (before : Allotted first middle nodes) (since : Allotted middle next others) (start : first ≤ middle)
    (onward : middle ≤ next) : Allotted first next fun node => nodes node ∨ others node where
  within := by
    rintro node cell (isNode | isNode) held
    · obtain ⟨least, most⟩ := before.within isNode held
      exact ⟨least, Nat.lt_of_lt_of_le most onward⟩
    · obtain ⟨least, most⟩ := since.within isNode held
      exact ⟨Nat.le_trans start least, most⟩
  sole := by
    rintro node other cell (isNode | isNode) (isOther | isOther) held held'
    · exact before.sole isNode isOther held held'
    · have below := (before.within isNode held).2
      have above := (since.within isOther held').1
      omega
    · have above := (since.within isNode held).1
      have below := (before.within isOther held').2
      omega
    · exact since.sole isNode isOther held held'

/-- A node alone, with a cell of the range or with none. -/
theorem alone {node : Query} (own : ∀ cell, node.cell? = some cell → first ≤ cell ∧ cell < next) :
    Allotted first next (· = node) where
  within := by
    rintro _ cell rfl held
    exact own cell held
  sole := by
    rintro _ _ _ rfl rfl _ _
    rfl

end Allotted

/-! ## Steps -/

namespace Build

variable {α β : Type} {given : Query → Prop} {made : α → Query → Prop}

/-- If the given nodes have cells of their own that are handed out already, so have the nodes that are made. -/
def Allots (given : Query → Prop) (x : Build α) (made : α → Query → Prop) : Prop :=
  ∀ first bench, first ≤ bench.cells → Allotted first bench.cells given → ∀ a after, x.run.run bench = (.ok a, after) →
    bench.cells ≤ after.cells ∧ Allotted first after.cells (made a)

theorem Allots.pure (a : α) : Allots (made a) (Pure.pure a : Build α) made := by
  rintro first bench _ allotted _ _ ⟨⟩
  exact ⟨Nat.le_refl _, allotted⟩

theorem Allots.throw (e : Error) : Allots given (MonadExcept.throw e : Build α) made := nofun

theorem Allots.note (level : LogLevel) (source : LogSource) (text : String) :
    Allots given (Build.note level source text) fun _ => given := by
  rintro first bench _ allotted _ _ ⟨⟩
  exact ⟨Nat.le_refl _, allotted⟩

theorem Allots.check (checked : Except Error Unit) : Allots given (liftExcept checked) fun _ => given := by
  cases checked with
  | ok a => exact @Allots.pure Unit (fun _ => given) a
  | error e => exact .throw e

theorem Allots.bind {x : Build α} {f : α → Build β} {made' : β → Query → Prop} (start : Allots given x made)
    (next : ∀ a, Allots (made a) (f a) made') : Allots given (x >>= f) made' := by
  intro first bench le allotted b after ended
  rw [ExceptT.run_bind, StateT.run_bind] at ended
  rcases now : x.run.run bench with ⟨outcome, between⟩
  rw [now] at ended
  cases outcome with
  | error e => cases ended
  | ok a =>
    obtain ⟨handed, allotted⟩ := start first bench le allotted a between now
    obtain ⟨handed', allotted⟩ := next a first between (Nat.le_trans le handed) allotted b after ended
    exact ⟨Nat.le_trans handed handed', allotted⟩

theorem Allots.mono {x : Build α} {given' : Query → Prop} {made' : α → Query → Prop} (allots : Allots given x made)
    (available : ∀ node, given node → given' node) (fewer : ∀ a node, made' a node → made a node) : Allots given' x made' := by
  intro first bench le allotted a after ended
  obtain ⟨handed, allotted⟩ := allots first bench le (allotted.mono available) a after ended
  exact ⟨handed, allotted.mono (fewer a)⟩

/-- What is made of nothing stands beside what there was. -/
theorem Allots.beside {x : Build α} (allots : Allots (fun _ => False) x made) :
    Allots given x fun a node => given node ∨ made a node := by
  intro first bench le allotted a after ended
  obtain ⟨handed, since⟩ := allots bench.cells bench (Nat.le_refl _) (.none _ _) a after ended
  exact ⟨handed, allotted.or since le handed⟩

theorem Allots.firstArg {name : String} {args : List Arg} {f : Arg → Build α}
    (next : ∀ arg ∈ args, Allots given (f arg) made) : Allots given (firstArg name args >>= f) made := by
  cases args with
  | nil => exact .throw _
  | cons arg args => exact next arg List.mem_cons_self

end Build

open Build

namespace Query

variable {available : List Arg}

theorem contains_of_args {q node : Query} (args : ∀ arg ∈ q.args, arg ∈ available) (contains : q.Contains node) :
    nodesOf available node ∨ node = q := by
  rcases contains_iff.mp contains with rfl | ⟨part, isPart, within⟩
  · exact .inr rfl
  · exact .inl ⟨part, args _ (mem_parts_iff.mp isPart), within⟩

/-- A node of some arguments that has no cell. -/
theorem allots_plain {q : Query} (plain : q.cell? = none) (args : ∀ arg ∈ q.args, arg ∈ available) :
    Allots (nodesOf available) (pure q) Contains := by
  rintro first bench le allotted _ _ ⟨⟩
  have alone : Allotted bench.cells bench.cells (· = q) := .alone fun cell held => by simp [plain] at held
  exact ⟨Nat.le_refl _, (allotted.or alone le (Nat.le_refl _)).mono fun node => contains_of_args args⟩

/-- A node of some arguments that has a new cell. -/
theorem allots_instance {make : Nat → Query} (own : ∀ cell held, (make cell).cell? = some held → held = cell)
    (args : ∀ cell, ∀ arg ∈ (make cell).args, arg ∈ available) :
    Allots (nodesOf available) (do pure (make (← freshCell))) Contains := by
  rintro first bench le allotted _ _ ⟨⟩
  have handed := Nat.le_succ bench.cells
  have alone : Allotted bench.cells (bench.cells + 1) (· = make bench.cells) := .alone fun cell held => by
    obtain rfl := own bench.cells cell held
    exact ⟨Nat.le_refl _, Nat.lt_succ_self _⟩
  exact ⟨handed, (allotted.or alone le handed).mono fun node => contains_of_args (args bench.cells)⟩

theorem allots_count (args : List Arg) : Allots (nodesOf args) (buildCount args) Contains := by
  unfold buildCount
  split
  · exact allots_instance (fun _ _ same => (Option.some.inj same).symm) (by simp [Query.args])
  · exact .throw _

theorem allots_json (args : List Arg) : Allots (nodesOf args) (buildJson args) Contains := by
  unfold buildJson
  split
  · exact allots_plain rfl (by simp [Query.args])
  · exact allots_plain rfl (by simp [Query.args])
  · exact .throw _

theorem allots_meta (args : List Arg) : Allots (nodesOf args) (buildMeta args) Contains := by
  unfold buildMeta
  split
  · exact allots_plain rfl (by simp [Query.args])
  · exact allots_plain rfl (by simp [Query.args])

/-- A generator with a seed that is a query leaves its cell unused. -/
theorem allots_randomInt (args : List Arg) : Allots (nodesOf args) (buildRandomInt args) Contains := by
  unfold buildRandomInt
  split
  · exact allots_instance (fun _ _ same => (Option.some.inj same).symm) (by simp [Query.args])
  next seed _ =>
    refine allots_instance (fun cell held same => ?_) (by simp [Query.args])
    cases seed with
    | value v => exact (Option.some.inj same).symm
    | query q => cases same

theorem allots_utcTime (args : List Arg) : Allots (nodesOf args) (buildUtcTime args) Contains := by
  unfold buildUtcTime
  split
  · exact allots_plain rfl (by simp [Query.args])
  · split
    · exact allots_plain rfl (by simp [Query.args])
    · exact .throw _
  · exact .throw _

theorem allots_apply (receiver : Query) (args : List Arg) :
    Allots (nodesOf (.query receiver :: args)) (buildApply receiver args) Contains := by
  unfold buildApply
  split
  · exact allots_plain rfl (by simp [Query.args])
  · exact .throw _

theorem allots_get (receiver : Query) (args : List Arg) :
    Allots (nodesOf (.query receiver :: args)) (buildGet receiver args) Contains := by
  unfold buildGet
  split
  · exact allots_plain rfl (by simp [Query.args])
  · exact .throw _

end Query

namespace Registry

/-- The constructor of a standard function uses no cell twice. -/
theorem standardFunctions_allot {name : String} {entry : FunctionEntry} (registered : (name, entry) ∈ standardFunctions)
    (args : List Arg) : Allots (nodesOf args) (entry.build args) Query.Contains := by
  have leaf {q : Query} (plain : q.cell? = none) (noArgs : q.args = []) : Allots (nodesOf args) (pure q) Query.Contains :=
    Query.allots_plain plain (by simp [noArgs])
  have ofFirst {name : String} {make : Arg → Query} (plain : ∀ arg, (make arg).cell? = none)
      (own : ∀ arg, (make arg).args = [arg]) :
      Allots (nodesOf args) (do pure (make (← firstArg name args))) Query.Contains :=
    .firstArg fun arg isArg => Query.allots_plain (plain arg) (by simpa [own] using isArg)
  -- One case for each entry, in the order of the table.
  simp only [standardFunctions, List.mem_cons, List.not_mem_nil, or_false, Prod.mk.injEq] at registered
  rcases registered with ⟨-, rfl⟩ | ⟨-, rfl⟩ | ⟨-, rfl⟩ | ⟨-, rfl⟩ | ⟨-, rfl⟩ | ⟨-, rfl⟩ | ⟨-, rfl⟩ |
    ⟨-, rfl⟩ | ⟨-, rfl⟩ | ⟨-, rfl⟩ | ⟨-, rfl⟩ | ⟨-, rfl⟩ | ⟨-, rfl⟩ | ⟨-, rfl⟩
  · exact leaf rfl rfl
  · exact leaf rfl rfl
  · exact leaf rfl rfl
  · exact Query.allots_count args
  · exact ofFirst (fun _ => rfl) fun _ => rfl
  · exact Query.allots_json args
  · exact Query.allots_meta args
  · exact Query.allots_randomInt args
  · exact ofFirst (fun _ => rfl) fun _ => rfl
  · exact leaf rfl rfl
  · exact leaf rfl rfl
  · exact Query.allots_utcTime args
  · exact leaf rfl rfl
  · exact ofFirst (fun _ => rfl) fun _ => rfl

/-- The constructor of a standard method uses no cell twice. -/
theorem standardMethods_allot {name : String} {entry : MethodEntry} (registered : (name, entry) ∈ standardMethods)
    (receiver : Query) (args : List Arg) :
    Allots (nodesOf (.query receiver :: args)) (entry.build receiver args) Query.Contains := by
  have onReceiver {q : Query} (plain : q.cell? = none) (own : q.args = [.query receiver]) :
      Allots (nodesOf (.query receiver :: args)) (pure q) Query.Contains :=
    Query.allots_plain plain (by simp [own])
  have withFirst {name : String} {make : Arg → Query} (plain : ∀ arg, (make arg).cell? = none)
      (own : ∀ arg, (make arg).args = [.query receiver, arg]) :
      Allots (nodesOf (.query receiver :: args)) (do pure (make (← firstArg name args))) Query.Contains :=
    .firstArg fun arg isArg => Query.allots_plain (plain arg) (by simp [own, isArg])
  simp only [standardMethods, List.mem_cons, List.not_mem_nil, or_false, Prod.mk.injEq] at registered
  rcases registered with ⟨-, rfl⟩ | ⟨-, rfl⟩ | ⟨-, rfl⟩ | ⟨-, rfl⟩ | ⟨-, rfl⟩ | ⟨-, rfl⟩ | ⟨-, rfl⟩
  · exact Query.allots_apply receiver args
  · exact withFirst (fun _ => rfl) fun _ => rfl
  · exact withFirst (fun _ => rfl) fun _ => rfl
  · exact Query.allots_get receiver args
  · exact onReceiver rfl rfl
  · exact withFirst (fun _ => rfl) fun _ => rfl
  · exact onReceiver rfl rfl

theorem initFunction_allots (name : String) (args : List Arg) :
    Allots (nodesOf args) (standard.initFunction name args) Query.Contains := by
  unfold initFunction
  cases found : standard.functions.find? name with
  | none => exact .throw _
  | some entry =>
    refine (Allots.check _).bind fun _ => (Allots.note _ _ _).bind fun _ => ?_
    exact standardFunctions_allot (Table.mem_of_find?_ofEntries found) args

theorem initMethod_allots (name : String) (receiver : Query) (args : List Arg) :
    Allots (nodesOf (.query receiver :: args)) (standard.initMethod name receiver args) Query.Contains := by
  unfold initMethod
  cases found : standard.methods.find? name with
  | none => exact .throw _
  | some entry =>
    refine (Allots.check _).bind fun _ => (Allots.note _ _ _).bind fun _ => ?_
    exact standardMethods_allot (Table.mem_of_find?_ofEntries found) receiver args

end Registry

/-! ## Documents -/

theorem nodesOf_cons {arg : Arg} {args : List Arg} {node : Query} (isNode : nodesOf (arg :: args) node) :
    nodesOf [arg] node ∨ nodesOf args node := by
  obtain ⟨q, member, within⟩ := isNode
  rcases List.mem_cons.mp member with rfl | member
  · exact .inl ⟨q, List.mem_singleton_self _, within⟩
  · exact .inr ⟨q, member, within⟩

theorem nodesOf_query {q node : Query} (isNode : nodesOf [.query q] node) : q.Contains node := by
  obtain ⟨other, member, within⟩ := isNode
  obtain rfl : other = q := by simpa using member
  exact within

theorem nodesOf_of_noParts {q node : Query} (noParts : q.parts = []) (isNode : nodesOf q.args node) : False := by
  obtain ⟨part, member, -⟩ := isNode
  have isPart := Query.mem_parts_iff.mpr member
  rw [noParts] at isPart
  cases isPart

theorem Query.allots_alone {q : Query} (plain : q.cell? = none) (noParts : q.parts = []) :
    Allots (fun _ => False) (pure q) Contains :=
  (allots_plain plain fun _ => id).mono (fun _ => nodesOf_of_noParts noParts) fun _ _ => id

mutual

/-- Building a node uses no cell twice. -/
theorem QuerySpec.build_allots : (spec : QuerySpec) → Allots (fun _ => False) (spec.build .standard) Query.Contains
  | ⟨function, field, literal, args, methods⟩ => by
    unfold QuerySpec.build
    split
    next name =>
      refine (buildArgs_allots args).bind fun built => (Registry.initFunction_allots name built).bind fun q => ?_
      exact buildMethods_allots methods q
    next path =>
      split
      · exact (Query.allots_alone rfl rfl).bind fun q => buildMethods_allots methods q
      · exact .throw _
    next json =>
      split
      · exact (Query.allots_alone rfl rfl).bind fun q => buildMethods_allots methods q
      · exact .throw _
    next => exact .throw _

theorem ArgSpec.build_allots : (spec : ArgSpec) → Allots (fun _ => False) (spec.build .standard) fun arg => nodesOf [arg]
  | .nested query => by
    rw [ArgSpec.build]
    exact query.build_allots.bind fun q => (Allots.pure _).mono (fun _ => nodesOf_query) fun _ _ => id
  | .literal json => by
    rw [ArgSpec.build]
    exact (Allots.pure _).mono (by simp [nodesOf]) fun _ _ => id

theorem buildArgs_allots : (specs : List ArgSpec) → Allots (fun _ => False) (buildArgs .standard specs) nodesOf
  | [] => (Allots.pure _).mono (by simp [nodesOf]) fun _ _ => id
  | spec :: specs => by
    rw [buildArgs]
    refine spec.build_allots.bind fun arg => (buildArgs_allots specs).beside.bind fun args => ?_
    exact (Allots.pure _).mono (fun _ => nodesOf_cons) fun _ _ => id

theorem MethodSpec.build_allots :
    (spec : MethodSpec) → (receiver : Query) → Allots receiver.Contains (spec.build .standard receiver) Query.Contains
  | ⟨name, args⟩, receiver => by
    rw [MethodSpec.build]
    refine (buildArgs_allots args).beside.bind fun built => ?_
    refine (Registry.initMethod_allots name receiver built).mono (fun node isNode => ?_) fun _ _ => id
    exact (nodesOf_cons isNode).imp_left nodesOf_query

theorem buildMethods_allots : (specs : List MethodSpec) → (receiver : Query) →
    Allots receiver.Contains (buildMethods .standard receiver specs) Query.Contains
  | [], receiver => .pure receiver
  | spec :: specs, receiver => by
    rw [buildMethods]
    exact (spec.build_allots receiver).bind fun q => buildMethods_allots specs q

end

/-- The nodes of some named queries. -/
def nodesOfMaps (maps : List (String × Query)) (node : Query) : Prop := ∃ entry ∈ maps, entry.2.Contains node

theorem buildMaps_allots (specs : List (String × QuerySpec)) :
    Allots (fun _ => False) (buildMaps .standard specs) nodesOfMaps := by
  induction specs with
  | nil => exact (Allots.pure _).mono (by simp [nodesOfMaps]) fun _ _ => id
  | cons spec specs ih =>
    rw [buildMaps]
    refine spec.2.build_allots.bind fun q => ih.beside.bind fun maps => ?_
    exact (Allots.pure _).mono (by simp [nodesOfMaps]) fun _ _ => id

/-- The nodes of a query and of all maps. -/
def nodesOfDocument (built : Query × Table Query) (node : Query) : Prop :=
  built.1.Contains node ∨ nodesOfMaps built.2.entries node

/-- Building a document uses no cell twice. -/
theorem Document.build_allots (d : Document) : Allots (fun _ => False) (d.build .standard) nodesOfDocument := by
  refine d.query.build_allots.bind fun q => (buildMaps_allots d.maps.entries).beside.bind fun maps => ?_
  refine (Allots.pure _).mono (fun node isNode => isNode.imp_right ?_) fun _ _ => id
  rintro ⟨entry, isEntry, within⟩
  exact ⟨entry, mem_ascendingEntries isEntry, within⟩

/-- A cell of a built document belongs to one of its nodes. -/
theorem Document.eq_of_cell {d : Document} {built : Query × Table Query} {before after : Workbench}
    (ended : (d.build .standard).run.run before = (.ok built, after)) {node other : Query} (isNode : nodesOfDocument built node)
    (isOther : nodesOfDocument built other) {cell : Nat} (held : node.cell? = some cell) (held' : other.cell? = some cell) :
    node = other := by
  obtain ⟨-, allotted⟩ := d.build_allots before.cells before (Nat.le_refl _) (.none _ _) built after ended
  exact allotted.sole isNode isOther held held'

/-- Evaluating a query of a document leads to no node that is not in it. -/
theorem nodesOfDocument_of_reaches {built : Query × Table Query} {q node : Query} (isNode : nodesOfDocument built q)
    (reached : q.Reaches built.2 [] node) : nodesOfDocument built node := by
  induction reached with
  | refl => exact isNode
  | tail _ step ih =>
    cases step with
    | part isPart =>
      refine ih.imp (fun within => within.tail isPart) ?_
      rintro ⟨entry, isEntry, within⟩
      exact ⟨entry, isEntry, within.tail isPart⟩
    | body _ found => exact .inr ⟨_, Table.mem_of_find? found, .refl⟩

end RecordQuery
