import Mathlib.Algebra.Group.Nat.Defs
import RecordQuery.Proofs.Cells

/-!
# Histories of instances

What instances return over any sequence of calls that share them (`instances_progress`): a counter counts its
evaluations from one without a gap, a generator with a literal seed goes through its sequence, and a call leaves the
progress of all instances alone that its query does not reach. In the calls of a document that is built, an instance has
its cell to itself.
-/

namespace RecordQuery

/-! ## Draws from one cell -/

/-- The draws from a cell, in order. -/
def drawsFrom (cell : Nat) (draws : List Draw) : List Draw := draws.filter fun draw => draw.node.cell? == some cell

def returnedFrom (cell : Nat) (draws : List Draw) : List Value := (drawsFrom cell draws).map Draw.value

namespace Accounted

variable {before after : Nat → Nat} {draws : List Draw}

/-- A cell moves by one with each draw from it. -/
theorem drawn (accounted : Accounted before draws after) (cell : Nat) :
    after cell = before cell + (drawsFrom cell draws).length := by
  induction draws generalizing before with
  | nil =>
    obtain rfl : after = before := accounted
    rfl
  | cons draw draws ih =>
    obtain ⟨own, held, -, later⟩ := accounted
    rw [ih later, drawsFrom, drawsFrom, List.filter_cons, held]
    by_cases same : cell = own
    · subst same
      simp
      omega
    · simp [same, Ne.symm same]

/-- A cell that one instance holds returns what the instance gives after each number of evaluations. -/
theorem returned (accounted : Accounted before draws after) {cell : Nat} {node : Query}
    (sole : ∀ draw ∈ draws, draw.node.cell? = some cell → draw.node = node) {given : Nat → Value}
    (determined : ∀ drawn, node.drawnValue? drawn = some (given drawn)) :
    returnedFrom cell draws = (List.range' (before cell) (drawsFrom cell draws).length).map given := by
  induction draws generalizing before with
  | nil => rfl
  | cons draw draws ih =>
    obtain ⟨own, held, value, later⟩ := accounted
    obtain ⟨first, others⟩ := List.forall_mem_cons.mp sole
    have onward := ih later others
    -- A draw from another cell is passed over and leaves the count as it was.
    by_cases same : cell = own
    · subst same
      have now : draw.value = given (before cell) := value _ (first held ▸ determined _)
      have split : drawsFrom cell (draw :: draws) = draw :: drawsFrom cell draws := by
        rw [drawsFrom, List.filter_cons_of_pos (by simp [held])]
        rfl
      rw [returnedFrom] at onward ⊢
      rw [split, List.map_cons, onward, now, if_pos rfl, List.length_cons, List.range'_succ, List.map_cons]
    · have split : drawsFrom cell (draw :: draws) = drawsFrom cell draws := by
        rw [drawsFrom, List.filter_cons_of_neg (by simp [held, Ne.symm same])]
        rfl
      rw [returnedFrom] at onward ⊢
      rw [split, onward, if_neg same, Nat.add_zero]

end Accounted

/-! ## Calls -/

structure Call where
  world : World
  bound : Nat
  query : Query
  ctx : Context

namespace Call

def evaluate (call : Call) : Eval Value := call.query.eval call.world call.bound call.ctx

def traced (call : Call) : Traced Value := call.query.traced call.world call.bound call.ctx

/-- A query can be evaluated in the course of a call. -/
def Reaches (call : Call) (node : Query) : Prop := call.query.Reaches call.ctx.maps [] node

theorem traced_follows (call : Call) : Traced.Follows call.Reaches call.traced call.evaluate :=
  Query.traced_follows (fun _ walk => walk) call.bound rfl

/-- Calls one after another, whatever each of them ends in. -/
def evaluateAll (calls : List Call) : Eval (List (Except Error Value)) := calls.mapM fun call => Eval.attempt call.evaluate

def traceAll (calls : List Call) : Traced (List (Except Error Value)) := calls.mapM fun call => Traced.attempt call.traced

theorem traceAll_follows (calls : List Call) :
    Traced.Follows (fun node => ∃ call ∈ calls, call.Reaches node) (traceAll calls) (evaluateAll calls) := by
  induction calls with
  | nil => exact .pure []
  | cons call calls ih =>
    have first := (call.traced_follows.attempt).mono fun node reached => (⟨call, List.mem_cons_self, reached⟩ :
      ∃ other ∈ call :: calls, other.Reaches node)
    have others := ih.mono fun node ⟨other, member, reached⟩ => (⟨other, List.mem_cons_of_mem call member, reached⟩ :
      ∃ other ∈ call :: calls, other.Reaches node)
    rw [traceAll, evaluateAll, List.mapM_cons, List.mapM_cons]
    exact first.bind fun outcome => others.bind fun outcomes => .pure _

/-- Of all queries that some calls reach one alone holds the instance of a cell. -/
def Sole (calls : List Call) (cell : Nat) (node : Query) : Prop :=
  ∀ call ∈ calls, ∀ other, call.Reaches other → other.cell? = some cell → other = node

/-- In calls of the query and the maps of a document each cell has one node. -/
theorem sole_of_built {d : Document} {q : Query} {maps : Table Query} {before after : Workbench}
    (built : (d.build .standard).run.run before = (.ok (q, maps), after)) {calls : List Call}
    (ofDocument : ∀ call ∈ calls, call.ctx.maps = maps ∧ (call.query = q ∨ ∃ entry ∈ maps.entries, call.query = entry.2))
    {call : Call} (isCall : call ∈ calls) {node : Query} (reached : call.Reaches node) {cell : Nat}
    (held : node.cell? = some cell) : Sole calls cell node := by
  have inDocument {call : Call} (isCall : call ∈ calls) {node : Query} (reached : call.Reaches node) :
      nodesOfDocument (q, maps) node := by
    obtain ⟨rfl, start⟩ := ofDocument call isCall
    refine nodesOfDocument_of_reaches ?_ reached
    rcases start with same | ⟨entry, isEntry, same⟩
    · exact .inl (same ▸ .refl)
    · exact .inr ⟨entry, isEntry, same ▸ .refl⟩
  intro other isOther node' reached' held'
  exact Document.eq_of_cell built (inDocument isOther reached') (inDocument isCall reached) held' held

/-- A call moves no cell of an instance that it does not reach. -/
theorem frame (call : Call) {s t : Store} {outcome : Except Error Value} (ended : call.evaluate.run.run s = some (outcome, t))
    {cell : Nat} (unreached : ∀ node, call.Reaches node → node.cell? ≠ some cell) : t.drawn cell = s.drawn cell := by
  obtain ⟨new, -, accounted, ofNodes⟩ := call.traced_follows.listing ended
  have none : drawsFrom cell new = [] := by
    refine List.filter_eq_nil_iff.mpr fun draw member => ?_
    simpa using unreached draw.node (ofNodes draw member)
  have moved := accounted.drawn cell
  rwa [none, List.length_nil, Nat.add_zero] at moved

end Call

/-! ## Sequences -/

theorem Generator.take_eq_map (g : Generator) (n : Nat) :
    Generator.take n g = (List.range' g.drawn n).map fun drawn => (Generator.next ⟨g.key, drawn⟩).1 := by
  induction n generalizing g with
  | zero => rfl
  | succ n ih => rw [Generator.take, ih, List.range'_succ, List.map_cons]; rfl

theorem Generator.length_take (g : Generator) (n : Nat) : (Generator.take n g).length = n := by
  rw [take_eq_map, List.length_map, List.length_range']

theorem nonNegative_nonneg (word : UInt64) : 0 ≤ nonNegative word := by
  have halved : 2 * (word >>> 1).toBitVec.toNat < 2 ^ 64 := by
    have range := word.toNat_lt
    simp [Nat.shiftRight_eq_div_pow]
    omega
  have value : (nonNegative word).toInt = (word >>> 1).toBitVec.toNat := BitVec.toInt_eq_toNat_of_lt halved
  rw [Int64.le_iff_toInt_le, value]
  exact Int.natCast_nonneg _

/-- The seed of an integer is the integer modulo the number of words. -/
theorem toUInt64_eq_ofInt (seed : Int64) : seed.toUInt64 = UInt64.ofInt seed.toInt := by
  have bits : (seed.toInt % 2 ^ 64).toNat = seed.toUInt64.toNat := by
    have same := congrArg BitVec.toNat (BitVec.ofInt_toInt : BitVec.ofInt 64 seed.toBitVec.toInt = seed.toBitVec)
    rw [BitVec.toNat_ofInt] at same
    exact same
  rw [← UInt64.toNat_inj, UInt64.ofInt, UInt64.toNat_ofNat', bits]
  exact (Nat.mod_eq_of_lt seed.toUInt64.toNat_lt).symm

open Call

/-- Over any calls that share instances, from fresh ones, each cell has moved by as many as it has returned values. A
counter that alone holds its cell has returned 1, 2, 3 and so on; a generator with a literal seed has returned the
sequence of that seed, which is never negative. And no call moves the cell of an instance that it does not reach. In
calls of the query and the maps of a document that is built, every instance that is reached alone holds its cell. -/
theorem instances_progress :
    (∀ (calls : List Call) (outcomes : List (Except Error Value)) (store : Store),
      (evaluateAll calls).run.run {} = some (.ok outcomes, store) →
      ∃ draws, (traceAll calls).run.run ({}, []) = some (.ok outcomes, (store, draws)) ∧
        (∀ cell, store.drawn cell = (returnedFrom cell draws).length) ∧
        (∀ label cell, Sole calls cell (.count label cell) → (returnedFrom cell draws).length < 2 ^ 63 →
          ∃ counts : List Int64, returnedFrom cell draws = counts.map Value.int ∧
            counts.map Int64.toInt = (List.range counts.length).map fun k => Int.ofNat (k + 1)) ∧
        ∀ seed cell, Sole calls cell (.randomIntFrom (.value (.int seed)) cell) →
          ∃ ints : List Int64, returnedFrom cell draws = ints.map Value.int ∧
            ints = Generator.take ints.length (Generator.seeded (UInt64.ofInt seed.toInt)) ∧ ∀ i ∈ ints, 0 ≤ i) ∧
    (∀ (call : Call) (s t : Store) (outcome : Except Error Value), call.evaluate.run.run s = some (outcome, t) →
      ∀ cell, (∀ node, call.Reaches node → node.cell? ≠ some cell) → t.drawn cell = s.drawn cell) ∧
    ∀ (d : Document) (q : Query) (maps : Table Query) (before after : Workbench),
      (d.build .standard).run.run before = (.ok (q, maps), after) →
      ∀ calls : List Call,
        (∀ call ∈ calls, call.ctx.maps = maps ∧ (call.query = q ∨ ∃ entry ∈ maps.entries, call.query = entry.2)) →
        ∀ call ∈ calls, ∀ node, call.Reaches node → ∀ cell, node.cell? = some cell → Sole calls cell node := by
  refine ⟨fun calls outcomes store ended => ?_, fun call s t outcome ended cell => call.frame ended,
    fun d q maps before after built calls ofDocument call isCall node reached cell => ?_⟩
  case refine_2 => exact sole_of_built built ofDocument isCall reached
  obtain ⟨new, traced, accounted, ofCalls⟩ := (traceAll_follows calls).listing ended
  have returned {cell : Nat} {node : Query} (sole : Sole calls cell node) {given : Nat → Value}
      (determined : ∀ drawn, node.drawnValue? drawn = some (given drawn)) :
      returnedFrom cell new = (List.range (drawsFrom cell new).length).map given := by
    have ofNode : ∀ draw ∈ new, draw.node.cell? = some cell → draw.node = node := by
      intro draw member held
      obtain ⟨call, isCall, reached⟩ := ofCalls draw member
      exact sole call isCall draw.node reached held
    rw [List.range_eq_range']
    exact accounted.returned ofNode determined
  refine ⟨new, traced, fun cell => ?_, fun label cell sole few => ?_, fun seed cell sole => ?_⟩
  · rw [accounted.drawn cell, returnedFrom, List.length_map]
    exact Nat.zero_add _
  · refine ⟨(List.range (drawsFrom cell new).length).map fun k => Int64.ofNat (k + 1), ?_, ?_⟩
    · rw [returned sole fun _ => rfl, List.map_map]
      rfl
    · rw [List.map_map, List.length_map, List.length_range]
      refine List.map_congr_left fun k below => ?_
      rw [returnedFrom, List.length_map] at few
      exact Int64.toInt_ofNat_of_lt (by have := List.mem_range.mp below; omega)
  · refine ⟨Generator.take (drawsFrom cell new).length (Generator.seeded (UInt64.ofInt seed.toInt)), ?_, ?_, ?_⟩
    · rw [returned sole fun _ => rfl, Generator.take_eq_map, List.map_map, ← toUInt64_eq_ofInt, List.range_eq_range']
      rfl
    · rw [Generator.length_take]
    · rw [Generator.take_eq_map]
      intro i member
      obtain ⟨drawn, -, rfl⟩ := List.mem_map.mp member
      exact nonNegative_nonneg _

def tally : Query := .count "tally" 0

def dice : Query := .randomIntFrom (.value (.int (-7))) 1

/-- A receiver that fails after the counter moved, with the counter as its fallback. -/
def retried : Query := .catching (.throwing (.query tally)) (.query tally)

/-- A generator that is passed through a map whose body is the counter. -/
def passed : Query := .apply (.orElse dice (.query tally)) "next"

/-- A path into the counter, which fails. -/
def misused : Query := .get tally ["x"]

def tallyCalls : List Call :=
  [retried, misused, passed].map fun query => ⟨.blank, 2, query, { maps := Table.empty.put "next" tally }⟩

/-- A document with a counter that is passed to another one, which is the body of a map. -/
def ledger : Document where
  query := ⟨some "count", none, none, [.literal (.string "tally")], [⟨"apply", [.literal (.string "next")]⟩]⟩
  maps := .ofEntries [("next", ⟨some "count", none, none, [.literal (.string "next")], []⟩)]

def ledgerQuery : Query := .apply (.count "tally" 0) "next"

def ledgerMaps : Table Query := .ofEntries [("next", .count "next" 1)]

def ledgerCalls : List Call := [⟨.blank, 1, ledgerQuery, { maps := ledgerMaps }⟩]

/-- Four evaluations of one counter in three calls, with one of a generator in between, and the two counters of a
document. -/
theorem instances_progress_tally :
    (∃ outcomes store draws, (traceAll tallyCalls).run.run ({}, []) = some (.ok outcomes, (store, draws)) ∧
      ∃ counts : List Int64, returnedFrom 0 draws = counts.map Value.int ∧ counts.map Int64.toInt = [1, 2, 3, 4]) ∧
    ∃ after, (ledger.build .standard).run.run {} = (.ok (ledgerQuery, ledgerMaps), after) ∧
      Sole ledgerCalls 0 (.count "tally" 0) ∧ Sole ledgerCalls 1 (.count "next" 1) := by
  have sole : Sole tallyCalls 0 tally := by
    intro call isCall other reached held
    obtain ⟨query, isQuery, rfl⟩ := List.mem_map.mp isCall
    have throughout : query.Throughout (Table.empty.put "next" tally) fun node => node.cell? = some 0 → node = tally := by
      refine Query.throughout_of_closed ([retried, misused, passed] ++ [.throwing (.query tally), .orElse dice (.query tally), dice, tally])
        (List.mem_append_left _ isQuery) ?_ ?_ ?_
      · simp [Table.put, Table.empty, putEntry]
      · simp [retried, misused, passed, dice, tally, Query.parts]
      · simp [retried, misused, passed, dice, tally, Query.cell?]
    exact throughout other reached held
  obtain ⟨histories, -, documents⟩ := instances_progress
  constructor
  · obtain ⟨draws, traced, moved, counters, -⟩ := histories tallyCalls _ _ rfl
    have four : (returnedFrom 0 draws).length = 4 := (moved 0).symm.trans rfl
    obtain ⟨counts, returned, counted⟩ := counters "tally" 0 sole (by rw [four]; decide)
    refine ⟨_, _, draws, traced, counts, returned, ?_⟩
    rw [returned, List.length_map] at four
    rw [counted, four]
    rfl
  · have built : (ledger.build .standard).run.run {} = (.ok (ledgerQuery, ledgerMaps), _) := rfl
    have alone := documents ledger _ _ _ _ built ledgerCalls (by simp [ledgerCalls]) _ (List.mem_singleton_self _)
    refine ⟨_, built, alone _ ?_ 0 rfl, alone _ ?_ 1 rfl⟩
    · exact .single (.part List.mem_cons_self)
    · exact .single (.body List.not_mem_nil rfl)

end RecordQuery
