import RecordQuery.Proofs.Failures

/-!
# Signed indices

The index of an array and the index of a record in a batch are told separately, but both find the one place that an integer
addresses (`Addresses`), and no sum leaves 64 bits on the way. So the contents of a record at an index are the item at that
index among the contents of all records, and an index that gives null in the array is an error in the batch, before anything
is evaluated there (`index_rules_agree`).
-/

namespace RecordQuery

/-- An integer addresses a place among some items: the one it names, or counted from the end if it is negative. -/
def Addresses (length : Nat) (i : Int) (place : Nat) : Prop :=
  0 ≤ i ∧ i < length ∧ (place : Int) = i ∨ -(length : Int) ≤ i ∧ i < 0 ∧ (place : Int) = length + i

section

variable {length : Nat}

theorem addressed?_eq_some_iff {i : Int} {place : Nat} : addressed? length i = some place ↔ Addresses length i place := by
  unfold addressed? Addresses
  by_cases forward : 0 ≤ i ∧ i < length
  · rw [if_pos forward, Option.some_inj]
    omega
  · rw [if_neg forward]
    by_cases backward : i < 0 ∧ 0 ≤ length + i
    · rw [if_pos backward, Option.some_inj]
      omega
    · rw [if_neg backward]
      exact ⟨nofun, fun addresses => by omega⟩

theorem addressed?_eq_none_iff {i : Int} : addressed? length i = none ↔ ∀ place, ¬ Addresses length i place := by
  rw [Option.eq_none_iff_forall_ne_some]
  exact forall_congr' fun place => not_congr addressed?_eq_some_iff

variable (few : length < 2 ^ 63) (i : Int64)
include few

theorem Context.resolveIndex_eq_ok_iff (place : Nat) :
    resolveIndex i length = .ok place ↔ Addresses length i.toInt place := by
  rw [resolveIndex_eq few, ← addressed?_eq_some_iff]
  cases addressed? length i.toInt with
  | some found => simp
  | none => simp

theorem Context.resolveIndex_eq_error_iff (e : Error) :
    resolveIndex i length = .error e ↔
      (∀ place, ¬ Addresses length i.toInt place) ∧ e = .indexOutOfBounds i.toInt length := by
  rw [resolveIndex_eq few, ← addressed?_eq_none_iff]
  cases addressed? length i.toInt with
  | some found => simp
  | none => simp [eq_comm]

end

namespace Value

variable {items : List Value} (few : items.length < 2 ^ 63) {i : Int64}
include few

theorem index_of_addresses {place : Nat} (addresses : Addresses items.length i.toInt place) :
    ∃ item, items[place]? = some item ∧ (Value.array items).index i = .ok item := by
  have found := addressed?_eq_some_iff.mpr addresses
  have within : place < items.length := lt_of_addressed? found
  have there : items[place]? = some items[place] := List.getElem?_eq_getElem within
  refine ⟨items[place], there, ?_⟩
  rw [index_eq few, itemAt, found, Option.bind_some, there, Option.getD_some]

theorem index_of_not_addresses (outside : ∀ place, ¬ Addresses items.length i.toInt place) :
    (Value.array items).index i = .ok .null := by
  rw [index_eq few, itemAt, addressed?_eq_none_iff.mpr outside]
  rfl

end Value

/-- The contents of all records of a batch, in order. -/
def contents (batch : Batch) : List Value := batch.toList.map fun record => .string record.content

theorem length_contents (batch : Batch) : (contents batch).length = batch.size := by
  rw [contents, List.length_map, Array.length_toList]

theorem ne_null_of_getElem?_contents {batch : Batch} {place : Nat} {item : Value}
    (there : (contents batch)[place]? = some item) : item ≠ .null := by
  obtain ⟨record, -, rfl⟩ := List.mem_map.mp (List.mem_of_getElem? there)
  exact nofun

namespace Query

section

variable {ctx : Context}

theorem run_content {place : Nat} {item : Value} (there : (contents ctx.batch)[place]? = some item) (world : World)
    (bound : Nat) (s : Store) : (content.eval world bound (ctx.atIndex place)).run.run s = some (.ok item, s) := by
  obtain ⟨record, found, rfl⟩ : ∃ record, ctx.batch[place]? = some record ∧ Value.string record.content = item := by
    simpa [contents] using there
  have current : (ctx.atIndex place).record? = some record := found
  rw [eval_eq_evalWith, evalWith_content, Context.record, current]
  rfl

variable (few : ctx.batch.size < 2 ^ 63) {i : Int64}
include few

theorem eval_movedTo_of_addresses {place : Nat} (addresses : Addresses ctx.batch.size i.toInt place) (f : Query)
    (world : World) (bound : Nat) : (f.movedTo i).eval world bound ctx = f.eval world bound (ctx.atIndex place) := by
  rw [eval_eq_evalWith, evalWith_movedTo_of_found few (addressed?_eq_some_iff.mpr addresses)]

variable (outside : ∀ place, ¬ Addresses ctx.batch.size i.toInt place)
include outside

/-- Where an index addresses no record, the receiver is not visited. -/
theorem run_watched_of_not_addresses (f : Query) (world : World) (bound : Nat) (before : Store × List Visit) :
    (f.watchedChain world bound [.atRecord i] ctx).run.run before =
      some (.error (.indexOutOfBounds i.toInt ctx.batch.size), before) := by
  have refused := (Context.resolveIndex_eq_error_iff few i _).mpr ⟨outside, rfl⟩
  refine Watched.run_bind_of_failure ?_ _
  rw [refused]
  rfl

theorem run_movedTo_of_not_addresses (f : Query) (world : World) (bound : Nat) (s : Store) :
    ((f.movedTo i).eval world bound ctx).run.run s = some (.error (.indexOutOfBounds i.toInt ctx.batch.size), s) := by
  have unwatched := f.watchedChain_erases world bound [.atRecord i] ctx s []
  rw [run_watched_of_not_addresses few outside] at unwatched
  exact unwatched.symm

end

end Query

/-- Whatever the length and the index are, no sum leaves 64 bits, and an array and a batch agree on the place that is
addressed, and on that there is none. So `from` evaluates `content` to the item that the index of an array picks from the
contents of all records. Where that is null, `from` fails with the index and the length as they were, and does not evaluate
its receiver, whatever query it is. Neither array nor batch has 2 ^ 63 items: memory does not hold them. -/
theorem index_rules_agree {length : Nat} (few : length < 2 ^ 63) (i : Int64) :
    ((Int64.ofNat length).toInt = length ∧ (i < 0 → (Int64.ofNat length + i).toInt = length + i.toInt)) ∧
    ((∀ place, Context.resolveIndex i length = .ok place ↔ Addresses length i.toInt place) ∧
      ∀ e, Context.resolveIndex i length = .error e ↔
        (∀ place, ¬ Addresses length i.toInt place) ∧ e = .indexOutOfBounds i.toInt length) ∧
    (∀ items : List Value, items.length = length →
      (∀ place, Addresses length i.toInt place →
        ∃ item, items[place]? = some item ∧ (Value.array items).index i = .ok item) ∧
      ((∀ place, ¬ Addresses length i.toInt place) → (Value.array items).index i = .ok .null)) ∧
    ∀ world bound ctx s, ctx.batch.size = length → ∃ item, (Value.array (contents ctx.batch)).index i = .ok item ∧
      (item = .null ↔ ∀ place, ¬ Addresses length i.toInt place) ∧
      (item ≠ .null → ((Query.content.movedTo i).eval world bound ctx).run.run s = some (.ok item, s)) ∧
      (item = .null → ∀ f : Query,
        ((f.movedTo i).eval world bound ctx).run.run s = some (.error (.indexOutOfBounds i.toInt length), s) ∧
        (f.watchedChain world bound [.atRecord i] ctx).run.run (s, []) =
          some (.error (.indexOutOfBounds i.toInt length), (s, []))) := by
  refine ⟨⟨Int64.toInt_ofNat_of_lt few, fun backward => toInt_fromEnd few i ?_⟩,
    ⟨Context.resolveIndex_eq_ok_iff few i, Context.resolveIndex_eq_error_iff few i⟩, ?_, ?_⟩
  · rwa [Int64.lt_iff_toInt_lt, Int64.toInt_zero] at backward
  · rintro items rfl
    exact ⟨fun place => Value.index_of_addresses few, Value.index_of_not_addresses few⟩
  · rintro world bound ctx s rfl
    have many := length_contents ctx.batch
    by_cases reached : ∃ place, Addresses ctx.batch.size i.toInt place
    · obtain ⟨place, addresses⟩ := reached
      obtain ⟨item, there, picked⟩ := Value.index_of_addresses (many.symm ▸ few) (many.symm ▸ addresses)
      have notNull := ne_null_of_getElem?_contents there
      refine ⟨item, picked, ⟨fun isNull => absurd isNull notNull, fun outside => absurd addresses (outside place)⟩,
        fun _ => ?_, fun isNull => absurd isNull notNull⟩
      rw [Query.eval_movedTo_of_addresses few addresses]
      exact Query.run_content there world bound s
    · have outside := not_exists.mp reached
      refine ⟨.null, Value.index_of_not_addresses (many.symm ▸ few) (many.symm ▸ outside),
        ⟨fun _ => outside, fun _ => rfl⟩, fun notNull => absurd rfl notNull, fun _ f => ⟨?_, ?_⟩⟩
      · exact Query.run_movedTo_of_not_addresses few outside f world bound s
      · exact Query.run_watched_of_not_addresses few outside f world bound (s, [])

/-- Three records, none of which is the current one. -/
def trio : Context where
  batch := #[⟨Utf8.encode "first", .empty⟩, ⟨Utf8.encode "second", .empty⟩, ⟨Utf8.encode "third", .empty⟩]
  index := 7

/-- The last record, and a query that would throw at the least index of 64 bits. -/
theorem index_rules_agree_trio :
    let thrower : Query := .throwing (.value (.string "visited"))
    ((Query.content.movedTo (-1)).eval .blank 0 trio).run.run {} = some (.ok (.string "third"), {}) ∧
      (thrower.watchedChain .blank 0 [.atRecord Int64.minValue] trio).run.run ({}, []) =
        some (.error (.indexOutOfBounds (-9223372036854775808) 3), ({}, [])) := by
  intro thrower
  have few : 3 < 2 ^ 63 := by decide
  constructor
  · obtain ⟨-, -, -, inBatch⟩ := index_rules_agree few (-1)
    obtain ⟨item, picked, -, found, -⟩ := inBatch .blank 0 trio {} rfl
    have last : (Value.array (contents trio.batch)).index (-1) = .ok (.string "third") := by with_unfolding_all rfl
    obtain rfl : Value.string "third" = item := Except.ok.inj (last.symm.trans picked)
    exact found nofun
  · obtain ⟨-, -, -, inBatch⟩ := index_rules_agree few Int64.minValue
    obtain ⟨item, -, isNull, -, missed⟩ := inBatch .blank 0 trio {} rfl
    have outside : ∀ place, ¬ Addresses 3 Int64.minValue.toInt place :=
      addressed?_eq_none_iff.mp (by decide)
    exact (missed (isNull.mpr outside) thrower).2

end RecordQuery
