/-!
# Tables

Finite maps from names, kept in ascending order of the name. The order is that of the code points,
which is also the order of the UTF-8 bytes, so two tables with the same content are the same list
and every listing of names is sorted.
-/

namespace RecordQuery

variable {α β : Type}

/-- The names ascend, so none stands twice. -/
def Ascending (entries : List (String × α)) : Prop := entries.Pairwise (·.1 < ·.1)

/-- Puts a value under a name, in place of what stood there before. -/
def putEntry (name : String) (value : α) : List (String × α) → List (String × α)
  | [] => [(name, value)]
  | (other, old) :: rest =>
    if name < other then (name, value) :: (other, old) :: rest
    else if name = other then (name, value) :: rest
    else (other, old) :: putEntry name value rest

/-- The entries in ascending order of their names; of entries with one name the last stays. -/
def ascendingEntries (entries : List (String × α)) : List (String × α) :=
  entries.foldl (fun sorted entry => putEntry entry.1 entry.2 sorted) []

theorem mem_putEntry {name : String} {value : α} {entries : List (String × α)} {entry : String × α} :
    entry ∈ putEntry name value entries → entry = (name, value) ∨ entry ∈ entries := by
  induction entries with
  | nil => simp [putEntry]
  | cons head rest ih =>
    unfold putEntry
    split
    · simp
    · split
      · simp only [List.mem_cons]
        rintro (h | h)
        · exact .inl h
        · exact .inr (.inr h)
      · simp only [List.mem_cons]
        rintro (h | h)
        · exact .inr (.inl h)
        · exact (ih h).imp_right .inr

theorem ascending_putEntry (name : String) (value : α) {entries : List (String × α)}
    (sorted : Ascending entries) : Ascending (putEntry name value entries) := by
  induction entries with
  | nil => simp [putEntry, Ascending]
  | cons head rest ih =>
    have ⟨below, tail⟩ := List.pairwise_cons.1 sorted
    unfold putEntry
    split
    next less =>
      refine List.pairwise_cons.2 ⟨fun entry member => ?_, sorted⟩
      rcases List.mem_cons.1 member with rfl | member
      · exact less
      · exact String.lt_trans less (below _ member)
    next notLess =>
      split
      next same =>
        exact List.pairwise_cons.2 ⟨fun entry member => same ▸ below _ member, tail⟩
      next different =>
        refine List.pairwise_cons.2 ⟨fun entry member => ?_, ih tail⟩
        rcases mem_putEntry member with rfl | member
        · exact Decidable.byContradiction fun notMore =>
            different (String.le_antisymm notMore notLess)
        · exact below _ member

theorem ascending_ascendingEntries (entries : List (String × α)) : Ascending (ascendingEntries entries) := by
  unfold ascendingEntries
  suffices ∀ start : List (String × α), Ascending start →
      Ascending (entries.foldl (fun sorted entry => putEntry entry.1 entry.2 sorted) start) from
    this [] List.Pairwise.nil
  induction entries with
  | nil => exact fun start sorted => sorted
  | cons entry rest ih => exact fun start sorted => ih _ (ascending_putEntry _ _ sorted)

/-- A finite map from names. -/
structure Table (α : Type) where
  entries : List (String × α)
  ascending : Ascending entries

namespace Table

/-- The table that holds nothing. -/
def empty : Table α := ⟨[], List.Pairwise.nil⟩

instance : Inhabited (Table α) := ⟨empty⟩

/-- The value under a name. -/
def find? (table : Table α) (name : String) : Option α := table.entries.lookup name

/-- Whether a name has a value. -/
def contains (table : Table α) (name : String) : Bool := (table.find? name).isSome

/-- The table with a value put under a name, in place of what stood there before. -/
def put (table : Table α) (name : String) (value : α) : Table α :=
  ⟨putEntry name value table.entries, ascending_putEntry name value table.ascending⟩

/-- The table of some entries; of entries with one name the last stays. -/
def ofEntries (entries : List (String × α)) : Table α :=
  ⟨ascendingEntries entries, ascending_ascendingEntries entries⟩

/-- How many names have a value. -/
def size (table : Table α) : Nat := table.entries.length

/-- The names that have a value, in ascending order. -/
def names (table : Table α) : List String := table.entries.map Prod.fst

/-- The table with a function applied to every value. -/
def map (f : α → β) (table : Table α) : Table β :=
  ⟨table.entries.map fun entry => (entry.1, f entry.2),
    by simpa [Ascending, List.pairwise_map] using table.ascending⟩

end Table

end RecordQuery
