import Mathlib.Algebra.Ring.Nat
import RecordQuery.Table

/-!
# Sorted entries

Sorting the entries of a table by insertion loses none whose name stands once, and what is sorted depends on
nothing but the entries: from any order of an ascending list that list is got back (`ascendingEntries_of_perm`).
What a table finds is one of its entries (`Table.mem_of_find?`), what is put under a name is found under that name
alone (`Table.find?_put`), and a table is nothing but what it finds (`Table.eq_of_find?`).
-/

namespace RecordQuery

variable {α β : Type}

theorem putEntry_map (f : α → β) (name : String) (value : α) (entries : List (String × α)) :
    putEntry name (f value) (entries.map fun entry => (entry.1, f entry.2)) =
      (putEntry name value entries).map fun entry => (entry.1, f entry.2) := by
  induction entries with
  | nil => rfl
  | cons entry entries ih =>
    rw [List.map_cons, putEntry, putEntry]
    split
    · rfl
    · split
      · rfl
      · rw [ih, List.map_cons]

/-- Sorting looks at the names alone. -/
theorem ascendingEntries_map (f : α → β) (entries : List (String × α)) :
    ascendingEntries (entries.map fun entry => (entry.1, f entry.2)) =
      (ascendingEntries entries).map fun entry => (entry.1, f entry.2) := by
  suffices ∀ start : List (String × α),
      (entries.map fun entry => (entry.1, f entry.2)).foldl (fun sorted entry => putEntry entry.1 entry.2 sorted)
          (start.map fun entry => (entry.1, f entry.2)) =
        (entries.foldl (fun sorted entry => putEntry entry.1 entry.2 sorted) start).map fun entry => (entry.1, f entry.2) from
    this []
  induction entries with
  | nil => exact fun start => rfl
  | cons entry entries ih =>
    intro start
    rw [List.map_cons, List.foldl_cons, List.foldl_cons]
    dsimp only
    rw [putEntry_map, ih]

theorem putEntry_perm {name : String} (value : α) {entries : List (String × α)} (fresh : name ∉ entries.map Prod.fst) :
    (putEntry name value entries).Perm ((name, value) :: entries) := by
  induction entries with
  | nil => exact .refl _
  | cons entry entries ih =>
    obtain ⟨different, fresh⟩ : name ≠ entry.1 ∧ name ∉ entries.map Prod.fst := by simpa using fresh
    rw [putEntry, if_neg different]
    split
    · exact .refl _
    · exact ((ih fresh).cons entry).trans (.swap (name, value) entry entries)

/-- Entries whose names all differ are all kept. -/
theorem ascendingEntries_perm {entries : List (String × α)} (distinct : (entries.map Prod.fst).Nodup) :
    (ascendingEntries entries).Perm entries := by
  suffices inserting : ∀ start : List (String × α), (entries.map Prod.fst ++ start.map Prod.fst).Nodup →
      (entries.foldl (fun sorted entry => putEntry entry.1 entry.2 sorted) start).Perm (entries ++ start) by
    have fromNone := inserting []
    rw [List.map_nil, List.append_nil, List.append_nil] at fromNone
    exact fromNone distinct
  clear distinct
  induction entries with
  | nil => exact fun start _ => .refl _
  | cons entry entries ih =>
    intro start distinct
    obtain ⟨fresh, others⟩ := List.nodup_cons.mp distinct
    have inserted : (putEntry entry.1 entry.2 start).Perm (entry :: start) :=
      putEntry_perm entry.2 fun member => fresh (List.mem_append_right _ member)
    have names : (entries.map Prod.fst ++ (putEntry entry.1 entry.2 start).map Prod.fst).Nodup := by
      have moved : (entries.map Prod.fst ++ (putEntry entry.1 entry.2 start).map Prod.fst).Perm
          (entry.1 :: (entries.map Prod.fst ++ start.map Prod.fst)) :=
        ((inserted.map Prod.fst).append_left _).trans List.perm_middle
      exact moved.nodup_iff.mpr distinct
    rw [List.foldl_cons]
    exact (ih _ names).trans ((inserted.append_left entries).trans List.perm_middle)

theorem Ascending.nodup {entries : List (String × α)} (ascending : Ascending entries) : (entries.map Prod.fst).Nodup := by
  refine List.pairwise_map.mpr (ascending.imp fun below same => ?_)
  rw [same] at below
  exact String.lt_irrefl _ below

/-- Ascending entries are the same list if they are the same entries. -/
theorem Ascending.eq_of_perm {left right : List (String × α)} (ascending : Ascending left) (ascending' : Ascending right)
    (same : left.Perm right) : left = right := by
  refine List.Perm.eq_of_pairwise ?_ ascending ascending' same
  intro a b _ _ below above
  exact absurd (String.lt_trans below above) (String.lt_irrefl _)

/-- Ascending entries are got back from any order of them. -/
theorem ascendingEntries_of_perm {entries order : List (String × α)} (ascending : Ascending entries)
    (same : entries.Perm order) : ascendingEntries order = entries := by
  have distinct : (order.map Prod.fst).Nodup := (same.map Prod.fst).nodup_iff.mp ascending.nodup
  exact (ascending_ascendingEntries order).eq_of_perm ascending ((ascendingEntries_perm distinct).trans same.symm)

theorem mem_ascendingEntries {entries : List (String × α)} {entry : String × α} (member : entry ∈ ascendingEntries entries) :
    entry ∈ entries := by
  suffices ∀ start : List (String × α),
      entry ∈ entries.foldl (fun sorted entry => putEntry entry.1 entry.2 sorted) start → entry ∈ entries ∨ entry ∈ start by
    simpa using this [] member
  clear member
  induction entries with
  | nil => exact fun start member => .inr member
  | cons first entries ih =>
    intro start member
    rcases ih _ member with later | inserted
    · exact .inl (List.mem_cons_of_mem first later)
    · rcases mem_putEntry inserted with rfl | before
      · exact .inl List.mem_cons_self
      · exact .inr before

theorem sum_putEntry_le (f : String × α → Nat) (name : String) (value : α) (entries : List (String × α)) :
    ((putEntry name value entries).map f).sum ≤ f (name, value) + (entries.map f).sum := by
  induction entries with
  | nil => simp [putEntry]
  | cons entry entries ih =>
    obtain ⟨other, old⟩ := entry
    rw [putEntry]
    split
    · simp
    · split
      · simp
      · simp only [List.map_cons, List.sum_cons]
        omega

/-- Sorted, some entries come to no more than they did before. -/
theorem sum_ascendingEntries_le (f : String × α → Nat) (entries : List (String × α)) :
    ((ascendingEntries entries).map f).sum ≤ (entries.map f).sum := by
  suffices ∀ start : List (String × α),
      ((entries.foldl (fun sorted entry => putEntry entry.1 entry.2 sorted) start).map f).sum ≤
        (start.map f).sum + (entries.map f).sum by
    simpa [ascendingEntries] using this []
  induction entries with
  | nil => exact fun start => Nat.le_refl _
  | cons entry entries ih =>
    intro start
    obtain ⟨name, value⟩ := entry
    have inserted := sum_putEntry_le f name value start
    have onward := ih (putEntry name value start)
    rw [List.foldl_cons, List.map_cons, List.sum_cons]
    dsimp only
    omega

theorem lookup_cons_eq_ite (entry : String × α) (entries : List (String × α)) (name : String) :
    (entry :: entries).lookup name = if name = entry.1 then some entry.2 else entries.lookup name := by
  obtain ⟨other, value⟩ := entry
  rw [List.lookup_cons]
  by_cases same : name = other
  · simp [same]
  · simp [same, beq_false_of_ne same]

theorem mem_of_lookup {entries : List (String × α)} {name : String} {value : α} (found : entries.lookup name = some value) :
    (name, value) ∈ entries := by
  obtain ⟨before, after, split, -⟩ := List.lookup_eq_some_iff.mp found
  simp [split]

theorem Ascending.lookup_of_mem {entries : List (String × α)} (ascending : Ascending entries) {name : String} {value : α}
    (member : (name, value) ∈ entries) : entries.lookup name = some value := by
  induction entries with
  | nil => cases member
  | cons entry entries ih =>
    obtain ⟨least, ascending⟩ := List.pairwise_cons.mp ascending
    rw [lookup_cons_eq_ite]
    rcases List.mem_cons.mp member with rfl | later
    · rw [if_pos rfl]
    · have different : name ≠ entry.1 := by
        rintro rfl
        exact String.lt_irrefl entry.1 (least (entry.1, value) later)
      rw [if_neg different, ih ascending later]

/-- What is put under a name is found there, and all else is found as before. -/
theorem lookup_putEntry (name other : String) (value : α) (entries : List (String × α)) :
    (putEntry name value entries).lookup other = if other = name then some value else entries.lookup other := by
  induction entries with
  | nil => rw [putEntry, lookup_cons_eq_ite]
  | cons entry entries ih =>
    rw [putEntry]
    split
    · rw [lookup_cons_eq_ite]
    · split
      next found =>
        rw [lookup_cons_eq_ite, lookup_cons_eq_ite, found]
        split <;> rfl
      next different =>
        rw [lookup_cons_eq_ite, lookup_cons_eq_ite, ih]
        by_cases same : other = entry.1
        · rw [if_pos same, if_pos same, if_neg fun named => different (named.symm.trans same)]
        · rw [if_neg same, if_neg same]

namespace Table

theorem find?_put (table : Table α) (name other : String) (value : α) :
    (table.put name value).find? other = if other = name then some value else table.find? other :=
  lookup_putEntry name other value table.entries

/-- Putting something under a new name leaves all that is found. -/
theorem find?_put_of_new {table : Table α} {name other : String} {value found : α} (new : table.find? name = none)
    (before : table.find? other = some found) : (table.put name value).find? other = some found := by
  have different : other ≠ name := by
    rintro rfl
    rw [new] at before
    cases before
  rw [find?_put, if_neg different, before]

theorem mem_of_find? {table : Table α} {name : String} {value : α} (found : table.find? name = some value) :
    (name, value) ∈ table.entries :=
  mem_of_lookup found

/-- Tables that find the same under every name are the same. -/
theorem eq_of_find? {table table' : Table α} (same : ∀ name, table.find? name = table'.find? name) : table = table' := by
  obtain ⟨entries, ascending⟩ := table
  obtain ⟨entries', ascending'⟩ := table'
  have found (name : String) : entries.lookup name = entries'.lookup name := same name
  have distinct {entries : List (String × α)} (ascending : Ascending entries) : entries.Nodup :=
    (List.pairwise_map.mp ascending.nodup).imp fun apart same => apart (congrArg Prod.fst same)
  have perm : entries.Perm entries' := by
    refine (List.perm_ext_iff_of_nodup (distinct ascending) (distinct ascending')).mpr fun (name, value) => ?_
    constructor
    · exact fun member => mem_of_lookup (found name ▸ ascending.lookup_of_mem member)
    · exact fun member => mem_of_lookup ((found name).symm ▸ ascending'.lookup_of_mem member)
  obtain rfl := ascending.eq_of_perm ascending' perm
  rfl

/-- What a table of some entries finds is one of them. -/
theorem mem_of_find?_ofEntries {entries : List (String × α)} {name : String} {value : α}
    (found : (Table.ofEntries entries).find? name = some value) : (name, value) ∈ entries :=
  mem_ascendingEntries (mem_of_find? found)

end Table

end RecordQuery
