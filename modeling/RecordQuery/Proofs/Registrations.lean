import Mathlib.Data.List.Induction
import RecordQuery.Proofs.Tables
import RecordQuery.Registry

/-!
# Registrations

What a registry answers is decided by the calls that have registered something in it, and by nothing else. Under every
name it holds the function and the method that were registered last (`Registry.answers_of_history`): calls by that name
are checked against the parameters of that entry and then built by it, and a name is listed if anything was ever
registered under it. A table holds the last of what it was given, one entry at a time (`Table.Records`).
-/

namespace RecordQuery

/-! ## The last entry of a name -/

section

variable {α : Type}

/-- Of all entries with a name, one is the last. -/
def LastGiven (given : List (String × α)) (name : String) (value : α) : Prop :=
  ∃ before after, given = before ++ (name, value) :: after ∧ name ∉ after.map Prod.fst

theorem lastGiven_concat {given : List (String × α)} {name other : String} {value added : α} :
    LastGiven (given ++ [(other, added)]) name value ↔
      if name = other then value = added else LastGiven given name value := by
  constructor
  · rintro ⟨before, after, split, absent⟩
    rcases List.eq_nil_or_concat after with rfl | ⟨after, last, rfl⟩
    · obtain ⟨-, same⟩ := List.append_inj' split rfl
      cases same
      simp
    · rw [List.concat_eq_append, ← List.cons_append, ← List.append_assoc] at split
      obtain ⟨rfl, same⟩ := List.append_inj' split rfl
      cases same
      simp only [List.concat_eq_append, List.map_append, List.mem_append, not_or] at absent
      have different : name ≠ other := by simpa using absent.2
      rw [if_neg different]
      exact ⟨before, after, rfl, absent.1⟩
  · split
    next same =>
      rintro rfl
      exact ⟨given, [], by rw [same], by simp⟩
    next different =>
      rintro ⟨before, after, rfl, absent⟩
      exact ⟨before, after ++ [(other, added)], by simp, by simp [absent, different]⟩

theorem exists_lastGiven_iff {given : List (String × α)} {name : String} :
    (∃ value, LastGiven given name value) ↔ name ∈ given.map Prod.fst := by
  induction given using List.reverseRecOn with
  | nil => simp [LastGiven]
  | append_singleton given entry ih =>
    obtain ⟨other, added⟩ := entry
    simp only [lastGiven_concat]
    by_cases same : name = other
    · simp [same]
    · simp [same, ih]

/-- Where no name stands twice, every entry is the last of its name. -/
theorem lastGiven_iff_mem {given : List (String × α)} (distinct : (given.map Prod.fst).Nodup) {name : String} {value : α} :
    LastGiven given name value ↔ (name, value) ∈ given := by
  constructor
  · rintro ⟨before, after, rfl, -⟩
    simp
  · intro member
    obtain ⟨before, after, rfl⟩ := List.append_of_mem member
    refine ⟨before, after, rfl, fun again => ?_⟩
    rw [List.map_append, List.nodup_append] at distinct
    exact (List.nodup_cons.mp distinct.2.1).1 again

namespace Table

variable {table : Table α} {given : List (String × α)}

/-- Under every name a table finds the last of what it was given. -/
def Records (table : Table α) (given : List (String × α)) : Prop :=
  ∀ name value, table.find? name = some value ↔ LastGiven given name value

theorem records_empty : Records (.empty : Table α) [] := by
  intro name value
  simp [LastGiven, empty, find?]

theorem Records.put (records : table.Records given) (name : String) (value : α) :
    (table.put name value).Records (given ++ [(name, value)]) := by
  intro other found
  rw [find?_put, lastGiven_concat]
  by_cases same : other = name
  · simp [same, eq_comm]
  · rw [if_neg same, if_neg same]
    exact records other found

theorem records_ofEntries (entries : List (String × α)) : (ofEntries entries).Records entries := by
  induction entries using List.reverseRecOn with
  | nil => exact records_empty
  | append_singleton entries entry ih =>
    have onward : ofEntries (entries ++ [entry]) = (ofEntries entries).put entry.1 entry.2 := by
      simp [ofEntries, Table.put, ascendingEntries]
    rw [onward]
    exact ih.put entry.1 entry.2

/-- Entries whose names all differ are recorded in any order. -/
theorem Records.perm (records : table.Records given) (distinct : (given.map Prod.fst).Nodup) {order : List (String × α)}
    (same : order.Perm given) : table.Records order := by
  intro name value
  rw [records name value, lastGiven_iff_mem distinct, lastGiven_iff_mem ((same.map Prod.fst).nodup_iff.mpr distinct),
    same.mem_iff]

theorem Records.contains_iff (records : table.Records given) (name : String) :
    table.contains name = true ↔ name ∈ given.map Prod.fst := by
  rw [contains, Option.isSome_iff_exists, ← exists_lastGiven_iff]
  exact exists_congr (records name)

theorem mem_names_iff (table : Table α) (name : String) : name ∈ table.names ↔ table.contains name = true := by
  rw [contains, Option.isSome_iff_exists, names, List.mem_map]
  constructor
  · rintro ⟨⟨_, value⟩, member, rfl⟩
    exact ⟨value, table.ascending.lookup_of_mem member⟩
  · rintro ⟨value, found⟩
    exact ⟨(name, value), mem_of_find? found, rfl⟩

theorem pairwise_names (table : Table α) : table.names.Pairwise (· < ·) := List.pairwise_map.mpr table.ascending

end Table

/-- Of the entries of a name only one is the last. -/
theorem LastGiven.eq {given : List (String × α)} {name : String} {value value' : α} (last : LastGiven given name value)
    (last' : LastGiven given name value') : value = value' := by
  have found := (Table.records_ofEntries given name value).mpr last
  rw [(Table.records_ofEntries given name value').mpr last'] at found
  exact (Option.some.inj found).symm

end

/-! ## Histories -/

/-- A call that registers a function or a method under a name. -/
inductive Registration where
  | function (name : String) (entry : FunctionEntry)
  | method (name : String) (entry : MethodEntry)

def Registration.function? : Registration → Option (String × FunctionEntry)
  | .function name entry => some (name, entry)
  | .method .. => none

def Registration.method? : Registration → Option (String × MethodEntry)
  | .function .. => none
  | .method name entry => some (name, entry)

/-- The functions that a history registers, in order. -/
def functionsOf (history : List Registration) : List (String × FunctionEntry) := history.filterMap Registration.function?

/-- The methods that a history registers, in order. -/
def methodsOf (history : List Registration) : List (String × MethodEntry) := history.filterMap Registration.method?

namespace Registry

def register (r : Registry) : Registration → Registry
  | .function name entry => r.registerFunction name entry.params entry.build
  | .method name entry => r.registerMethod name entry.params entry.build

def registerAll (r : Registry) (calls : List Registration) : Registry := calls.foldl register r

/-- All that is standard. -/
def standardRegistrations : List Registration :=
  standardFunctions.map (fun entry => .function entry.1 entry.2) ++
    standardMethods.map (fun entry => .method entry.1 entry.2)

/-- A registry to begin with, and the history that it comes with: none for the empty one, and for the standard one that of
all that is standard, in whatever order. -/
inductive Begins : Registry → List Registration → Prop
  | empty : Begins .empty []
  | standard {order : List Registration} (same : order.Perm standardRegistrations) : Begins .standard order

/-- Both tables of a registry record a history. -/
structure Records (r : Registry) (history : List Registration) : Prop where
  functions : r.functions.Records (functionsOf history)
  methods : r.methods.Records (methodsOf history)

theorem Begins.records {r : Registry} {history : List Registration} (begins : Begins r history) : r.Records history := by
  cases begins with
  | empty => exact ⟨Table.records_empty, Table.records_empty⟩
  | standard same =>
    constructor
    · exact (Table.records_ofEntries standardFunctions).perm (by decide) (same.filterMap Registration.function?)
    · exact (Table.records_ofEntries standardMethods).perm (by decide) (same.filterMap Registration.method?)

/-- A call of registration adds to one table what it adds to the history, and leaves the other table alone. -/
theorem Records.register {r : Registry} {history : List Registration} (records : r.Records history) (call : Registration) :
    (r.register call).Records (history ++ [call]) := by
  obtain ⟨functions, methods⟩ := records
  cases call with
  | function name entry =>
    have added : functionsOf (history ++ [.function name entry]) = functionsOf history ++ [(name, entry)] := by
      simp [functionsOf, Registration.function?]
    have kept : methodsOf (history ++ [.function name entry]) = methodsOf history := by
      simp [methodsOf, Registration.method?]
    exact ⟨added ▸ functions.put name entry, kept ▸ methods⟩
  | method name entry =>
    have kept : functionsOf (history ++ [.method name entry]) = functionsOf history := by
      simp [functionsOf, Registration.function?]
    have added : methodsOf (history ++ [.method name entry]) = methodsOf history ++ [(name, entry)] := by
      simp [methodsOf, Registration.method?]
    exact ⟨kept ▸ functions, added ▸ methods.put name entry⟩

theorem Records.registerAll {r : Registry} {history : List Registration} (records : r.Records history)
    (calls : List Registration) : (r.registerAll calls).Records (history ++ calls) := by
  induction calls generalizing r history with
  | nil =>
    rw [List.append_nil]
    exact records
  | cons call calls ih =>
    have onward := ih (records.register call)
    rwa [List.append_assoc, List.singleton_append] at onward

/-! ## Answers -/

section

variable {α : Type}

/-- What is built by name from some arguments is unknown if the name was never given. Else the arguments are checked
against the parameters of its last entry. If they are refused, nothing else happens, and if they are not, the entry
builds, after a line in the log. -/
structure BuildsLast (given : List (String × α)) (params : α → List Param) (build : α → Build Query)
    (unknown : String → Error) (action : String) (args : List Arg) (init : String → Build Query) : Prop where
  unknown : ∀ name, name ∉ given.map Prod.fst → init name = throw (unknown name)
  known : ∀ name ∈ given.map Prod.fst, ∃ entry, LastGiven given name entry ∧
    (∀ e, checkArgs name (params entry) args = .error e → init name = throw e) ∧
    (checkArgs name (params entry) args = .ok () → ∀ bench, (init name).run.run bench = (build entry).run.run
      { bench with log := bench.log.push ⟨.debug, .registry,
          action ++ " '" ++ name ++ "' with " ++ toString args.length ++ " args"⟩ })

/-- The names that are listed ascend, and they are those that are had, which are those that were ever given. -/
structure ListsNames (given : List (String × α)) (has : String → Bool) (names : List String) : Prop where
  ascend : names.Pairwise (· < ·)
  listed : ∀ name, name ∈ names ↔ has name = true
  had : ∀ name, has name = true ↔ name ∈ given.map Prod.fst

variable {table : Table α} {given : List (String × α)} (records : table.Records given)
include records

/-- Both kinds of call look an entry up, check the arguments, write to the log and build. -/
theorem buildsLast_of_records {params : α → List Param} {build : α → Build Query} {unknown : String → Error}
    {action : String} {args : List Arg} {init : String → Build Query}
    (ofNone : ∀ name, table.find? name = none → init name = throw (unknown name))
    (ofSome : ∀ name entry, table.find? name = some entry → init name = do
      liftExcept (checkArgs name (params entry) args)
      noteCall action name args
      build entry) :
    BuildsLast given params build unknown action args init := by
  constructor
  · intro name absent
    rw [← records.contains_iff, Table.contains] at absent
    exact ofNone name (by simpa using absent)
  · intro name present
    obtain ⟨entry, last⟩ := exists_lastGiven_iff.mpr present
    have looksUp := ofSome name entry ((records name entry).mpr last)
    refine ⟨entry, last, fun e refused => ?_, fun accepted bench => ?_⟩
    · rw [looksUp, refused]
      rfl
    · rw [looksUp, accepted]
      rfl

theorem listsNames_of_records : ListsNames given table.contains table.names :=
  ⟨table.pairwise_names, table.mem_names_iff, records.contains_iff⟩

end

/-- Two registries answer alike for functions of a name. -/
def SameFunction (r r' : Registry) (name : String) : Prop :=
  r.hasFunction name = r'.hasFunction name ∧ ∀ args, r.initFunction name args = r'.initFunction name args

/-- Two registries answer alike for methods of a name. -/
def SameMethod (r r' : Registry) (name : String) : Prop :=
  r.hasMethod name = r'.hasMethod name ∧ ∀ receiver args, r.initMethod name receiver args = r'.initMethod name receiver args

theorem sameFunction_register (r : Registry) {call : Registration} {name : String}
    (others : ∀ entry, call ≠ .function name entry) : (r.register call).SameFunction r name := by
  have found : (r.register call).functions.find? name = r.functions.find? name := by
    cases call with
    | function other entry =>
      have different : name ≠ other := by
        rintro rfl
        exact others entry rfl
      exact (Table.find?_put _ _ _ _).trans (if_neg different)
    | method other entry => rfl
  refine ⟨?_, fun args => ?_⟩
  · rw [hasFunction, hasFunction, Table.contains, Table.contains, found]
  · rw [initFunction, initFunction, found]

theorem sameMethod_register (r : Registry) {call : Registration} {name : String}
    (others : ∀ entry, call ≠ .method name entry) : (r.register call).SameMethod r name := by
  have found : (r.register call).methods.find? name = r.methods.find? name := by
    cases call with
    | function other entry => rfl
    | method other entry =>
      have different : name ≠ other := by
        rintro rfl
        exact others entry rfl
      exact (Table.find?_put _ _ _ _).trans (if_neg different)
  refine ⟨?_, fun receiver args => ?_⟩
  · rw [hasMethod, hasMethod, Table.contains, Table.contains, found]
  · rw [initMethod, initMethod, found]

/-- However many calls of registration come after the beginning, in whatever order, functions and methods are built from
the last entry of their name, and their names are listed; functions and methods keep apart. One more call changes no
answer but those for the one name, in the one table, that it registers. -/
theorem answers_of_history {start : Registry} {earlier : List Registration} (begins : start.Begins earlier)
    (calls : List Registration) :
    let r := start.registerAll calls
    let history := earlier ++ calls
    (∀ args, BuildsLast (functionsOf history) FunctionEntry.params (·.build args) .unknownFunction
      "constructing function" args (r.initFunction · args)) ∧
    (∀ receiver args, BuildsLast (methodsOf history) MethodEntry.params (·.build receiver args) .unknownMethod
      "binding method" args (r.initMethod · receiver args)) ∧
    ListsNames (functionsOf history) r.hasFunction r.functionNames ∧
    ListsNames (methodsOf history) r.hasMethod r.methodNames ∧
    r.functionCount = r.functionNames.length ∧
    ∀ call name, ((∀ entry, call ≠ .function name entry) → (r.register call).SameFunction r name) ∧
      ((∀ entry, call ≠ .method name entry) → (r.register call).SameMethod r name) := by
  intro r history
  obtain ⟨functions, methods⟩ := begins.records.registerAll calls
  refine ⟨fun args => ?_, fun receiver args => ?_, ?_, ?_, ?_, fun call name => ⟨?_, ?_⟩⟩
  · refine buildsLast_of_records functions (fun name none => ?_) (fun name entry found => ?_)
    · rw [initFunction, none]
    · rw [initFunction, found]
  · refine buildsLast_of_records methods (fun name none => ?_) (fun name entry found => ?_)
    · rw [initMethod, none]
    · rw [initMethod, found]
  · exact listsNames_of_records functions
  · exact listsNames_of_records methods
  · exact (List.length_map _).symm
  · exact r.sameFunction_register
  · exact r.sameMethod_register

/-- A function and a method of one name, and then another function in place of the first. -/
def unitCalls : List Registration :=
  [.function "unit" ⟨[], fun _ => pure (.literal (.string "kg"))⟩,
    .method "unit" ⟨[], fun receiver _ => pure receiver⟩,
    .function "unit" ⟨[{ name := "name", kind := .string }], Query.buildVar⟩]

/-- The standard registry, with its entries from the last to the first, and those calls. -/
theorem answers_of_history_unit :
    let r := standard.registerAll unitCalls
    r.initFunction "unit" [] = throw (.invalidArguments "unit" (.arity 1 1 0)) ∧
      (∀ bench, ((r.initFunction "unit" [.value (.string "kg")]).run.run bench).1 = .ok (.var (.value (.string "kg")))) ∧
      r.initMethod "kilo" .content [] = throw (.unknownMethod "kilo") ∧
      "unit" ∈ r.methodNames ∧ "json" ∈ r.functionNames ∧
      (r.register (.method "json" ⟨[], fun receiver _ => pure receiver⟩)).SameFunction r "json" := by
  intro r
  obtain ⟨functions, methods, functionNames, methodNames, -, others⟩ :=
    answers_of_history (.standard (List.reverse_perm standardRegistrations)) unitCalls
  have last : LastGiven (functionsOf (standardRegistrations.reverse ++ unitCalls)) "unit"
      ⟨[{ name := "name", kind := .string }], Query.buildVar⟩ :=
    ⟨functionsOf (standardRegistrations.reverse ++ unitCalls.take 2), [], rfl, List.not_mem_nil⟩
  have given : "unit" ∈ (functionsOf (standardRegistrations.reverse ++ unitCalls)).map Prod.fst :=
    exists_lastGiven_iff.mp ⟨_, last⟩
  refine ⟨?_, fun bench => ?_, ?_, ?_, ?_, (others _ "json").1 nofun⟩
  · obtain ⟨entry, isLast, refused, -⟩ := (functions []).known "unit" given
    obtain rfl := last.eq isLast
    exact refused _ rfl
  · obtain ⟨entry, isLast, -, built⟩ := (functions [.value (.string "kg")]).known "unit" given
    obtain rfl := last.eq isLast
    rw [built rfl]
    rfl
  · exact (methods .content []).unknown "kilo" (by decide)
  · exact (methodNames.listed _).mpr ((methodNames.had _).mpr (by decide))
  · exact (functionNames.listed _).mpr ((functionNames.had _).mpr (by decide))

end Registry

end RecordQuery
