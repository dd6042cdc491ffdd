import Mathlib.Data.List.TakeDrop
import Mathlib.Data.List.TakeWhile
import RecordQuery.Proofs.Keys
import RecordQuery.Proofs.Tables
import RecordQuery.Settings.Override

/-!
# Settings under a command line

What a command line makes of the settings of a file: it is refused at the first text that defines no variable, and
otherwise merged (`Settings.Overridden`), where of several values for one variable the last counts. A command line that
is merged once more changes nothing (`Settings.override_merges`).
-/

namespace RecordQuery

/-! ## Definitions -/

/-- A text defines a variable: a name that is not empty, then the first equals sign of the text, then the value. -/
structure Defines (raw name value : String) : Prop where
  spelled : raw = name ++ "=" ++ value
  named : name ≠ ""
  first : '=' ∉ name.toList

def IsDefinition (raw : String) : Prop := ∃ name value, Defines raw name value

/-- Of some texts the last that defines a variable gives it a value. -/
def GivesLast (raws : List String) (name value : String) : Prop :=
  ∃ before raw after, raws = before ++ raw :: after ∧ Defines raw name value ∧
    ∀ later ∈ after, ∀ other, ¬ Defines later name other

/-- What the value in a definition stands for: if it is a JSON text the value of that, and else itself. -/
inductive StandsFor (value : String) : Json → Prop
  | json {data : Data} (read : JsonText.parse (Utf8.encode value) = .ok data) : StandsFor value data.toJson
  | text {failure : JsonText.Failure} (refused : JsonText.parse (Utf8.encode value) = .error failure) :
      StandsFor value (.string value)

theorem standsFor_iff {value : String} {json : Json} : StandsFor value json ↔ json = definedValue value := by
  unfold definedValue
  constructor
  · rintro (read | refused)
    · rw [read]
    · rw [refused]
  · rintro rfl
    split
    next read => exact .json read
    next refused => exact .text refused

theorem splitEquals_eq_some_iff {text before behind : List Char} :
    CommandLine.splitEquals text = (before, some behind) ↔ text = before ++ '=' :: behind ∧ '=' ∉ before := by
  rw [CommandLine.splitEquals, List.span_eq_takeWhile_dropWhile]
  constructor
  · intro split
    have whole := List.takeWhile_append_dropWhile (p := (· != '=')) (l := text)
    cases rest : text.dropWhile (· != '=') with
    | nil => simp [rest] at split
    | cons mark after =>
      simp only [rest, Prod.mk.injEq, Option.some.injEq] at split
      obtain ⟨rfl, rfl⟩ := split
      have isMark : mark = '=' := by
        have stops := List.head?_dropWhile_not (· != '=') text
        simpa [rest] using stops
      subst isMark
      refine ⟨by rw [← rest, whole], fun member => ?_⟩
      have passed := List.mem_takeWhile_imp member
      simp at passed
  · rintro ⟨rfl, first⟩
    have passed : ∀ c ∈ before, (c != '=') = true := by
      intro c member
      have apart : c ≠ '=' := fun same => first (same ▸ member)
      simpa using apart
    rw [List.takeWhile_append_of_pos passed, List.dropWhile_append_of_pos passed]
    simp

theorem splitDefinition?_eq_some_iff {raw name value : String} :
    splitDefinition? raw = some (name, value) ↔ Defines raw name value := by
  unfold splitDefinition?
  constructor
  · intro split
    split at split
    next c before behind found =>
      cases split
      obtain ⟨spelled, first⟩ := splitEquals_eq_some_iff.mp found
      refine ⟨?_, ?_, by simpa using first⟩
      · apply String.toList_inj.mp
        simp [spelled]
      · intro empty
        simpa using congrArg String.toList empty
    next => cases split
  · rintro ⟨spelled, named, first⟩
    have chars : raw.toList = name.toList ++ '=' :: value.toList := by simp [spelled]
    rw [splitEquals_eq_some_iff.mpr ⟨chars, first⟩]
    cases start : name.toList with
    | nil => exact absurd (String.toList_eq_nil_iff.mp start) named
    | cons c before =>
      simp only [← start, String.ofList_toList]

theorem Defines.eq {raw name name' value value' : String} (defines : Defines raw name value)
    (defines' : Defines raw name' value') : name = name' ∧ value = value' := by
  have parts := splitDefinition?_eq_some_iff.mpr defines
  rw [splitDefinition?_eq_some_iff.mpr defines'] at parts
  cases parts
  exact ⟨rfl, rfl⟩

theorem GivesLast.eq {raws : List String} {name value value' : String} (last : GivesLast raws name value)
    (last' : GivesLast raws name value') : value = value' := by
  obtain ⟨before, raw, after, rfl, defines, none⟩ := last
  obtain ⟨before', raw', after', same, defines', none'⟩ := last'
  rcases List.append_eq_append_iff.mp same with ⟨_ | ⟨_, between⟩, -, rest⟩ | ⟨_ | ⟨_, between⟩, -, rest⟩
  · cases rest
    exact (defines.eq defines').2
  · cases rest
    exact absurd defines' (none raw' (by simp) value')
  · cases rest
    exact (defines.eq defines').2
  · cases rest
    exact absurd defines (none' raw (by simp) value)

namespace Settings

variable {s s' : Settings} {raws : List String} {raw name value : String}

/-! ## One definition -/

theorem define_of_defines (defines : Defines raw name value) (s : Settings) :
    s.define raw = .ok { s with vars := s.vars.put name (definedValue value) } := by
  rw [define, splitDefinition?_eq_some_iff.mpr defines]

theorem define_of_not_definition (refused : ¬ IsDefinition raw) (s : Settings) : s.define raw = .error ⟨raw⟩ := by
  rw [define]
  cases split : splitDefinition? raw with
  | none => rfl
  | some parts => exact absurd ⟨_, _, splitDefinition?_eq_some_iff.mp split⟩ refused

/-- A definition that is accepted puts one variable. -/
theorem eq_put_of_define (defined : s.define raw = .ok s') :
    ∃ name value, Defines raw name value ∧ s' = { s with vars := s.vars.put name (definedValue value) } := by
  by_cases definition : IsDefinition raw
  · obtain ⟨name, value, defines⟩ := definition
    rw [define_of_defines defines] at defined
    cases defined
    exact ⟨name, value, defines, rfl⟩
  · rw [define_of_not_definition definition] at defined
    cases defined

/-! ## Definitions in order -/

/-- Definitions are accepted if each of them is one. -/
theorem foldlM_define_of_definitions (definitions : ∀ raw ∈ raws, IsDefinition raw) (s : Settings) :
    ∃ s', raws.foldlM define s = .ok s' := by
  induction raws generalizing s with
  | nil => exact ⟨s, rfl⟩
  | cons raw raws ih =>
    obtain ⟨⟨name, value, defines⟩, others⟩ := List.forall_mem_cons.mp definitions
    rw [List.foldlM_cons, define_of_defines defines]
    exact ih others _

theorem definitions_of_foldlM_define (defined : raws.foldlM define s = .ok s') : ∀ raw ∈ raws, IsDefinition raw := by
  intro raw member
  obtain ⟨before, after, accepted⟩ := of_foldlM_ok defined raw member
  obtain ⟨name, value, defines, -⟩ := eq_put_of_define accepted
  exact ⟨name, value, defines⟩

/-- Definitions change nothing but the variables. -/
theorem eq_of_foldlM_define (defined : raws.foldlM define s = .ok s') : s' = { s with vars := s'.vars } := by
  induction raws generalizing s with
  | nil =>
    cases defined
    rfl
  | cons raw raws ih =>
    rw [List.foldlM_cons] at defined
    obtain ⟨between, first, later⟩ := bind_eq_ok defined
    obtain ⟨name, value, -, rfl⟩ := eq_put_of_define first
    have onlyVars := ih later
    exact onlyVars

/-- A variable that no definition gives a value keeps the one that it has. -/
theorem find?_of_not_defined (defined : raws.foldlM define s = .ok s')
    (undefined : ∀ raw ∈ raws, ∀ value, ¬ Defines raw name value) : s'.vars.find? name = s.vars.find? name := by
  induction raws generalizing s with
  | nil =>
    cases defined
    rfl
  | cons raw raws ih =>
    obtain ⟨other, others⟩ := List.forall_mem_cons.mp undefined
    rw [List.foldlM_cons] at defined
    obtain ⟨between, first, later⟩ := bind_eq_ok defined
    obtain ⟨put, value, defines, rfl⟩ := eq_put_of_define first
    have apart : name ≠ put := by
      rintro rfl
      exact other value defines
    rw [ih later others, Table.find?_put, if_neg apart]

/-- The last value that is given for a variable is the one that it gets. -/
theorem find?_of_givesLast (defined : raws.foldlM define s = .ok s') (given : GivesLast raws name value) :
    s'.vars.find? name = some (definedValue value) := by
  obtain ⟨before, raw, after, rfl, defines, last⟩ := given
  rw [List.foldlM_append] at defined
  obtain ⟨between, -, rest⟩ := bind_eq_ok defined
  rw [List.foldlM_cons, define_of_defines defines] at rest
  rw [find?_of_not_defined rest last, Table.find?_put, if_pos rfl]

/-- Definitions are refused at the first text that is none. -/
theorem foldlM_define_eq_error_iff {bad : BadDefinition} :
    raws.foldlM define s = .error bad ↔
      ∃ before raw after, raws = before ++ raw :: after ∧ (∀ earlier ∈ before, IsDefinition earlier) ∧
        ¬ IsDefinition raw ∧ bad = ⟨raw⟩ := by
  constructor
  · intro refused
    induction raws generalizing s with
    | nil => cases refused
    | cons raw raws ih =>
      rw [List.foldlM_cons] at refused
      by_cases definition : IsDefinition raw
      · obtain ⟨name, value, defines⟩ := definition
        rw [define_of_defines defines] at refused
        obtain ⟨before, culprit, after, rfl, earlier, isNone, same⟩ := ih refused
        exact ⟨raw :: before, culprit, after, rfl, List.forall_mem_cons.mpr ⟨⟨name, value, defines⟩, earlier⟩, isNone, same⟩
      · rw [define_of_not_definition definition] at refused
        cases refused
        exact ⟨[], raw, raws, rfl, List.forall_mem_nil _, definition, rfl⟩
  · rintro ⟨before, raw, after, rfl, earlier, isNone, rfl⟩
    obtain ⟨between, accepted⟩ := foldlM_define_of_definitions earlier s
    rw [List.foldlM_append, accepted]
    show (raw :: after).foldlM define between = _
    rw [List.foldlM_cons, define_of_not_definition isNone]
    rfl

/-- If some definition gives a variable a value, one of them is the last to do so. -/
theorem exists_givesLast (given : ∃ raw ∈ raws, ∃ value, Defines raw name value) : ∃ value, GivesLast raws name value := by
  induction raws with
  | nil => simp at given
  | cons raw raws ih =>
    by_cases later : ∃ raw ∈ raws, ∃ value, Defines raw name value
    · obtain ⟨value, before, last, after, rfl, defines, none⟩ := ih later
      exact ⟨value, raw :: before, last, after, rfl, defines, none⟩
    · obtain ⟨found, isFound, value, defines⟩ := given
      rcases List.mem_cons.mp isFound with rfl | isLater
      · refine ⟨value, [], found, raws, rfl, defines, ?_⟩
        exact fun other isLater value' again => later ⟨other, isLater, value', again⟩
      · exact absurd ⟨found, isLater, value, defines⟩ later

/-! ## Command lines -/

/-- Settings that those of a file have become under a command line. -/
structure Overridden (s : Settings) (line : CommandLine) (s' : Settings) : Prop where
  given : ∀ name, (∃ raw ∈ line.vars, ∃ value, Defines raw name value) →
    ∃ value json, GivesLast line.vars name value ∧ StandsFor value json ∧ s'.vars.find? name = some json
  kept : ∀ name, (∀ raw ∈ line.vars, ∀ value, ¬ Defines raw name value) → s'.vars.find? name = s.vars.find? name
  verbosity : s'.verbosity = max s.verbosity line.verbose
  stats : s'.collectStats = true ↔ s.collectStats = true ∨ line.stats = true
  mode : s'.errorMode = line.errorMode.getD s.errorMode

/-- The settings with all that a command line asks for but its variables. -/
def flagged (s : Settings) (line : CommandLine) : Settings :=
  { s with
    errorMode := line.errorMode.getD s.errorMode
    collectStats := s.collectStats || line.stats
    verbosity := max s.verbosity line.verbose }

variable {line : CommandLine}

theorem override_eq (s : Settings) (line : CommandLine) :
    s.override line = line.vars.foldlM define (s.flagged line) := rfl

theorem max_max_right (a b : UInt8) : max (max a b) b = max a b := by
  show (if (if a ≤ b then b else a) ≤ b then b else (if a ≤ b then b else a)) = (if a ≤ b then b else a)
  by_cases small : a ≤ b
  · simp only [if_pos small, ite_self]
  · simp only [if_neg small]

theorem flagged_flagged (s : Settings) (line : CommandLine) (vars : Table Json) :
    ({ s.flagged line with vars := vars } : Settings).flagged line = { s.flagged line with vars := vars } := by
  have mode : line.errorMode.getD (line.errorMode.getD s.errorMode) = line.errorMode.getD s.errorMode := by
    cases line.errorMode <;> rfl
  simp only [flagged, mode, max_max_right, Bool.or_assoc, Bool.or_self]

theorem overridden (done : s.override line = .ok s') : Overridden s line s' := by
  rw [override_eq] at done
  have flags : s' = { s.flagged line with vars := s'.vars } := eq_of_foldlM_define done
  refine ⟨?_, ?_, ?_, ?_, ?_⟩
  · intro name given
    obtain ⟨value, last⟩ := exists_givesLast given
    exact ⟨value, definedValue value, last, standsFor_iff.mpr rfl, find?_of_givesLast done last⟩
  · intro name undefined
    have kept := find?_of_not_defined done undefined
    exact kept
  · rw [flags]
    rfl
  · rw [flags]
    exact Bool.or_eq_true_iff
  · rw [flags]
    rfl

/-- A command line that has gone before the settings once changes nothing when it does again. -/
theorem override_override (done : s.override line = .ok s') : s'.override line = .ok s' := by
  rw [override_eq] at done
  have flags : s' = { s.flagged line with vars := s'.vars } := eq_of_foldlM_define done
  have unchanged : s'.flagged line = s' := by
    rw [flags]
    exact flagged_flagged s line s'.vars
  obtain ⟨s'', again⟩ := foldlM_define_of_definitions (definitions_of_foldlM_define done) s'
  rw [override_eq, unchanged, again]
  have sameVars : s''.vars = s'.vars := by
    refine Table.eq_of_find? fun name => ?_
    by_cases given : ∃ raw ∈ line.vars, ∃ value, Defines raw name value
    · obtain ⟨value, last⟩ := exists_givesLast given
      rw [find?_of_givesLast again last, find?_of_givesLast done last]
    · exact find?_of_not_defined again fun raw member value defines => given ⟨raw, member, value, defines⟩
  rw [eq_of_foldlM_define again, sameVars]

/-- A command line is merged if all its texts are definitions, and else refused for the first that is none. What it is
merged to is decided by its flags and the last value for each name, and merging it once more changes nothing. -/
theorem override_merges (s : Settings) (line : CommandLine) :
    ((∃ s', s.override line = .ok s') ↔ ∀ raw ∈ line.vars, IsDefinition raw) ∧
    (∀ bad, s.override line = .error bad ↔
      ∃ before raw after, line.vars = before ++ raw :: after ∧ (∀ earlier ∈ before, IsDefinition earlier) ∧
        ¬ IsDefinition raw ∧ bad = ⟨raw⟩ ∧ bad.message = "invalid variable '" ++ raw ++ "', expected NAME=VALUE") ∧
    ∀ s', s.override line = .ok s' → Overridden s line s' ∧ s'.override line = .ok s' := by
  refine ⟨⟨?_, ?_⟩, fun bad => ?_, fun s' done => ⟨overridden done, override_override done⟩⟩
  · rintro ⟨s', done⟩
    exact definitions_of_foldlM_define done
  · exact fun definitions => foldlM_define_of_definitions definitions _
  · rw [override_eq, foldlM_define_eq_error_iff]
    constructor
    · rintro ⟨before, raw, after, texts, earlier, isNone, rfl⟩
      exact ⟨before, raw, after, texts, earlier, isNone, rfl, rfl⟩
    · rintro ⟨before, raw, after, texts, earlier, isNone, same, -⟩
      exact ⟨before, raw, after, texts, earlier, isNone, same⟩

/-- A file that binds the region and asks for some detail. -/
def fileOfRegion : Settings := { verbosity := 2, vars := Table.empty.put "region" (.string "north") }

/-- A command line that gives the limit twice, and a unit with an equals sign in it. -/
def lineOfLimits : CommandLine :=
  { vars := ["limit=many", "unit=kg=2.2", "limit=[1]"], errorMode := some .collect, verbose := 1 }

/-- A command line with a definition that has no name, and then one that has no value. -/
def lineWithoutName : CommandLine := { vars := ["limit=1", "=2", "unit"] }

theorem override_merges_limit :
    (∃ s', fileOfRegion.override lineOfLimits = .ok s' ∧ s'.vars.find? "limit" = some (.array [.number (.natural 1)]) ∧
      s'.vars.find? "unit" = some (.string "kg=2.2") ∧ s'.vars.find? "region" = some (.string "north") ∧
      s'.verbosity = 2 ∧ s'.errorMode = .collect ∧ s'.override lineOfLimits = .ok s') ∧
    fileOfRegion.override lineWithoutName = .error ⟨"=2"⟩ := by
  have definition {raw : String} {name value : String} (parts : splitDefinition? raw = some (name, value)) :
      Defines raw name value := splitDefinition?_eq_some_iff.mp parts
  have limit : Defines "limit=[1]" "limit" "[1]" := definition (by rfl)
  have unit : Defines "unit=kg=2.2" "unit" "kg=2.2" := definition (by rfl)
  have limits : Defines "limit=many" "limit" "many" := definition (by rfl)
  constructor
  · obtain ⟨merges, -, merged⟩ := override_merges fileOfRegion lineOfLimits
    obtain ⟨s', done⟩ := merges.mpr <| by
      simp only [lineOfLimits, List.forall_mem_cons]
      exact ⟨⟨_, _, limits⟩, ⟨_, _, unit⟩, ⟨_, _, limit⟩, List.forall_mem_nil _⟩
    obtain ⟨merge, again⟩ := merged s' done
    have bound {name value : String} {json : Json} (last : GivesLast lineOfLimits.vars name value)
        (stands : json = definedValue value) : s'.vars.find? name = some json := by
      have ⟨before, raw, after, texts, defines, _⟩ := last
      obtain ⟨value', json', last', stands', found⟩ := merge.given name ⟨raw, by simp [texts], value, defines⟩
      rw [found, stands, standsFor_iff.mp stands', last'.eq last]
    refine ⟨s', done, ?_, ?_, ?_, merge.verbosity.trans (by decide), merge.mode, again⟩
    · exact bound ⟨["limit=many", "unit=kg=2.2"], _, [], rfl, limit, nofun⟩ (by rfl)
    · refine bound ⟨["limit=many"], _, ["limit=[1]"], rfl, unit, ?_⟩ (by rfl)
      exact List.forall_mem_singleton.mpr fun value defines => absurd (limit.eq defines).1 (by decide)
    · refine (merge.kept "region" ?_).trans rfl
      simp only [lineOfLimits, List.forall_mem_cons]
      refine ⟨fun value defines => ?_, fun value defines => ?_, fun value defines => ?_, List.forall_mem_nil _⟩
      · exact absurd (limits.eq defines).1 (by decide)
      · exact absurd (unit.eq defines).1 (by decide)
      · exact absurd (limit.eq defines).1 (by decide)
  · obtain ⟨-, refuses, -⟩ := override_merges fileOfRegion lineWithoutName
    refine (refuses ⟨"=2"⟩).mpr ⟨["limit=1"], "=2", ["unit"], rfl, ?_, ?_, rfl, rfl⟩
    · exact List.forall_mem_singleton.mpr ⟨_, _, definition (by rfl)⟩
    · rintro ⟨name, value, defines⟩
      have noParts : splitDefinition? "=2" = none := by decide
      rw [splitDefinition?_eq_some_iff.mpr defines] at noParts
      cases noParts

end Settings

end RecordQuery
