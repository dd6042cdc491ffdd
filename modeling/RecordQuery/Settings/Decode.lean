import RecordQuery.Settings
import RecordQuery.Json.Typed

/-!
# Settings from files

What a settings file says, as JSON text or as a tree. Everything may be left out, and members under
other keys are passed over.
-/

namespace RecordQuery

open JsonText

/-- What was read of the section on execution so far. -/
structure ExecutorDraft where
  errorMode : Option ErrorMode := none
  collectStats : Option Bool := none

/-- What was read of the section on diagnostics so far. -/
structure DebugDraft where
  verbosity : Option UInt8 := none

/-- What was read of the settings so far. -/
structure SettingsDraft where
  executor : Option ExecutorDraft := none
  debug : Option DebugDraft := none
  vars : Option (List (String × Json)) := none

def SettingsDraft.finish (d : SettingsDraft) : Settings :=
  let executor := d.executor.getD {}
  let debug := d.debug.getD {}
  { errorMode := executor.errorMode.getD .strict
    collectStats := executor.collectStats.getD false
    verbosity := debug.verbosity.getD 0
    vars := .ofEntries (d.vars.getD []) }

/-- The error modes by their names. -/
def ErrorMode.named : List (String × ErrorMode) := ErrorMode.all.map fun mode => (mode.name, mode)

/-! ## JSON text -/

def executorShape : Shape ExecutorDraft ExecutorDraft where
  name := "struct ExecutorSection"
  fields :=
    [.of "error_mode" (·.errorMode.isSome) (choice ErrorMode.named) fun mode draft =>
        { draft with errorMode := some mode },
      .of "collect_stats" (·.collectStats.isSome) flag fun collect draft =>
        { draft with collectStats := some collect }]
  strict := false
  start := {}
  finish := .ok

def debugShape : Shape DebugDraft DebugDraft where
  name := "struct DebugConfig"
  fields := [.of "verbosity" (·.verbosity.isSome) byteNumber fun verbosity _ => ⟨some verbosity⟩]
  strict := false
  start := {}
  finish := .ok

/-- Reads a value as JSON. -/
def jsonRead : Typed Json := fun budget input => do
  let (data, rest) ← anything budget input
  .ok (data.toJson, rest)

def settingsShape : Shape SettingsDraft Settings where
  name := "struct Config"
  fields :=
    [.of "executor" (·.executor.isSome) executorShape.read fun executor draft =>
        { draft with executor := some executor },
      .of "debug" (·.debug.isSome) debugShape.read fun debug draft => { draft with debug := some debug },
      .of "variables" (·.vars.isSome) (entries jsonRead) fun vars draft =>
        { draft with vars := some vars }]
  strict := false
  start := {}
  finish := fun draft => .ok draft.finish

/-- The settings that a JSON text is. -/
def Settings.parseJson (text : Bytes) : Except Trouble Settings := parseTyped settingsShape.read text

/-! ## Trees -/

/-- The members of a structure: of an object its own, of a list its items under the names of the
fields. -/
def fieldsOfData (structureName : String) (names : List String) : Data → Except Misfit (List (String × Data))
  | .object members => .ok members
  | .array items => .ok (names.zip items)
  | data => .error (.wrongType data.found structureName)

/-- One of some names: alone, or as the only key of an object with nothing in it. -/
def choiceOfData {α : Type} (known : List (String × α)) (data : Data) : Except Misfit α :=
  let named := fun name => match known.lookup name with
    | some a => .ok a
    | none => .error (.unknownVariant name (known.map Prod.fst))
  match data with
  | .string name => named name
  | .object [(name, .object [])] | .object [(name, .array [])] => named name
  | data => .error (.wrongType data.found "string or map")

/-- Passes over a member that is no field. -/
def passOverMember {δ : Type} (draft : δ) (member : String × Data) : Except Misfit δ := do
  member.2.expectWithin .passedOver
  .ok draft

def executorField (draft : ExecutorDraft) (member : String × Data) : Except Misfit ExecutorDraft :=
  if member.1 = "error_mode" then do
    let mode ← choiceOfData ErrorMode.named member.2
    .ok { draft with errorMode := some mode }
  else if member.1 = "collect_stats" then do
    let collect ← member.2.expectBool
    .ok { draft with collectStats := some collect }
  else passOverMember draft member

def debugField (draft : DebugDraft) (member : String × Data) : Except Misfit DebugDraft :=
  if member.1 = "verbosity" then do
    let verbosity ← member.2.expectByte
    .ok { draft with verbosity := some verbosity }
  else passOverMember draft member

def settingsField (draft : SettingsDraft) (member : String × Data) : Except Misfit SettingsDraft :=
  if member.1 = "executor" then do
    let members ← fieldsOfData executorShape.name ["error_mode", "collect_stats"] member.2
    let executor ← members.foldlM executorField {}
    .ok { draft with executor := some executor }
  else if member.1 = "debug" then do
    let members ← fieldsOfData debugShape.name ["verbosity"] member.2
    let debug ← members.foldlM debugField {}
    .ok { draft with debug := some debug }
  else if member.1 = "variables" then
    match member.2 with
    | .object members => do
      (Data.object members).expectWithin .kept
      .ok { draft with vars := some (Data.toJsonMembers members) }
    | data => .error (.wrongType data.found "a map")
  else passOverMember draft member

/-- The settings that a tree is. -/
def Settings.ofData (data : Data) : Except Misfit Settings := do
  let members ← fieldsOfData settingsShape.name ["executor", "debug", "variables"] data
  let draft ← members.foldlM settingsField {}
  .ok draft.finish

end RecordQuery
