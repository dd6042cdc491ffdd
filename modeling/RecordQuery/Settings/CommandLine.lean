import RecordQuery.Execution

/-!
# Command lines

What the arguments of the program ask for. They are read from the left. An option whose value is the
next argument stays pending, and so does a positional argument, until the argument behind it has been
recognised or the line ends: only then is its value held against what it may be. So an option that is
not known is noticed before a bad value in front of it.
-/

namespace RecordQuery

/-- What the arguments ask for. -/
structure CommandLine where
  /-- The path of the query document. -/
  query : Option String := none
  /-- The path of the input, which is else the standard input. -/
  input : Option String := none
  /-- Definitions of variables in order. -/
  vars : List String := []
  errorMode : Option ErrorMode := none
  /-- The targets are asked for in place of an execution. -/
  targets : Bool := false
  stats : Bool := false
  /-- How often more detail is asked for. -/
  verbose : UInt8 := 0
  /-- The path of the settings. -/
  config : Option String := none
  /-- The names of the functions and methods are asked for. -/
  list : Bool := false

/-- Why the arguments ask for no run. -/
inductive UsageStop where
  | help
  | version
  /-- No such option, or one positional argument too many. -/
  | unknownArgument
  /-- A value that is missing or cannot be. -/
  | invalidValue
  /-- An option that may stand only once. -/
  | repeated
  /-- A value for an option that takes none. -/
  | attachedValue
deriving DecidableEq

namespace CommandLine

/-- Options without a value. -/
inductive Flag where
  | targets
  | stats
  | verbose
  | list
  | help
  | version

/-- What takes a value: options, and the two places of positional arguments. -/
inductive Slot where
  | query
  | input
  | var
  | errorMode
  | config

/-- What an option can be. -/
inductive Switch where
  | flag (f : Flag)
  | slot (s : Slot)

/-- The options by their long names. -/
def longOptions : List (String × Switch) :=
  [("var", .slot .var), ("error-mode", .slot .errorMode), ("config", .slot .config),
    ("targets", .flag .targets), ("stats", .flag .stats), ("verbose", .flag .verbose),
    ("list-functions", .flag .list), ("help", .flag .help), ("version", .flag .version)]

/-- The flags by their letters. -/
def shortFlags : List (Char × Flag) := [('v', .verbose), ('h', .help), ('V', .version)]

/-- How an argument is written. -/
inductive Shape where
  /-- Two dashes, a name, and a value if an equals sign follows. -/
  | long (name : String) (value : Option String)
  /-- One dash and letters. -/
  | short (letters : List Char)
  | plain

/-- A text before and behind the first equals sign. -/
def splitEquals (text : List Char) : List Char × Option (List Char) :=
  match text.span (· != '=') with
  | (before, []) => (before, none)
  | (before, _ :: behind) => (before, some behind)

/-- How an argument is written; a dash alone is a plain argument. -/
def shapeOf (arg : String) : Shape :=
  match arg.toList with
  | '-' :: '-' :: text =>
    let (name, value) := splitEquals text
    .long (String.ofList name) (value.map String.ofList)
  | '-' :: letter :: letters => .short (letter :: letters)
  | _ => .plain

/-- How far the arguments are read. -/
structure Progress where
  line : CommandLine := {}
  /-- What waits to be settled: without a value, the next argument may be its value. -/
  pending : Option (Slot × Option String) := none
  /-- How many positional arguments there were. -/
  positionals : Nat := 0

/-- A path, which is not empty. -/
def path (text : String) : Except UsageStop String :=
  if text = "" then .error .invalidValue else .ok text

/-- Puts a value into its slot. -/
def fill (line : CommandLine) (slot : Slot) (value : String) : Except UsageStop CommandLine :=
  match slot with
  | .query => do
    let query ← path value
    .ok { line with query := some query }
  | .input => do
    let input ← path value
    .ok { line with input := some input }
  | .var => .ok { line with vars := line.vars ++ [value] }
  | .errorMode =>
    if line.errorMode.isSome then .error .repeated
    else match ErrorMode.ofName? value with
      | some mode => .ok { line with errorMode := some mode }
      | none => .error .invalidValue
  | .config =>
    if line.config.isSome then .error .repeated
    else do
      let config ← path value
      .ok { line with config := some config }

/-- Raises a flag that may stand only once. -/
def once (standing : Bool) (raised : CommandLine) : Except UsageStop CommandLine :=
  if standing then .error .repeated else .ok raised

/-- Raises a flag. -/
def raise (line : CommandLine) : Flag → Except UsageStop CommandLine
  | .targets => once line.targets { line with targets := true }
  | .stats => once line.stats { line with stats := true }
  | .list => once line.list { line with list := true }
  | .verbose => .ok { line with verbose := if line.verbose = 255 then 255 else line.verbose + 1 }
  | .help => .error .help
  | .version => .error .version

namespace Progress

/-- Settles what is pending. -/
def settle (p : Progress) : Except UsageStop Progress :=
  match p.pending with
  | none => .ok p
  | some (_, none) => .error .invalidValue
  | some (slot, some value) => do
    let line ← p.line.fill slot value
    .ok { p with line, pending := none }

/-- Reads a flag. -/
def flag (p : Progress) (f : Flag) : Except UsageStop Progress := do
  let p ← p.settle
  let line ← p.line.raise f
  .ok { p with line }

/-- Reads a positional argument. -/
def positional (p : Progress) (arg : String) : Except UsageStop Progress :=
  let place := fun (slot : Slot) => do
    let p ← p.settle
    .ok { p with pending := some (slot, some arg), positionals := p.positionals + 1 }
  match p.positionals with
  | 0 => place .query
  | 1 => place .input
  | _ => .error .unknownArgument

/-- Reads the letters behind a dash. -/
def letters (p : Progress) (text : List Char) : Except UsageStop Progress :=
  text.foldlM (fun p letter =>
    match shortFlags.lookup letter with
    | some f => p.flag f
    | none => .error .unknownArgument) p

/-- Reads an option with its long name. -/
def long (p : Progress) (name : String) (value : Option String) : Except UsageStop Progress :=
  match longOptions.lookup name with
  | none => .error .unknownArgument
  | some (.flag f) => if value.isSome then .error .attachedValue else p.flag f
  | some (.slot slot) => do
    let p ← p.settle
    match value with
    | none => .ok { p with pending := some (slot, none) }
    | some value => do
      let line ← p.line.fill slot value
      .ok { p with line }

/-- Reads an argument. -/
def argument (p : Progress) (arg : String) : Except UsageStop Progress :=
  match shapeOf arg with
  | .long name value => p.long name value
  | .short text => p.letters text
  | .plain =>
    match p.pending with
    | some (slot, none) => .ok { p with pending := some (slot, some arg) }
    | _ => p.positional arg

/-- Reads arguments; behind two dashes alone all are positional. -/
def arguments (p : Progress) : List String → Except UsageStop Progress
  | [] => .ok p
  | arg :: rest =>
    if arg = "--" then rest.foldlM positional p
    else do
      let p ← p.argument arg
      p.arguments rest

end Progress

/-- What arguments ask for. -/
def parse (args : List String) : Except UsageStop CommandLine := do
  let p ← Progress.arguments {} args
  let p ← p.settle
  .ok p.line

end CommandLine

end RecordQuery
