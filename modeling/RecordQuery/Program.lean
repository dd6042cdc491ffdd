import RecordQuery.Run

/-!
# The program

The command that runs a query document over a file or the standard input, as a function of its
arguments and of what it finds around it. It ends with one of three exit codes: 0, or 1 after a
failure, or 2 if the arguments cannot be.
-/

namespace RecordQuery

/-- What the program finds around it. -/
structure Surroundings where
  file : String → FileContent
  standardInput : Bytes
  world : World

/-- What the program leaves. -/
structure Report where
  exitCode : UInt32
  output : String
  /-- What is written beside the output, in order. -/
  messages : List String

namespace Program

def version : String := "0.1.0"

def usageLine : String := "Usage: bloq [OPTIONS] [QUERY] [FILE]"

def help : String := "\n".intercalate
  ["bloq - run query function trees over message records", "", usageLine, "",
    "Arguments:",
    "  [QUERY]  Query file (TOML or JSON)",
    "  [FILE]   Input file of newline-delimited records (stdin if not specified)", "",
    "Options:",
    "      --var <NAME=VALUE>         Define a variable as NAME=VALUE; VALUE is parsed as JSON when possible",
    "      --error-mode <ERROR_MODE>  How failing records are handled [possible values: strict, collect, ignore]",
    "      --targets                  Print the query's target paths instead of executing it",
    "      --stats                    Print execution statistics to stderr",
    "  -v, --verbose...               Increase verbosity (can be used multiple times)",
    "      --config <FILE>            Configuration file to use",
    "      --list-functions           List registered functions and methods, then exit",
    "  -h, --help                     Print help",
    "  -V, --version                  Print version", ""]

/-- What is wrong with the arguments. -/
def usageMessage : UsageStop → String
  | .unknownArgument => "unexpected argument found"
  | .invalidValue => "invalid or missing value for an argument"
  | .repeated => "an argument cannot be used multiple times"
  | .attachedValue => "unexpected value for an option that takes none"
  | .help | .version => ""

/-- What the program leaves if its arguments ask for no run. -/
def reportUsage : UsageStop → Report
  | .help => ⟨0, help, []⟩
  | .version => ⟨0, "bloq " ++ version ++ "\n", []⟩
  | stop => ⟨2, "", ["error: " ++ usageMessage stop, "", usageLine]⟩

/-- The line about statistics. -/
def statsLine (stats : ExecutionStats) : String :=
  "records: " ++ toString stats.records ++ ", failures: " ++ toString stats.failures

def failureLine (failure : Failure) : String := "Error: " ++ failure.message

/-- The settings of a run: those of the file that the command line names, and the command line. -/
def settings (around : Surroundings) (line : CommandLine) : Except Failure Settings := do
  let base ← match line.config with
    | some path => (Settings.load path (around.file path)).mapError Failure.load
    | none => .ok {}
  (base.override line).mapError Failure.definition

/-- The input that the command line names, as far as it can be opened: a directory can, but not be
read. -/
def openInput (around : Surroundings) (line : CommandLine) : Except Failure FileContent :=
  match line.input with
  | none => .ok (.ok around.standardInput)
  | some path =>
    match around.file path with
    | .error .directory => .ok (.error .directory)
    | .error fault => .error (.opening path fault)
    | content => .ok content

/-- Does what the command line asks for. -/
def perform (around : Surroundings) (line : CommandLine) (s : Settings) : Session (Option ExecutionStats) := do
  let r := Registry.standard
  Session.note #[r.announcement]
  if line.list then
    Session.writeLines (Run.listing r)
    pure none
  else match line.query with
    | none => throw .noQuery
    | some path => do
      let d ← liftExcept ((Document.load path (around.file path)).mapError Failure.load)
      if line.targets then
        Run.writeTargets r d
        pure none
      else
        let input ← liftExcept (openInput around line)
        Run.execute around.world r s d input

/-- What the program leaves after a run. -/
def report (level : LogLevel) (outcome : Except Failure (Option ExecutionStats)) (console : Console) : Report :=
  let notes := (console.log.toList.filter (·.shownAt level)).map LogEntry.render
  match outcome with
  | .ok stats => ⟨0, console.output, notes ++ (stats.map statsLine).toList⟩
  | .error failure => ⟨1, console.output, notes ++ [failureLine failure]⟩

/-- What the program leaves, if it ends. -/
def run (around : Surroundings) (args : List String) : Option Report :=
  match CommandLine.parse args with
  | .error stop => some (reportUsage stop)
  | .ok line =>
    match settings around line with
    | .error failure => some (report .warn (.error failure) {})
    | .ok s => ((perform around line s).run.run {}).map fun (outcome, console) =>
      report s.logLevel outcome console

/-- The value of a variable in an environment, which is written as definitions with a zero byte behind
each. -/
def environmentValue? (environment : Bytes) (name : String) : Option Bytes :=
  let definitions := (environment.splitOn 0).map fun definition => definition.span (· != '='.toUInt8)
  (definitions.lookup (Utf8.encode name)).map (·.drop 1)

/-- Whether a run of a command line reads the standard input. -/
def readsStandardInput (line : CommandLine) : Bool :=
  line.query.isSome && line.input.isNone && !line.targets && !line.list

end Program

end RecordQuery
