import RecordQuery.Program
import Std.Time.DateTime.Timestamp

/-!
# The command

Reads what the arguments name, runs the program on it, and writes what it leaves.
-/

namespace RecordQuery.Command

/-- The number of an error of the system, which is given with either sign. -/
def errorNumber (code : UInt32) : UInt32 := min code (0 - code)

/-- Why a file could not be read. -/
def faultOf (e : IO.Error) : FileFault :=
  match e with
  | .noFileOrDirectory .. => .missing
  | .permissionDenied .. => .forbidden
  | .inappropriateType _ code _ => if errorNumber code = 20 then .notDirectory else .directory
  | .invalidArgument _ code _ => if errorNumber code = 36 then .nameTooLong else .other (toString e)
  | _ => .other (toString e)

def readFile (path : String) : IO FileContent := do
  try
    let bytes ← IO.FS.readBinFile path
    pure (.ok bytes.toList)
  catch e => pure (.error (faultOf e))

/-- Reads a stream to its end. -/
partial def readAll (stream : IO.FS.Stream) (before : ByteArray) : IO ByteArray := do
  let chunk ← stream.read 65536
  if chunk.isEmpty then pure before else readAll stream (before ++ chunk)

/-- A key from the entropy of the system. -/
def randomKey : IO ChaCha.Key := do
  let bytes ← IO.getRandomBytes 32
  let word := fun (i : Nat) => ((bytes.toList.drop (4 * i)).take 4).foldl
    (fun word byte => word * 256 + byte.toUInt32) 0
  pure ⟨⟨word 0, word 1, word 2, word 3⟩, ⟨word 4, word 5, word 6, word 7⟩⟩

/-- The world at the start of a run: its clock goes on from the present with every reading. -/
def present : IO World := do
  let start ← Std.Time.Timestamp.now
  let environment ← readFile "/proc/self/environ"
  let words ← randomKey
  let keys ← randomKey
  pure
    { env := Program.environmentValue? (environment.toOption.getD [])
      clock := fun readings => start.toNanosecondsSinceUnixEpoch.toInt + Int.ofNat readings
      entropy := ChaCha.stream words
      key := ChaCha.derivedKey keys }

/-- The files that a command line names. -/
def namedFiles (line : CommandLine) : List String := [line.config, line.query, line.input].filterMap id

/-- What the program finds around it; only what it will need is read. -/
def surroundings (args : List String) : IO Surroundings := do
  let world ← present
  match CommandLine.parse args with
  | .error _ => pure ⟨fun _ => .error .missing, [], world⟩
  | .ok line => do
    let files ← (namedFiles line).mapM fun path => do pure (path, ← readFile path)
    let input ← if Program.readsStandardInput line then readAll (← IO.getStdin) .empty else pure .empty
    pure ⟨fun path => (files.lookup path).getD (.error .missing), input.toList, world⟩

end RecordQuery.Command

open RecordQuery in
def main (args : List String) : IO UInt32 := do
  match Program.run (← Command.surroundings args) args with
  | none =>
    IO.eprintln "Error: applications of maps nest too deeply"
    pure 1
  | some report => do
    let output ← IO.getStdout
    output.putStr report.output
    output.flush
    report.messages.forM IO.eprintln
    pure report.exitCode
