import RecordQuery.Document.Read
import RecordQuery.Settings.Decode
import RecordQuery.Toml.Reader

/-!
# Files

Query documents and settings as files. A file is read as text before its name is looked at; the
extension of the name tells the format.
-/

namespace RecordQuery

/-- Why a file has no content. -/
inductive FileFault where
  | missing
  | forbidden
  /-- The path leads through something that is no directory. -/
  | notDirectory
  | directory
  | nameTooLong
  /-- The path has a zero byte in it. -/
  | zeroByte
  | other (reason : String)
deriving DecidableEq

def FileFault.message : FileFault → String
  | .missing => "No such file or directory (os error 2)"
  | .forbidden => "Permission denied (os error 13)"
  | .notDirectory => "Not a directory (os error 20)"
  | .directory => "Is a directory (os error 21)"
  | .nameTooLong => "File name too long (os error 36)"
  | .zeroByte => "file name contained an unexpected NUL byte"
  | .other reason => reason

/-- Why a file or stream cannot be read as text. -/
inductive ReadFault where
  | file (fault : FileFault)
  | notText
deriving DecidableEq

def ReadFault.message : ReadFault → String
  | .file fault => fault.message
  | .notText => "stream did not contain valid UTF-8"

/-- The content of a file, or why it has none. -/
abbrev FileContent := Except FileFault Bytes

/-- The text of a file. -/
def readText (content : FileContent) : Except ReadFault String :=
  match content with
  | .error fault => .error (.file fault)
  | .ok bytes =>
    match Utf8.decode? bytes with
    | some text => .ok text
    | none => .error .notText

/-- The extension of a path: what follows the last dot of the file's name, if something stands before
that dot. -/
def extensionOf (path : String) : String :=
  let name := path.toList.reverse.takeWhile (· != '/')
  match name.span (· != '.') with
  | (extension, _ :: _ :: _) => String.ofList extension.reverse
  | _ => ""

/-! ## Loading -/

/-- What a file is for. -/
inductive FileRole where
  | query
  | config

def FileRole.name : FileRole → String
  | .query => "query"
  | .config => "config"

/-- Why a file cannot be loaded. -/
inductive LoadFault where
  | unreadable (fault : ReadFault)
  /-- The text is not JSON or says something else; where and how is told. -/
  | badJson (reason : String)
  | badToml
  | unknownFormat (extension : String)

/-- A file that cannot be loaded. -/
structure LoadError where
  role : FileRole
  path : String
  fault : LoadFault

def LoadError.message (e : LoadError) : String :=
  match e.fault with
  | .unreadable fault => "failed to read " ++ e.role.name ++ " file " ++ e.path ++ ": " ++ fault.message
  | .badJson reason => "invalid JSON " ++ e.role.name ++ " " ++ e.path ++ ": " ++ reason
  | .badToml => "invalid TOML " ++ e.role.name ++ " " ++ e.path
  | .unknownFormat extension => "unsupported " ++ e.role.name ++ " file format '" ++ extension ++ "'"

/-- Loads a file by the readers of the two formats. -/
def loadFile {α : Type} (role : FileRole) (ofJson : Bytes → Except JsonText.Trouble α)
    (ofToml : Data → Except Misfit α) (path : String) (content : FileContent) : Except LoadError α :=
  let fail := fun {β : Type} fault => (.error ⟨role, path, fault⟩ : Except LoadError β)
  match readText content with
  | .error fault => fail (.unreadable fault)
  | .ok text =>
    if extensionOf path = "toml" then
      match (Toml.parse? text).map ofToml with
      | some (.ok a) => .ok a
      | _ => fail .badToml
    else if extensionOf path = "json" then
      let bytes := Utf8.encode text
      match ofJson bytes with
      | .ok a => .ok a
      | .error trouble => fail (.badJson (trouble.message bytes))
    else fail (.unknownFormat (extensionOf path))

/-- The document of a file. -/
def Document.load : String → FileContent → Except LoadError Document :=
  loadFile .query Document.parseJson (Document.ofData true)

/-- The settings of a file. -/
def Settings.load : String → FileContent → Except LoadError Settings :=
  loadFile .config Settings.parseJson Settings.ofData

end RecordQuery
