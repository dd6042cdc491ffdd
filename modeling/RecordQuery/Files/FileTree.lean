import RecordQuery.Files

/-!
# File trees

Folders and files as one value, and where paths lead in it. A path is followed from part to part: an
empty part and a dot stay where they are, two dots lead out, and nothing leads on from a file. So a
program can be given surroundings without a file system.
-/

namespace RecordQuery

/-- A file with its content, or a folder with what stands in it under which name. -/
inductive FileTree where
  | file (content : Bytes)
  | folder (members : List (String × FileTree))

/-- A place in a tree: what stands there, and the folders around it, the nearest first. -/
structure Place where
  here : FileTree
  around : List FileTree := []

namespace Place

/-- The most bytes that a name may have. -/
def nameLimit : Nat := 255

/-- The most bytes that a path may have. -/
def pathLimit : Nat := 4095

/-- Where one part of a path leads. -/
def step (place : Place) (part : String) : Except FileFault Place :=
  match place.here with
  | .file _ => .error .notDirectory
  | .folder members =>
    if part = "" ∨ part = "." then .ok place
    else if part = ".." then
      match place.around with
      | [] => .ok place
      | outer :: around => .ok ⟨outer, around⟩
    else if nameLimit < part.utf8ByteSize then .error .nameTooLong
    else match members.lookup part with
      | some inner => .ok ⟨inner, place.here :: place.around⟩
      | none => .error .missing

/-- The outermost folder. -/
def outermost (place : Place) : Place := ⟨place.around.getLast?.getD place.here, []⟩

/-- Where a path leads. -/
def follow (place : Place) (path : String) : Except FileFault Place :=
  if path.toList.contains '\x00' then .error .zeroByte
  else if path = "" then .error .missing
  else if pathLimit < path.utf8ByteSize then .error .nameTooLong
  else
    let parts := (path.toList.splitOn '/').map String.ofList
    parts.foldlM step (if parts.head? = some "" then place.outermost else place)

/-- The content of what a path names. -/
def content (place : Place) (path : String) : FileContent := do
  match (← place.follow path).here with
  | .file content => .ok content
  | .folder _ => .error .directory

end Place

end RecordQuery
