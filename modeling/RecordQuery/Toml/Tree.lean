import RecordQuery.Json

/-!
# TOML tables

How the tables of a TOML text grow from its lines. A header opens a table once, a dotted key reaches
into tables that only dotted keys made, and what was written as a value is closed.
-/

namespace RecordQuery.Toml

/-- How a table came to be. -/
inductive TableKind where
  /-- By a header of its own. -/
  | headed
  /-- By the header of a table inside it. -/
  | implied
  /-- By a dotted key. -/
  | dotted
deriving DecidableEq

/-- A member of a table. -/
inductive Node where
  /-- A value, which nothing can be added to. -/
  | leaf (data : Data)
  | table (kind : TableKind) (members : List (String × Node))
  /-- A list of tables, the last of which is open. -/
  | tables (closed : List (List (String × Node))) (last : List (String × Node))

abbrev Members := List (String × Node)

/-- The members with another node under a key that is there. -/
def replace (key : String) (node : Node) (members : Members) : Members :=
  members.map fun (name, old) => if name = key then (name, node) else (name, old)

/-- Changes the table at a path. Missing tables on the way are made; dotted keys do not reach into
tables that have a header, nor into lists of tables. -/
def changeAt (dotted : Bool) (change : TableKind → Members → Option Members) :
    List String → TableKind → Members → Option Members
  | [], kind, members => change kind members
  | key :: path, _, members =>
    match members.lookup key with
    | none => do
      let kind := if dotted then TableKind.dotted else .implied
      let inner ← changeAt dotted change path kind []
      some (members ++ [(key, .table kind inner)])
    | some (.leaf _) => none
    | some (.tables closed last) =>
      if dotted then none
      else do
        let last ← changeAt dotted change path .headed last
        some (replace key (.tables closed last) members)
    | some (.table kind inner) =>
      if dotted && kind == .headed then none
      else do
        let inner ← changeAt dotted change path kind inner
        some (replace key (.table kind inner) members)

/-- Adds a member that is not there yet. -/
def addNew (key : String) (node : Node) (members : Members) : Option Members :=
  if (members.lookup key).isSome then none else some (members ++ [(key, node)])

/-- Gives a value to a key of a table, which may be dotted. -/
def assign (path : List String) (key : String) (data : Data) : TableKind → Members → Option Members :=
  changeAt true (fun kind members =>
    if kind == .dotted && path.isEmpty || kind != .dotted && !path.isEmpty then none
    else addNew key (.leaf data) members) path

/-- Opens a table by its header. -/
def openTable (path : List String) (key : String) : Members → Option Members :=
  changeAt false (fun _ members =>
    match members.lookup key with
    | none => some (members ++ [(key, .table .headed [])])
    | some (.table .implied inner) => some (replace key (.table .headed inner) members)
    | some _ => none) path .headed

/-- Opens the next table of a list by its header. -/
def openNext (path : List String) (key : String) : Members → Option Members :=
  changeAt false (fun _ members =>
    match members.lookup key with
    | none => some (members ++ [(key, .tables [] [])])
    | some (.tables closed last) => some (replace key (.tables (closed ++ [last]) []) members)
    | some _ => none) path .headed

/-- Gives a value to a key in the table that the last header opened. -/
def assignIn (header path : List String) (key : String) (data : Data) : Members → Option Members :=
  changeAt false (assign path key data) header .headed

mutual

/-- What a member says. -/
def Node.toData : Node → Data
  | .leaf data => data
  | .table _ members => .object (membersToData members)
  | .tables closed last => .array (tablesToData closed ++ [.object (membersToData last)])

def membersToData : List (String × Node) → List (String × Data)
  | [] => []
  | (key, node) :: rest => (key, node.toData) :: membersToData rest

def tablesToData : List (List (String × Node)) → List Data
  | [] => []
  | members :: rest => .object (membersToData members) :: tablesToData rest

end

end RecordQuery.Toml
