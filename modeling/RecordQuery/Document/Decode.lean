import RecordQuery.Document
import RecordQuery.Data.Misfit

/-!
# Documents from trees

What a document tree says as a query document. A node or a document is an object of its fields or a
list of them in order, and no other field may stand in it. An argument that is an object with one key
`query` is a nested node if that value is one; otherwise it is a literal, like any other value.
-/

namespace RecordQuery

/-- What was read of a node so far. -/
structure QueryDraft where
  function : Option (Option String) := none
  field : Option (Option String) := none
  literal : Option (Option Json) := none
  args : Option (List ArgSpec) := none
  methods : Option (List MethodSpec) := none

/-- The node, with nothing for what was not written. -/
def QueryDraft.finish (d : QueryDraft) : QuerySpec :=
  ⟨d.function.getD none, d.field.getD none, d.literal.getD none, d.args.getD [], d.methods.getD []⟩

/-- What was read of a method so far. -/
structure MethodDraft where
  name : Option String := none
  args : Option (List ArgSpec) := none

def MethodDraft.finish (d : MethodDraft) : Except Misfit MethodSpec :=
  match d.name with
  | some name => .ok ⟨name, d.args.getD []⟩
  | none => .error (.missingField "name")

/-- What was read of a document so far. -/
structure DocumentDraft where
  query : Option QuerySpec := none
  maps : Option (List (String × QuerySpec)) := none

def DocumentDraft.finish (d : DocumentDraft) : Except Misfit Document :=
  match d.query with
  | some query => .ok ⟨query, .ofEntries (d.maps.getD [])⟩
  | none => .error (.missingField "query")

def QuerySpec.fieldNames : List String := ["function", "field", "literal", "args", "methods"]

def MethodSpec.fieldNames : List String := ["name", "args"]

def Document.fieldNames : List String := ["query", "maps"]

def QuerySpec.structureName : String := "struct QuerySpec"

def MethodSpec.structureName : String := "struct MethodSpec"

def Document.structureName : String := "struct QueryDocument"

/-- A field that must not have been read before. -/
def fresh {α : Type} (name : String) (before : Option α) : Except Misfit Unit :=
  if before.isSome then .error (.duplicateField name) else .ok ()

/-- More items than a structure has fields. -/
def tooLong {α : Type} (items : List Data) : Except Misfit α :=
  .error (.wrongLength items.length "fewer elements in array")

/-- A field of a node that holds no list. -/
def queryLeaf (draft : QueryDraft) (key : String) (data : Data) : Except Misfit QueryDraft :=
  if key = "function" then do
    fresh key draft.function
    let function ← Data.optional Data.expectString data
    .ok { draft with function := some function }
  else if key = "field" then do
    fresh key draft.field
    let field ← Data.optional Data.expectString data
    .ok { draft with field := some field }
  else if key = "literal" then do
    fresh key draft.literal
    data.expectWithin .kept
    let literal ← Data.optional (fun data => .ok data.toJson) data
    .ok { draft with literal := some literal }
  else if key = "args" ∨ key = "methods" then .error (.wrongType data.found "a sequence")
  else .error (.unknownField key QuerySpec.fieldNames)

/-- A field of a method that holds no list. -/
def methodLeaf (draft : MethodDraft) (key : String) (data : Data) : Except Misfit MethodDraft :=
  if key = "name" then do
    fresh key draft.name
    let name ← data.expectString
    .ok { draft with name := some name }
  else if key = "args" then .error (.wrongType data.found "a sequence")
  else .error (.unknownField key MethodSpec.fieldNames)

mutual

/-- A node. Whether a list may be longer than the fields is the caller's choice. -/
def QuerySpec.ofData (lenient : Bool) : Data → Except Misfit QuerySpec
  | .object members => do
    let draft ← queryMembers lenient {} members
    .ok draft.finish
  | .array items => do
    let draft ← queryItems lenient {} QuerySpec.fieldNames items
    if items.length ≤ QuerySpec.fieldNames.length || lenient then .ok draft.finish else tooLong items
  | data => .error (.wrongType data.found QuerySpec.structureName)

/-- The fields of a node by their keys. -/
def queryMembers (lenient : Bool) (draft : QueryDraft) : List (String × Data) → Except Misfit QueryDraft
  | [] => .ok draft
  | (key, data) :: rest => do
    let draft ← queryField lenient draft key data
    queryMembers lenient draft rest

/-- The fields of a node in the order of their names. -/
def queryItems (lenient : Bool) (draft : QueryDraft) (names : List String) :
    List Data → Except Misfit QueryDraft
  | [] => .ok draft
  | item :: rest =>
    match names with
    | [] => .ok draft
    | name :: names => do
      let draft ← queryField lenient draft name item
      queryItems lenient draft names rest

/-- A field of a node. -/
def queryField (lenient : Bool) (draft : QueryDraft) (key : String) : Data → Except Misfit QueryDraft
  | .array items =>
    if key = "args" then do
      fresh key draft.args
      (Data.array items).expectWithin .kept
      .ok { draft with args := some (argItems items) }
    else if key = "methods" then do
      fresh key draft.methods
      let methods ← methodItems lenient items
      .ok { draft with methods := some methods }
    else queryLeaf draft key (.array items)
  | data => queryLeaf draft key data

/-- Arguments. -/
def argItems : List Data → List ArgSpec
  | [] => []
  | item :: rest => ArgSpec.ofData item :: argItems rest

/-- An argument: a nested node where the value is an object with one key `query` under which a node
stands, else a literal. -/
def ArgSpec.ofData : Data → ArgSpec
  | .object members =>
    match nestedQueries members with
    | [.ok query] => .nested query
    | _ => .literal (Data.object members).toJson
  | data => .literal data.toJson

/-- What stands under each key `query`. -/
def nestedQueries : List (String × Data) → List (Except Misfit QuerySpec)
  | [] => []
  | (key, data) :: rest =>
    if key = "query" then QuerySpec.ofData false data :: nestedQueries rest else nestedQueries rest

/-- Methods. -/
def methodItems (lenient : Bool) : List Data → Except Misfit (List MethodSpec)
  | [] => .ok []
  | item :: rest => do
    let head ← MethodSpec.ofData lenient item
    let tail ← methodItems lenient rest
    .ok (head :: tail)

/-- A method. -/
def MethodSpec.ofData (lenient : Bool) : Data → Except Misfit MethodSpec
  | .object members => do
    let draft ← methodMembers {} members
    draft.finish
  | .array items => do
    let draft ← methodPositions {} MethodSpec.fieldNames items
    if items.isEmpty then .error (.tooShort 0 MethodSpec.structureName MethodSpec.fieldNames.length)
    else if items.length ≤ MethodSpec.fieldNames.length || lenient then draft.finish
    else tooLong items
  | data => .error (.wrongType data.found MethodSpec.structureName)

/-- The fields of a method by their keys. -/
def methodMembers (draft : MethodDraft) : List (String × Data) → Except Misfit MethodDraft
  | [] => .ok draft
  | (key, data) :: rest => do
    let draft ← methodField draft key data
    methodMembers draft rest

/-- The fields of a method in the order of their names. -/
def methodPositions (draft : MethodDraft) (names : List String) : List Data → Except Misfit MethodDraft
  | [] => .ok draft
  | item :: rest =>
    match names with
    | [] => .ok draft
    | name :: names => do
      let draft ← methodField draft name item
      methodPositions draft names rest

/-- A field of a method. -/
def methodField (draft : MethodDraft) (key : String) : Data → Except Misfit MethodDraft
  | .array items =>
    if key = "args" then do
      fresh key draft.args
      (Data.array items).expectWithin .kept
      .ok { draft with args := some (argItems items) }
    else methodLeaf draft key (.array items)
  | data => methodLeaf draft key data

end

/-- Named nodes. -/
def specEntries (lenient : Bool) : List (String × Data) → Except Misfit (List (String × QuerySpec))
  | [] => .ok []
  | (name, data) :: rest => do
    let head ← QuerySpec.ofData lenient data
    let tail ← specEntries lenient rest
    .ok ((name, head) :: tail)

/-- A field of a document. -/
def documentField (lenient : Bool) (draft : DocumentDraft) (key : String) (data : Data) :
    Except Misfit DocumentDraft :=
  if key = "query" then do
    fresh key draft.query
    let query ← QuerySpec.ofData lenient data
    .ok { draft with query := some query }
  else if key = "maps" then do
    fresh key draft.maps
    match data with
    | .object members => do
      let maps ← specEntries lenient members
      .ok { draft with maps := some maps }
    | data => .error (.wrongType data.found "a map")
  else .error (.unknownField key Document.fieldNames)

/-- A document. -/
def Document.ofData (lenient : Bool) : Data → Except Misfit Document
  | .object members => do
    let draft ← members.foldlM (fun draft (key, data) => documentField lenient draft key data) {}
    draft.finish
  | .array items => do
    let draft ← (Document.fieldNames.zip items).foldlM
      (fun draft (key, data) => documentField lenient draft key data) {}
    if items.isEmpty then .error (.tooShort 0 Document.structureName Document.fieldNames.length)
    else if items.length ≤ Document.fieldNames.length || lenient then draft.finish
    else tooLong items
  | data => .error (.wrongType data.found Document.structureName)

/-- The document that a JSON value is. -/
def Document.ofJson (json : Json) : Except Misfit Document := Document.ofData false json.toData

end RecordQuery
