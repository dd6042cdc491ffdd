import RecordQuery.Document.Decode
import RecordQuery.Json.Typed

/-!
# Documents from JSON text

The readers of nodes, methods and whole documents. The arguments are read as trees first, so what is
wrong inside one makes a literal of it.
-/

namespace RecordQuery

open JsonText

/-- Reads an argument. -/
def ArgSpec.read : Typed ArgSpec := fun budget input => do
  let (data, rest) ← anything budget input
  .ok (ArgSpec.ofData data, rest)

/-- Reads a literal, which null leaves out. -/
def literalRead : Typed (Option Json) := fun budget input => do
  let (data, rest) ← optional anything budget input
  .ok (data.map Data.toJson, rest)

def methodShape : Shape MethodDraft MethodSpec where
  name := MethodSpec.structureName
  fields :=
    [{ Field.of "name" (·.name.isSome) (text "a string") fun name draft => { draft with name := some name } with
        required := true },
      .of "args" (·.args.isSome) (list ArgSpec.read) fun args draft => { draft with args := some args }]
  strict := true
  start := {}
  finish := MethodDraft.finish

def queryShape : Shape QueryDraft QuerySpec where
  name := QuerySpec.structureName
  fields :=
    [.of "function" (·.function.isSome) (optional (text "a string")) fun function draft =>
        { draft with function := some function },
      .of "field" (·.field.isSome) (optional (text "a string")) fun field draft =>
        { draft with field := some field },
      .of "literal" (·.literal.isSome) literalRead fun literal draft => { draft with literal := some literal },
      .of "args" (·.args.isSome) (list ArgSpec.read) fun args draft => { draft with args := some args },
      .of "methods" (·.methods.isSome) (list methodShape.read) fun methods draft =>
        { draft with methods := some methods }]
  strict := true
  start := {}
  finish := fun draft => .ok draft.finish

def documentShape : Shape DocumentDraft Document where
  name := Document.structureName
  fields :=
    [{ Field.of "query" (·.query.isSome) queryShape.read fun query draft => { draft with query := some query } with
        required := true },
      .of "maps" (·.maps.isSome) (entries queryShape.read) fun maps draft => { draft with maps := some maps }]
  strict := true
  start := {}
  finish := DocumentDraft.finish

/-- The document that a JSON text is. -/
def Document.parseJson (text : Bytes) : Except Trouble Document := parseTyped documentShape.read text

end RecordQuery
