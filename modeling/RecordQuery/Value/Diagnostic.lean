import RecordQuery.Query.Context
import RecordQuery.Query.Targets
import RecordQuery.Registry
import RecordQuery.Text.Quoted

/-!
# Diagnostic text

The text of values, contexts and registries that shows how they are made up, for logs and for people
who look into a program.
-/

namespace RecordQuery

/-- A structure with its named fields. -/
def showFields (name : String) (fields : List (String × String)) : String :=
  name ++ " \x7b " ++ ", ".intercalate (fields.map fun (field, shown) => field ++ ": " ++ shown) ++ " \x7d"

/-- A case with what it holds. -/
def showCase (name held : String) : String := name ++ "(" ++ held ++ ")"

namespace Value

mutual

/-- A value with its kind at every depth. -/
def diagnostic : Value → String
  | .null => "Null"
  | .bool b => showCase "Bool" (if b then "true" else "false")
  | .int i => showCase "Int" (toString i.toInt)
  | .float x => showCase "Float" (Binary64.diagnosticLayout.render x)
  | .string s => showCase "String" (Quoted.quote s)
  | .array items => showCase "Array" ("[" ++ commaSeparated (diagnosticItems items) ++ "]")
  | .object members =>
    showCase "Object" ("\x7b" ++ commaSeparated (diagnosticMembers members) ++ "\x7d")

def diagnosticItems : List Value → List String
  | [] => []
  | item :: rest => item.diagnostic :: diagnosticItems rest

def diagnosticMembers : List (String × Value) → List String
  | [] => []
  | (key, member) :: rest =>
    (Quoted.quote key ++ ": " ++ member.diagnostic) :: diagnosticMembers rest

end

end Value

/-- A query by its description. -/
def Query.diagnostic (q : Query) : String := showCase "Function" q.describe

def Arg.diagnostic : Arg → String
  | .value v => showCase "Value" v.diagnostic
  | .query q => showCase "Function" q.diagnostic

/-- A context by its sizes and its bound value. -/
def Context.diagnostic (ctx : Context) : String :=
  showFields "FunctionContext"
    [("batch_len", toString ctx.batch.size), ("index", toString ctx.index),
      ("vars", toString ctx.vars.size), ("maps", toString ctx.maps.size),
      ("value", match ctx.bound with
        | some v => showCase "Some" v.diagnostic
        | none => "None")]

/-- A scope by its size and the maps whose bodies are being walked. -/
def Scope.diagnostic (scope : Scope) : String :=
  showFields "TargetsContext"
    [("maps", toString scope.maps.size),
      ("expanding", "\x7b" ++ Value.commaSeparated (scope.expanding.map Quoted.quote) ++ "\x7d")]

def Registry.diagnostic (r : Registry) : String :=
  showFields "FunctionRegistry"
    [("functions", toString r.functions.size), ("methods", toString r.methods.size)]

end RecordQuery
