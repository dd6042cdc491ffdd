import RecordQuery.Query
import RecordQuery.Record

/-!
# Contexts

What a query is evaluated against: a batch, the index of the current record, variables, named maps,
and a bound value if there is one. No evaluation changes a context; parts of a query that need another
one derive it.
-/

namespace RecordQuery

/-- The context of an evaluation. -/
structure Context where
  batch : Batch := #[]
  index : Nat := 0
  vars : Table Value := .empty
  maps : Table Query := .empty
  bound : Option Value := none

namespace Context

/-- The context at another record of the batch. -/
def atIndex (ctx : Context) (index : Nat) : Context := { ctx with index }

/-- The context with another bound value. -/
def bind (ctx : Context) (value : Value) : Context := { ctx with bound := some value }

/-- The current record, if the index is that of one. -/
def record? (ctx : Context) : Option Record := ctx.batch[ctx.index]?

/-- The current record, or the error that there is none. -/
def record (ctx : Context) : Except Error Record :=
  match ctx.record? with
  | some r => .ok r
  | none => .error (.indexOutOfBounds (Int64.ofNat ctx.index).toInt ctx.batch.size)

/-- The body of the current record as JSON. -/
def body (ctx : Context) : Except Error Value := do (← ctx.record).json

/-- The position in a batch of some length that an index means; a negative one counts from the end. -/
def resolveIndex (index : Int64) (length : Nat) : Except Error Nat :=
  let place := if index < 0 then Int64.ofNat length + index else index
  if place < 0 ∨ Int64.ofNat length ≤ place then .error (.indexOutOfBounds index.toInt length)
  else .ok place.toInt.toNat

end Context

end RecordQuery
