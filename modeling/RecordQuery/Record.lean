import RecordQuery.Value.Json
import RecordQuery.Table

/-!
# Records

A batch is the sequence of records that one run evaluates a query on. A record has a body of any bytes
and metadata; its body is read as JSON or as text whenever a query asks for it.
-/

namespace RecordQuery

/-- One record of a batch. -/
structure Record where
  body : Bytes
  metadata : Table String := .empty

namespace Record

/-- The body read as a JSON document. -/
def json (r : Record) : Except Error Value := Value.parse r.body

/-- The body as text, with a replacement character where it is none. -/
def content (r : Record) : String := Utf8.decodeLossy r.body

end Record

/-- The records of a run in order. -/
abbrev Batch := Array Record

end RecordQuery
