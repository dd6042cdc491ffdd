import RecordQuery.Query.Context
import RecordQuery.Query.Machine
import RecordQuery.Text.Case
import RecordQuery.Time.Pattern

/-!
# Evaluation

`Query.evalWith` evaluates a query by recursion on its tree, given how the bodies of named maps are
evaluated. `Query.eval` ties the knot: maps may apply maps, also themselves, and a bound on how deep
these applications nest makes it total. An evaluation that ends within a bound ends in the same way
within any larger one.
-/

namespace RecordQuery

/-- The letters of a text in one case. -/
def LetterCase.change : LetterCase → String → String
  | .upper => Case.toUpper
  | .lower => Case.toLower

/-- The 32 hexadecimal digits of two words. -/
def hexDigits (high low : UInt64) : List Char :=
  let digits := Nat.toDigits 16 (high.toNat * UInt64.size + low.toNat)
  List.replicate (32 - digits.length) '0' ++ digits

/-- The UUID of version 4 that two random words give: four bits tell the version, two the variant. -/
def uuidOf (high low : UInt64) : String :=
  let digits := hexDigits (high &&& 0xFFFFFFFFFFFF0FFF ||| 0x4000)
    (low &&& 0x3FFFFFFFFFFFFFFF ||| 0x8000000000000000)
  String.ofList (digits.take 8 ++ '-' :: (digits.drop 8).take 4 ++ '-' :: (digits.drop 12).take 4 ++
    '-' :: (digits.drop 16).take 4 ++ '-' :: digits.drop 20)

namespace World

/-- The text of an environment variable. -/
def envText (world : World) (name : String) : Except Error String :=
  match (world.env name).bind Utf8.decode? with
  | some text => .ok text
  | none => .error (.envNotFound name)

end World

namespace Query

/-- The text of a moment by a pattern. -/
def utcText (pattern : Option String) (moment : Moment) : Except Error String :=
  match pattern with
  | none => .ok (Pattern.renderStandard (.ofMoment moment))
  | some pattern =>
    match Pattern.render? moment pattern with
    | some text => .ok text
    | none => .error (.invalidArguments "timestamp_utc" (.format pattern))

/-- The nanoseconds of a moment. Where 64 bits do not hold them, they are those of its whole seconds, as near as 64 bits
come to these. -/
def unixNanos (moment : Moment) : Int64 :=
  if Int64.minValue.toInt ≤ moment ∧ moment ≤ Int64.maxValue.toInt then Int64.ofInt moment
  else Int64.ofIntClamp (moment / 1000000000 * 1000000000)

/-- A string, or the error that there is another value. -/
def expectString : Value → Except Error String
  | .string s => .ok s
  | v => .error (.mismatch "string" v)

/-- An integer, or the error that there is another value. -/
def expectInt : Value → Except Error Int64
  | .int i => .ok i
  | v => .error (.mismatch "integer" v)

/-- The integer that an instance with a literal seed gives when it was evaluated some times before. -/
def seededInt (seed : Value) (drawn : Nat) : Int64 :=
  (Generator.next ⟨keyOfSeed (seedOf seed), drawn⟩).1

end Query

mutual

/-- Evaluates a query, where `enter` evaluates the body of a named map. -/
def Query.evalWith (world : World) (enter : Query → Context → Eval Value) : Query → Context → Eval Value
  | .literal value, _ => pure value
  | .field path, ctx =>
    match ctx.bound with
    | some value => liftExcept (value.fieldPath path)
    | none => do
      let body ← liftExcept ctx.body
      liftExcept (body.fieldPath path)
  | .json path, ctx => do
    let body ← liftExcept ctx.body
    liftExcept (body.lookupPath path)
  | .content, ctx => do
    let record ← liftExcept ctx.record
    pure (.string record.content)
  | .batchIndex, ctx => pure (.int (Int64.ofNat ctx.index))
  | .batchSize, ctx => pure (.int (Int64.ofNat ctx.batch.size))
  | .count _ cell, _ => do
    let drawn ← Eval.draw cell
    pure (.int (Int64.ofNat (drawn + 1)))
  | .env name, ctx => do
    let name ← name.textWith world enter ctx
    let text ← liftExcept (world.envText name)
    pure (.string text)
  | .metadata, ctx =>
    pure (.object (match ctx.record? with
      | some record => (record.metadata.map Value.string).entries
      | none => []))
  | .metadataAt key, ctx => do
    let key ← key.textWith world enter ctx
    match ctx.record?.bind (·.metadata.find? key) with
    | some text => pure (.string text)
    | none => throw (.metadataNotFound key)
  | .randomInt cell, _ => do
    let drawn ← Eval.draw cell
    pure (.int (Generator.next ⟨world.key cell, drawn⟩).1)
  | .randomIntFrom (.value seed) cell, _ => do
    let drawn ← Eval.draw cell
    pure (.int (Query.seededInt seed drawn))
  | .randomIntFrom (.query seed) _, ctx => do
    let seed := seedOf (← seed.evalWith world enter ctx)
    Eval.note .trace .randomInt ("random_int reseeded with " ++ toString seed.toNat)
    pure (.int (intOfSeed seed))
  | .throwing message, ctx => do
    let message ← message.resolveWith world enter ctx
    throw (.thrown message.rawText)
  | .unixTime, _ => do
    let moment ← Eval.now world
    pure (.int (Int64.ofInt (moment / 1000000000)))
  | .unixNanoTime, _ => do
    let moment ← Eval.now world
    pure (.int (Query.unixNanos moment))
  | .utcTime pattern, _ => do
    let moment ← Eval.now world
    let text ← liftExcept (Query.utcText pattern moment)
    pure (.string text)
  | .uuid, _ => do
    let high ← Eval.randomWord world
    let low ← Eval.randomWord world
    pure (.string (uuidOf high low))
  | .var name, ctx => do
    let name ← name.textWith world enter ctx
    match ctx.vars.find? name with
    | some value => pure value
    | none => throw (.undefinedVariable name)
  | .apply receiver map, ctx => do
    let value ← receiver.evalWith world enter ctx
    match ctx.maps.find? map with
    | some body => enter body (ctx.bind value)
    | none => throw (.mapNotFound map)
  | .catching receiver fallback, ctx => do
    match ← Eval.attempt (receiver.evalWith world enter ctx) with
    | .ok value => pure value
    | .error e =>
      Eval.note .trace .catching ("catch recovered from: " ++ e.message)
      fallback.resolveWith world enter ctx
  | .orElse receiver fallback, ctx => do
    match ← Eval.attempt (receiver.evalWith world enter ctx) with
    | .ok value => if value.isNull then fallback.resolveWith world enter ctx else pure value
    | .error e =>
      Eval.note .trace .orElse ("or recovered from: " ++ e.message)
      fallback.resolveWith world enter ctx
  | .atRecord receiver index, ctx => do
    let index ← index.resolveWith world enter ctx
    let index ← liftExcept (Query.expectInt index)
    let place ← liftExcept (Context.resolveIndex index ctx.batch.size)
    receiver.evalWith world enter (ctx.atIndex place)
  | .get receiver path, ctx => do
    let value ← receiver.evalWith world enter ctx
    liftExcept (value.fieldPath path)
  | .inCase receiver letters, ctx => do
    let value ← receiver.evalWith world enter ctx
    let text ← liftExcept (Query.expectString value)
    pure (.string (letters.change text))

/-- The value of an argument. -/
def Arg.resolveWith (world : World) (enter : Query → Context → Eval Value) :
    Arg → Context → Eval Value
  | .value v, _ => pure v
  | .query q, ctx => q.evalWith world enter ctx

/-- The text of an argument that has to be a string. -/
def Arg.textWith (world : World) (enter : Query → Context → Eval Value) :
    Arg → Context → Eval String
  | .value v, _ => liftExcept (Query.expectString v)
  | .query q, ctx => do
    let value ← q.evalWith world enter ctx
    liftExcept (Query.expectString value)

end

namespace Query

/-- Evaluates a query, where the applications of named maps nest no deeper than the bound. -/
def eval (world : World) : Nat → Query → Context → Eval Value
  | 0 => evalWith world fun _ _ => Eval.unfinished
  | bound + 1 => evalWith world (eval world bound)

end Query

/-- The value of an argument, where the applications of named maps nest no deeper than the bound. -/
def Arg.resolve (world : World) (bound : Nat) (arg : Arg) (ctx : Context) : Eval Value :=
  match arg with
  | .value v => pure v
  | .query q => q.eval world bound ctx

/-- The text of an argument that has to be a string. -/
def Arg.resolveText (world : World) (bound : Nat) (arg : Arg) (ctx : Context) : Eval String := do
  let value ← arg.resolve world bound ctx
  liftExcept (Query.expectString value)

end RecordQuery
