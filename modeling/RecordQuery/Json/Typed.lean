import RecordQuery.Data.Misfit
import RecordQuery.Json.Reader

/-!
# Reading JSON text as something expected

Readers that know what they look for, so that a text which is well-formed but says something else is
refused at the place where that shows. A trouble is a fault of the text or a misfit, with the number
of bytes unread where it is reported: a misfit of a whole array or object is reported behind its end,
as far as that follows.
-/

namespace RecordQuery.JsonText

/-- What is wrong with a text that should say something expected. -/
inductive Problem where
  | fault (f : Fault)
  | misfit (m : Misfit)

def Problem.message : Problem → String
  | .fault f => f.message
  | .misfit m => m.message

/-- A problem, and how many bytes were unread. -/
structure Trouble where
  problem : Problem
  left : Nat

def Trouble.message (t : Trouble) (input : Bytes) : String := located t.problem.message input t.left

/-- Reads something within a budget of nesting. -/
abbrev Typed (α : Type) := Nat → Bytes → Except Trouble (α × Bytes)

variable {α β δ : Type}

/-- A failure as a trouble. -/
def lift (result : Except Failure α) : Except Trouble α :=
  result.mapError fun failure => ⟨.fault failure.fault, failure.left⟩

def misfit (m : Misfit) (left : Bytes) : Except Trouble α := .error ⟨.misfit m, left.length⟩

/-- Refuses what stands next, which is not of the type expected. A scalar is read first. -/
def refuse (expected : String) (input : Bytes) : Except Trouble α :=
  match input with
  | [] => lift (fail .endInValue 0)
  | byte :: rest =>
    if byte = '['.toUInt8 then misfit (.wrongType (Data.array []).found expected) (byte :: rest)
    else if byte = '\x7b'.toUInt8 then misfit (.wrongType (Data.object []).found expected) (byte :: rest)
    else do
      let (data, rest) ← lift (value 0 (byte :: rest))
      misfit (.wrongType data.found expected) rest

/-! ## Scalars -/

/-- Reads a string. -/
def text (expected : String) : Typed String := fun _ input =>
  match skipBlanks input with
  | [] => lift (fail .endInValue 0)
  | byte :: rest =>
    if byte = '"'.toUInt8 then lift (string rest) else refuse expected (byte :: rest)

/-- Reads a truth value. -/
def flag : Typed Bool := fun _ input =>
  match skipBlanks input with
  | [] => lift (fail .endInValue 0)
  | byte :: rest =>
    if byte = 't'.toUInt8 then do .ok (true, ← lift (word (Utf8.encode "rue") rest))
    else if byte = 'f'.toUInt8 then do .ok (false, ← lift (word (Utf8.encode "alse") rest))
    else refuse "a boolean" (byte :: rest)

/-- Reads a number that is a byte. -/
def byteNumber : Typed UInt8 := fun _ input =>
  match skipBlanks input with
  | [] => lift (fail .endInValue 0)
  | byte :: rest =>
    if byte = '-'.toUInt8 || isDigit byte then do
      let (n, rest) ← lift (if byte = '-'.toUInt8 then number true rest else number false (byte :: rest))
      match Data.byteOfNumber n with
      | .ok b => .ok (b, rest)
      | .error m => misfit m rest
    else refuse "u8" (byte :: rest)

/-- Reads anything. -/
def anything : Typed Data := fun budget input => lift (value budget input)

/-- Reads something that null leaves out. -/
def optional (item : Typed α) : Typed (Option α) := fun budget input =>
  match skipBlanks input with
  | [] => do
    let (a, rest) ← item budget []
    .ok (some a, rest)
  | byte :: rest =>
    if byte = 'n'.toUInt8 then do .ok (none, ← lift (word (Utf8.encode "ull") rest))
    else do
      let (a, rest) ← item budget (byte :: rest)
      .ok (some a, rest)

/-- One of some names as a value. -/
def variant (known : List (String × α)) (name : String) (left : Bytes) : Except Trouble (α × Bytes) :=
  match known.lookup name with
  | some a => .ok (a, left)
  | none => misfit (.unknownVariant name (known.map Prod.fst)) left

/-- Reads a key that has to stand next. -/
def onlyKey (input : Bytes) : Except Trouble (String × Bytes) :=
  match skipBlanks input with
  | [] => lift (fail .endInObject 0)
  | byte :: rest => lift (if byte = '"'.toUInt8 then string rest else fail .keyMustBeString rest.length)

/-- Reads one of some names: alone, or as the only key of an object, with null. -/
def choice (known : List (String × α)) : Typed α := fun budget input =>
  match skipBlanks input with
  | [] => lift (fail .endInValue 0)
  | byte :: rest =>
    if byte = '"'.toUInt8 then do
      let (name, rest) ← lift (string rest)
      variant known name rest
    else if byte = '\x7b'.toUInt8 then
      match budget with
      | 0 => lift (fail .tooDeep rest.length)
      | _ + 1 => do
        let (name, rest) ← onlyKey rest
        let (a, rest) ← variant known name rest
        let rest ← lift (colon rest)
        let rest ← match skipBlanks rest with
          | [] => lift (fail .endInValue 0)
          | byte :: rest =>
            if byte = 'n'.toUInt8 then lift (word (Utf8.encode "ull") rest)
            else refuse "unit" (byte :: rest)
        match skipBlanks rest with
        | [] => lift (fail .endInObject 0)
        | byte :: rest =>
          if byte = '\x7d'.toUInt8 then .ok (a, rest) else lift (fail .expectedValue (byte :: rest).length)
    else lift (fail .expectedValue rest.length)

/-! ## Arrays and objects -/

/-- Reads the items of an array up to its end. -/
def typedItems (item : Bytes → Except Trouble (α × Bytes)) : Bytes → Bool → Bytes → Except Trouble (List α × Bytes)
  | [], _, _ => lift (fail .endInList 0)
  | _ :: bound, first, input => do
    let (more, rest) ← lift (nextItem first input)
    if more then
      let (head, rest) ← item rest
      let (tail, rest) ← typedItems item bound false rest
      .ok (head :: tail, rest)
    else .ok ([], rest)

/-- Reads an array of things. -/
def list (item : Typed α) : Typed (List α) := fun budget input =>
  match skipBlanks input with
  | [] => lift (fail .endInValue 0)
  | byte :: rest =>
    if byte = '['.toUInt8 then
      match budget with
      | 0 => lift (fail .tooDeep rest.length)
      | budget + 1 => typedItems (item budget) rest true rest
    else refuse "a sequence" (byte :: rest)

/-- Reads the members of an object up to its end, each by its key. -/
def typedMembers (member : String → δ → Bytes → Except Trouble (δ × Bytes)) :
    Bytes → Bool → δ → Bytes → Except Trouble (δ × Bytes)
  | [], _, _, _ => lift (fail .endInObject 0)
  | _ :: bound, first, draft, input => do
    let (more, rest) ← lift (nextKey first input)
    if more then
      let (key, rest) ← lift (string rest)
      let (draft, rest) ← member key draft rest
      typedMembers member bound false draft rest
    else .ok (draft, rest)

/-- Reads an object of things under any keys. -/
def entries (item : Typed α) : Typed (List (String × α)) := fun budget input =>
  match skipBlanks input with
  | [] => lift (fail .endInValue 0)
  | byte :: rest =>
    if byte = '\x7b'.toUInt8 then
      match budget with
      | 0 => lift (fail .tooDeep rest.length)
      | budget + 1 => do
        let (reversed, rest) ← typedMembers (fun key draft input => do
          let rest ← lift (colon input)
          let (a, rest) ← item budget rest
          .ok ((key, a) :: draft, rest)) rest true [] rest
        .ok (reversed.reverse, rest)
    else refuse "a map" (byte :: rest)

/-! ## What is passed over -/

/-- Passes over the digits of a number and what belongs to them. -/
def skipExponent (input : Bytes) : Except Failure Bytes :=
  let input := match input with
    | byte :: rest => if byte = '+'.toUInt8 || byte = '-'.toUInt8 then rest else byte :: rest
    | [] => []
  match input with
  | [] => fail .invalidNumber 0
  | byte :: rest => if isDigit byte then .ok (skipDigits 0 rest).2 else fail .invalidNumber rest.length

/-- Passes over what may follow the digits of an integer. -/
def skipFraction (input : Bytes) : Except Failure Bytes :=
  match input with
  | [] => .ok []
  | byte :: rest =>
    if byte = '.'.toUInt8 then
      match skipDigits 0 rest with
      | (0, left) => failAt .invalidNumber left
      | (_, []) => .ok []
      | (_, byte :: rest) => if isExponentLetter byte then skipExponent rest else .ok (byte :: rest)
    else if isExponentLetter byte then skipExponent rest
    else .ok (byte :: rest)

/-- Passes over a number behind its sign. -/
def skipNumber : Bytes → Except Failure Bytes
  | [] => fail .invalidNumber 0
  | byte :: rest =>
    if byte = '0'.toUInt8 then
      if digitNext rest then failAt .invalidNumber rest else skipFraction rest
    else if isDigit byte then skipFraction (skipDigits 0 rest).2
    else fail .invalidNumber rest.length

/-- Passes over a string behind its first quote; what its escapes stand for is not looked at. -/
def skipString : Bytes → Bytes → Except Failure Bytes
  | [], _ | _, [] => fail .endInString 0
  | _ :: bound, byte :: rest =>
    if byte = '"'.toUInt8 then .ok rest
    else if byte = '\\'.toUInt8 then
      match rest with
      | [] => fail .endInString 0
      | letter :: rest =>
        if (shortEscape? letter).isSome then skipString bound rest
        else if letter = 'u'.toUInt8 then do
          let (_, rest) ← hexEscape rest
          skipString bound rest
        else fail .invalidEscape rest.length
    else if byte < 0x20 then fail .controlCharacter (byte :: rest).length
    else skipString bound rest

mutual

/-- Passes over a value, however deep it nests. Every call takes a byte or is followed by one that
does, which bounds their number. -/
def skipValue : Nat → Bytes → Except Failure Bytes
  | 0, _ => fail .endInValue 0
  | bound + 1, input =>
    match skipBlanks input with
    | [] => fail .endInValue 0
    | byte :: rest =>
      if byte = 'n'.toUInt8 then word (Utf8.encode "ull") rest
      else if byte = 't'.toUInt8 then word (Utf8.encode "rue") rest
      else if byte = 'f'.toUInt8 then word (Utf8.encode "alse") rest
      else if byte = '-'.toUInt8 then skipNumber rest
      else if isDigit byte then skipNumber (byte :: rest)
      else if byte = '"'.toUInt8 then skipString rest rest
      else if byte = '['.toUInt8 then skipItems bound true rest
      else if byte = '\x7b'.toUInt8 then skipMembers bound true rest
      else fail .expectedValue rest.length

def skipItems : Nat → Bool → Bytes → Except Failure Bytes
  | 0, _, _ => fail .endInList 0
  | bound + 1, first, input =>
    match skipBlanks input with
    | [] => fail .endInList 0
    | byte :: rest =>
      if byte = ']'.toUInt8 then .ok rest
      else if first then do
        let rest ← skipValue bound (byte :: rest)
        skipItems bound false rest
      else if byte = ','.toUInt8 then do
        let rest ← skipValue bound rest
        skipItems bound false rest
      else fail .expectedCommaOrBracket rest.length

def skipMembers : Nat → Bool → Bytes → Except Failure Bytes
  | 0, _, _ => fail .endInObject 0
  | bound + 1, first, input =>
    match skipBlanks input with
    | [] => fail .endInObject 0
    | byte :: rest =>
      if byte = '\x7d'.toUInt8 then .ok rest
      else if first then skipMember bound (byte :: rest)
      else if byte = ','.toUInt8 then skipMember bound rest
      else fail .expectedCommaOrBrace rest.length

def skipMember : Nat → Bytes → Except Failure Bytes
  | 0, _ => fail .endInObject 0
  | bound + 1, input =>
    match skipBlanks input with
    | [] => fail .endInObject 0
    | byte :: rest =>
      if byte = '"'.toUInt8 then do
        let rest ← skipString rest rest
        let rest ← colon rest
        let rest ← skipValue bound rest
        skipMembers bound false rest
      else fail .keyMustBeString rest.length

end

/-- Passes over any value. -/
def passOver (input : Bytes) : Except Failure Bytes := skipValue (3 * input.length + 3) input

/-! ## Structures -/

/-- A field of a structure that is read into a draft of it. -/
structure Field (δ : Type) where
  name : String
  isSet : δ → Bool
  read : Nat → Bytes → δ → Except Trouble (δ × Bytes)
  /-- It has to be there when the structure is written as a list. -/
  required : Bool := false

/-- A field that takes what a reader gives. -/
def Field.of (name : String) (isSet : δ → Bool) (item : Typed α) (store : α → δ → δ) : Field δ where
  name
  isSet
  read := fun budget input draft => do
    let (a, rest) ← item budget input
    .ok (store a draft, rest)

/-- How a structure is written: as an object of its fields, or as a list of them in order. -/
structure Shape (δ α : Type) where
  /-- How messages name it. -/
  name : String
  fields : List (Field δ)
  /-- Members under other keys are refused, not passed over. -/
  strict : Bool
  start : δ
  finish : δ → Except Misfit α

/-- What is left behind the end of an object, if that is next. -/
def behindObject (input : Bytes) : Bytes :=
  match skipBlanks input with
  | [] => []
  | byte :: rest => if byte = '\x7d'.toUInt8 then rest else byte :: rest

namespace Shape

/-- Reads the member of a structure behind its key. -/
def member (shape : Shape δ α) (budget : Nat) (key : String) (draft : δ) (input : Bytes) :
    Except Trouble (δ × Bytes) :=
  match shape.fields.find? (·.name == key) with
  | some field =>
    if field.isSet draft then misfit (.duplicateField key) (behindObject input)
    else do
      let rest ← lift (colon input)
      field.read budget rest draft
  | none =>
    if shape.strict then misfit (.unknownField key (shape.fields.map (·.name))) (behindObject input)
    else do
      let rest ← lift (colon input)
      let rest ← lift (passOver rest)
      .ok (draft, rest)

/-- Refuses more items behind the last field. -/
def endOfList (input : Bytes) : Except Failure Bytes :=
  match skipBlanks input with
  | [] => fail .endInList 0
  | byte :: rest =>
    if byte = ']'.toUInt8 then .ok rest
    else if byte = ','.toUInt8 then
      match skipBlanks rest with
      | [] => fail .trailingCharacters 0
      | byte :: rest =>
        if byte = ']'.toUInt8 then fail .trailingComma rest.length else fail .trailingCharacters rest.length
    else fail .trailingCharacters rest.length

/-- Reads fields that are items of a list; `done` were read before. -/
def positional (shape : Shape δ α) (budget : Nat) : List (Field δ) → Nat → δ → Bytes → Except Trouble (δ × Bytes)
  | [], _, draft, input => do .ok (draft, ← lift (endOfList input))
  | field :: fields, done, draft, input => do
    let (more, rest) ← lift (nextItem (done == 0) input)
    if more then
      let (draft, rest) ← field.read budget rest draft
      positional shape budget fields (done + 1) draft rest
    else if (field :: fields).any (·.required) then
      misfit (.tooShort done shape.name shape.fields.length) rest
    else .ok (draft, rest)

/-- Reads a structure. -/
def read (shape : Shape δ α) : Typed α := fun budget input =>
  match skipBlanks input with
  | [] => lift (fail .endInValue 0)
  | byte :: rest =>
    if byte = '['.toUInt8 || byte = '\x7b'.toUInt8 then
      match budget with
      | 0 => lift (fail .tooDeep rest.length)
      | budget + 1 => do
        let (draft, rest) ←
          if byte = '['.toUInt8 then shape.positional budget shape.fields 0 shape.start rest
          else typedMembers (shape.member budget) rest true shape.start rest
        match shape.finish draft with
        | .ok a => .ok (a, rest)
        | .error m => misfit m rest
    else refuse shape.name (byte :: rest)

end Shape

/-- Reads a text that holds one thing. -/
def parseTyped (item : Typed α) (input : Bytes) : Except Trouble α := do
  let (a, rest) ← item nestingLimit input
  lift (finish rest)
  .ok a

end RecordQuery.JsonText
