import RecordQuery.Binary64.Arithmetic
import RecordQuery.Json
import RecordQuery.Text.Utf8

/-!
# Reading JSON text

A recursive descent over the bytes of a text. Each function takes the bytes that are left and gives
what it read with the bytes left after it. A failure says what was found wrong and how many bytes were
unread then; `position` turns that into a line and a column. Nesting costs one unit of a budget per
array or object.

A number with a point, an exponent or more digits than 64 bits hold is a float. Its leading digits, as far as 64 bits
hold them, are scaled by a power of ten in floats, so it need not be the float nearest to what is written.
-/

namespace RecordQuery.JsonText

/-- What can be wrong with a text. -/
inductive Fault where
  | endInList
  | endInObject
  | endInString
  | endInValue
  | expectedColon
  | expectedCommaOrBracket
  | expectedCommaOrBrace
  | expectedWord
  | expectedValue
  | invalidEscape
  | invalidNumber
  | numberOutOfRange
  | invalidCodePoint
  | controlCharacter
  | keyMustBeString
  | loneSurrogate
  | trailingComma
  | trailingCharacters
  | endOfHexEscape
  | tooDeep
deriving DecidableEq

def Fault.message : Fault → String
  | .endInList => "EOF while parsing a list"
  | .endInObject => "EOF while parsing an object"
  | .endInString => "EOF while parsing a string"
  | .endInValue => "EOF while parsing a value"
  | .expectedColon => "expected `:`"
  | .expectedCommaOrBracket => "expected `,` or `]`"
  | .expectedCommaOrBrace => "expected `,` or `\x7d`"
  | .expectedWord => "expected ident"
  | .expectedValue => "expected value"
  | .invalidEscape => "invalid escape"
  | .invalidNumber => "invalid number"
  | .numberOutOfRange => "number out of range"
  | .invalidCodePoint => "invalid unicode code point"
  | .controlCharacter => "control character (\\u0000-\\u001F) found while parsing a string"
  | .keyMustBeString => "key must be a string"
  | .loneSurrogate => "lone leading surrogate in hex escape"
  | .trailingComma => "trailing comma"
  | .trailingCharacters => "trailing characters"
  | .endOfHexEscape => "unexpected end of hex escape"
  | .tooDeep => "recursion limit exceeded"

/-- A fault, and how many bytes were unread when it was found. -/
structure Failure where
  fault : Fault
  left : Nat
deriving DecidableEq

def fail {α : Type} (fault : Fault) (left : Nat) : Except Failure α := .error ⟨fault, left⟩

/-- A fault at the next byte, which counts as read if there is one. -/
def failAt {α : Type} (fault : Fault) (input : Bytes) : Except Failure α := fail fault (input.length - 1)

/-! ## Blanks, words and digits -/

def isBlankByte (byte : UInt8) : Bool :=
  byte == ' '.toUInt8 || byte == '\n'.toUInt8 || byte == '\t'.toUInt8 || byte == '\r'.toUInt8

/-- Passes over blanks. -/
def skipBlanks : Bytes → Bytes
  | [] => []
  | byte :: rest => if isBlankByte byte then skipBlanks rest else byte :: rest

/-- Reads the bytes of a word. -/
def word : Bytes → Bytes → Except Failure Bytes
  | [], input => .ok input
  | _ :: _, [] => fail .endInValue 0
  | expected :: more, byte :: rest =>
    if byte = expected then word more rest else fail .expectedWord rest.length

def isDigit (byte : UInt8) : Bool := '0'.toUInt8 ≤ byte && byte ≤ '9'.toUInt8

def digitValue (byte : UInt8) : Nat := byte.toNat - '0'.toNat

/-- Appends digits to a number and counts them, as long as 64 bits hold it. -/
def digits (value count : Nat) : Bytes → Nat × Nat × Bytes
  | [] => (value, count, [])
  | byte :: rest =>
    if isDigit byte ∧ 10 * value + digitValue byte < UInt64.size then
      digits (10 * value + digitValue byte) (count + 1) rest
    else (value, count, byte :: rest)

/-- Passes over digits, and counts them. -/
def skipDigits (count : Nat) : Bytes → Nat × Bytes
  | [] => (count, [])
  | byte :: rest => if isDigit byte then skipDigits (count + 1) rest else (count, byte :: rest)

/-! ## Numbers -/

/-- The largest exponent that is read to its end. -/
def maxExponent : Nat := 2147483647

/-- Reads on in an exponent: its value, or nothing once it is too large, with what is left. -/
def exponentDigits (value : Nat) : Bytes → Option Nat × Bytes
  | [] => (some value, [])
  | byte :: rest =>
    if isDigit byte then
      let value := 10 * value + digitValue byte
      if maxExponent < value then (none, rest) else exponentDigits value rest
    else (some value, byte :: rest)

/-- The float `± significand · 10 ^ scale`, as far as floats come to it, unless it is too large. -/
def float (negative : Bool) (significand : Nat) (scale : Int) (rest : Bytes) : Except Failure (JsonNumber × Bytes) :=
  let magnitude := (Binary64.ofInt significand).timesPowerOfTen scale
  match JsonNumber.ofFloat? (.ofMagnitude negative magnitude.magnitude) with
  | some n => .ok (n, rest)
  | none => fail .numberOutOfRange rest.length

/-- Reads the exponent behind its letter. -/
def exponent (negative : Bool) (significand : Nat) (scale : Int) (input : Bytes) : Except Failure (JsonNumber × Bytes) :=
  let (down, input) := match input with
    | byte :: rest =>
      if byte = '+'.toUInt8 then (false, rest)
      else if byte = '-'.toUInt8 then (true, rest)
      else (false, byte :: rest)
    | [] => (false, [])
  match input with
  | [] => fail .endInValue 0
  | byte :: rest =>
    if isDigit byte then
      match exponentDigits (digitValue byte) rest with
      | (some e, rest) =>
        float negative significand (if down then scale - Int.ofNat e else scale + Int.ofNat e) rest
      | (none, rest) =>
        if significand ≠ 0 && !down then fail .numberOutOfRange rest.length
        else float negative 0 0 (skipDigits 0 rest).2
    else fail .invalidNumber rest.length

def isExponentLetter (byte : UInt8) : Bool := byte == 'e'.toUInt8 || byte == 'E'.toUInt8

/-- Reads what may follow behind a point and its digits, at which a number may end too. -/
def afterPlaces (negative : Bool) (significand : Nat) (scale : Int) : Bytes → Except Failure (JsonNumber × Bytes)
  | [] => float negative significand scale []
  | byte :: rest =>
    if isExponentLetter byte then exponent negative significand scale rest
    else float negative significand scale (byte :: rest)

/-- Reads the digits behind a point. Those that the significand does not hold are passed over. -/
def places (negative : Bool) (significand dropped : Nat) (input : Bytes) : Except Failure (JsonNumber × Bytes) :=
  let (significand, kept, input) := digits significand 0 input
  let (more, input) := skipDigits 0 input
  if kept + more = 0 then
    match input with
    | [] => fail .endInValue 0
    | left => failAt .invalidNumber left
  else afterPlaces negative significand (Int.ofNat dropped - Int.ofNat kept) input

/-- Reads what may follow the digits of an integer, the last of which are dropped where the significand does not hold
them. -/
def afterInteger (negative : Bool) (significand dropped : Nat) (input : Bytes) : Except Failure (JsonNumber × Bytes) :=
  let whole : Except Failure (JsonNumber × Bytes) :=
    if dropped ≠ 0 then float negative significand dropped input
    else if negative && significand == 0 then float true 0 0 input
    else match JsonNumber.ofInt? (if negative then -Int.ofNat significand else Int.ofNat significand) with
      | some n => .ok (n, input)
      | none => fail .numberOutOfRange input.length
  match input with
  | [] => whole
  | byte :: rest =>
    if byte = '.'.toUInt8 then places negative significand dropped rest
    else if isExponentLetter byte then exponent negative significand dropped rest
    else whole

/-- Whether the next byte is a digit. -/
def digitNext : Bytes → Bool
  | [] => false
  | byte :: _ => isDigit byte

/-- Reads a number behind its sign. -/
def number (negative : Bool) : Bytes → Except Failure (JsonNumber × Bytes)
  | [] => fail .endInValue 0
  | byte :: rest =>
    if byte = '0'.toUInt8 then
      if digitNext rest then failAt .invalidNumber rest else afterInteger negative 0 0 rest
    else if isDigit byte then
      let (significand, _, rest) := digits (digitValue byte) 0 rest
      let (dropped, rest) := skipDigits 0 rest
      afterInteger negative significand dropped rest
    else fail .invalidNumber rest.length

/-! ## Strings -/

def hexValue? (byte : UInt8) : Option Nat :=
  let n := byte.toNat
  if '0'.toNat ≤ n ∧ n ≤ '9'.toNat then some (n - '0'.toNat)
  else if 'a'.toNat ≤ n ∧ n ≤ 'f'.toNat then some (n - 'a'.toNat + 10)
  else if 'A'.toNat ≤ n ∧ n ≤ 'F'.toNat then some (n - 'A'.toNat + 10)
  else none

/-- Reads the four digits of a hexadecimal escape. -/
def hexEscape : Bytes → Except Failure (Nat × Bytes)
  | a :: b :: c :: d :: rest =>
    match hexValue? a, hexValue? b, hexValue? c, hexValue? d with
    | some a, some b, some c, some d => .ok (((a * 16 + b) * 16 + c) * 16 + d, rest)
    | _, _, _, _ => fail .invalidEscape rest.length
  | _ => fail .endInString 0

/-- Reads the escape of a code point: of a pair of surrogates both. -/
def codePoint (input : Bytes) : Except Failure (Nat × Bytes) := do
  let (first, rest) ← hexEscape input
  if 0xDC00 ≤ first ∧ first ≤ 0xDFFF then fail .loneSurrogate rest.length
  else if first < 0xD800 ∨ 0xDBFF < first then .ok (first, rest)
  else
    match rest with
    | [] => fail .endInString 0
    | byte :: rest =>
      if byte ≠ '\\'.toUInt8 then fail .endOfHexEscape rest.length
      else match rest with
        | [] => fail .endInString 0
        | byte :: rest =>
          if byte ≠ 'u'.toUInt8 then fail .endOfHexEscape rest.length
          else do
            let (second, rest) ← hexEscape rest
            if second < 0xDC00 ∨ 0xDFFF < second then fail .loneSurrogate rest.length
            else .ok ((first - 0xD800) * 1024 + (second - 0xDC00) + 0x10000, rest)

/-- The byte that the letter of a short escape stands for. -/
def shortEscape? (letter : UInt8) : Option UInt8 :=
  if letter = '"'.toUInt8 ∨ letter = '\\'.toUInt8 ∨ letter = '/'.toUInt8 then some letter
  else if letter = 'b'.toUInt8 then some 0x08
  else if letter = 'f'.toUInt8 then some 0x0C
  else if letter = 'n'.toUInt8 then some 0x0A
  else if letter = 'r'.toUInt8 then some 0x0D
  else if letter = 't'.toUInt8 then some 0x09
  else none

/-- Reads an escape behind its backslash: the bytes it stands for. -/
def escape : Bytes → Except Failure (Bytes × Bytes)
  | [] => fail .endInString 0
  | letter :: rest =>
    match shortEscape? letter with
    | some byte => .ok ([byte], rest)
    | none =>
      if letter = 'u'.toUInt8 then do
        let (point, rest) ← codePoint rest
        .ok (Utf8.encodeChar (Char.ofNat point), rest)
      else fail .invalidEscape rest.length

theorem length_hexEscape {input rest : Bytes} {n : Nat} (h : hexEscape input = .ok (n, rest)) :
    rest.length < input.length := by
  unfold hexEscape at h
  split at h
  · split at h
    · cases h; simp only [List.length_cons]; omega
    · cases h
  · cases h

theorem length_codePoint {input rest : Bytes} {n : Nat} (h : codePoint input = .ok (n, rest)) :
    rest.length < input.length := by
  unfold codePoint at h
  cases first : hexEscape input with
  | error e => rw [first] at h; cases h
  | ok read =>
    obtain ⟨point, after⟩ := read
    have shorter := length_hexEscape first
    simp only [first, bind, Except.bind] at h
    split at h
    · cases h
    · split at h
      · cases h; exact shorter
      · split at h
        · cases h
        · split at h
          · cases h
          · split at h
            · cases h
            · split at h
              · cases h
              · rename_i more _
                cases second : hexEscape more with
                | error e => rw [second] at h; cases h
                | ok read =>
                  obtain ⟨low, left⟩ := read
                  have shorter' := length_hexEscape second
                  simp only [second] at h
                  split at h
                  · cases h
                  · cases h
                    simp only [List.length_cons] at shorter
                    omega

theorem length_escape {input rest bytes : Bytes} (h : escape input = .ok (bytes, rest)) :
    rest.length < input.length := by
  unfold escape at h
  split at h
  · cases h
  · split at h
    · cases h; simp
    · split at h
      · rename_i more _ _ _
        cases point : codePoint more with
        | error e => rw [point] at h; cases h
        | ok read =>
          rw [point] at h
          cases h
          exact Nat.lt_succ_of_lt (length_codePoint point)
      · cases h

/-- Reads a string behind its first quote: the bytes that it stands for, not yet checked. -/
def stringBytes (input : Bytes) : Except Failure (Bytes × Bytes) :=
  match input with
  | [] => fail .endInString 0
  | byte :: rest =>
    if byte = '"'.toUInt8 then .ok ([], rest)
    else if byte = '\\'.toUInt8 then
      match h : escape rest with
      | .error e => .error e
      | .ok (bytes, rest) =>
        have := length_escape h
        match stringBytes rest with
        | .error e => .error e
        | .ok (more, rest) => .ok (bytes ++ more, rest)
    else if byte < 0x20 then fail .controlCharacter rest.length
    else match stringBytes rest with
      | .error e => .error e
      | .ok (more, rest) => .ok (byte :: more, rest)
termination_by input.length
decreasing_by
  · simp only [List.length_cons]; omega
  · simp

/-- Reads a string behind its first quote. Once its end is found, bytes that are no text are reported as
far before it as they and those behind them reach in what the string stands for. -/
def string (input : Bytes) : Except Failure (String × Bytes) := do
  let (bytes, rest) ← stringBytes input
  match Utf8.decode? bytes with
  | some text => .ok (text, rest)
  | none => fail .invalidCodePoint (rest.length + (Utf8.fromFault bytes).length)

/-! ## Arrays, objects and values -/

/-- What stands before the next item of an array: the item follows, or the array ends. -/
def nextItem (first : Bool) (input : Bytes) : Except Failure (Bool × Bytes) :=
  match skipBlanks input with
  | [] => fail .endInList 0
  | byte :: rest =>
    if byte = ']'.toUInt8 then .ok (false, rest)
    else if first then .ok (true, byte :: rest)
    else if byte = ','.toUInt8 then
      match skipBlanks rest with
      | [] => fail .endInValue 0
      | byte :: rest =>
        if byte = ']'.toUInt8 then fail .trailingComma rest.length else .ok (true, byte :: rest)
    else fail .expectedCommaOrBracket rest.length

/-- What stands before the next key of an object: the key follows its quote, or the object ends. -/
def nextKey (first : Bool) (input : Bytes) : Except Failure (Bool × Bytes) :=
  match skipBlanks input with
  | [] => fail .endInObject 0
  | byte :: rest =>
    if byte = '\x7d'.toUInt8 then .ok (false, rest)
    else if first then
      if byte = '"'.toUInt8 then .ok (true, rest) else fail .keyMustBeString rest.length
    else if byte = ','.toUInt8 then
      match skipBlanks rest with
      | [] => fail .endInValue 0
      | byte :: rest =>
        if byte = '"'.toUInt8 then .ok (true, rest)
        else if byte = '\x7d'.toUInt8 then fail .trailingComma rest.length
        else fail .keyMustBeString rest.length
    else fail .expectedCommaOrBrace rest.length

/-- Reads the colon behind a key. -/
def colon (input : Bytes) : Except Failure Bytes :=
  match skipBlanks input with
  | [] => fail .endInObject 0
  | byte :: rest => if byte = ':'.toUInt8 then .ok rest else fail .expectedColon rest.length

/-- Reads the items of an array up to its end. Every item takes a byte at least, so their number is
bounded by the bytes there are at first. -/
def items {α : Type} (item : Bytes → Except Failure (α × Bytes)) : Bytes → Bool → Bytes → Except Failure (List α × Bytes)
  | [], _, _ => fail .endInList 0
  | _ :: bound, first, input => do
    let (more, rest) ← nextItem first input
    if more then
      let (head, rest) ← item rest
      let (tail, rest) ← items item bound false rest
      .ok (head :: tail, rest)
    else .ok ([], rest)

/-- Reads the members of an object up to its end, bounded like the items of an array. -/
def members {α : Type} (member : Bytes → Except Failure (α × Bytes)) : Bytes → Bool → Bytes → Except Failure (List (String × α) × Bytes)
  | [], _, _ => fail .endInObject 0
  | _ :: bound, first, input => do
    let (more, rest) ← nextKey first input
    if more then
      let (key, rest) ← string rest
      let rest ← colon rest
      let (head, rest) ← member rest
      let (tail, rest) ← members member bound false rest
      .ok ((key, head) :: tail, rest)
    else .ok ([], rest)

/-- Reads a value whose arrays and objects nest no deeper than the budget. -/
def value (budget : Nat) (input : Bytes) : Except Failure (Data × Bytes) :=
  match skipBlanks input with
  | [] => fail .endInValue 0
  | byte :: rest =>
    if byte = 'n'.toUInt8 then do
      .ok (.null, ← word (Utf8.encode "ull") rest)
    else if byte = 't'.toUInt8 then do
      .ok (.bool true, ← word (Utf8.encode "rue") rest)
    else if byte = 'f'.toUInt8 then do
      .ok (.bool false, ← word (Utf8.encode "alse") rest)
    else if byte = '-'.toUInt8 then do
      let (n, rest) ← number true rest
      .ok (.number n, rest)
    else if isDigit byte then do
      let (n, rest) ← number false (byte :: rest)
      .ok (.number n, rest)
    else if byte = '"'.toUInt8 then do
      let (s, rest) ← string rest
      .ok (.string s, rest)
    else if byte = '['.toUInt8 then
      match budget with
      | 0 => fail .tooDeep rest.length
      | budget + 1 => do
        let (all, rest) ← items (value budget) rest true rest
        .ok (.array all, rest)
    else if byte = '\x7b'.toUInt8 then
      match budget with
      | 0 => fail .tooDeep rest.length
      | budget + 1 => do
        let (all, rest) ← members (value budget) rest true rest
        .ok (.object all, rest)
    else fail .expectedValue rest.length

/-! ## Whole texts -/

/-- How deep arrays and objects may nest. -/
def nestingLimit : Nat := 127

/-- Refuses anything but blanks. -/
def finish (input : Bytes) : Except Failure Unit :=
  match skipBlanks input with
  | [] => .ok ()
  | _ :: rest => fail .trailingCharacters rest.length

/-- Reads a text that holds one value. -/
def parseWithin (budget : Nat) (input : Bytes) : Except Failure Data := do
  let (data, rest) ← value budget input
  finish rest
  .ok data

def parse (input : Bytes) : Except Failure Data := parseWithin nestingLimit input

/-- The line, counted from one, and the bytes read of it, when some bytes of a text are unread. -/
def position (input : Bytes) (left : Nat) : Nat × Nat :=
  let read := input.take (input.length - left)
  (1 + read.count '\n'.toUInt8, (read.reverse.takeWhile (· ≠ '\n'.toUInt8)).length)

/-- A message with the position in the text that it is about. -/
def located (message : String) (input : Bytes) (left : Nat) : String :=
  let (line, column) := position input left
  message ++ " at line " ++ toString line ++ " column " ++ toString column

def Failure.message (failure : Failure) (input : Bytes) : String :=
  located failure.fault.message input failure.left

end RecordQuery.JsonText
