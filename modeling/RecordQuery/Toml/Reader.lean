import RecordQuery.Toml.Scalar
import RecordQuery.Toml.Tree

/-!
# Reading TOML text

A recursive descent over the characters of a text, which gives the tree that it says or nothing if it
is not TOML. Each function takes the characters that are left and gives what it read with the
characters left after it. What takes a character with every round is bounded by the characters there
are at first.
-/

namespace RecordQuery.Toml

abbrev Chars := List Char

/-- The quote of strings without escapes. -/
def apostrophe : Char := '\u0027'

/-! ## Blanks and comments -/

def isBlank (c : Char) : Bool := c == ' ' || c == '\t'

def skipBlanks : Chars → Chars := List.dropWhile isBlank

/-- A control character that may stand nowhere. -/
def isControl (c : Char) : Bool := (c.toNat < 0x20 && c != '\t') || c.toNat == 0x7F

/-- Passes over the end of a line. -/
def newline? : Chars → Option Chars
  | '\n' :: rest => some rest
  | '\r' :: '\n' :: rest => some rest
  | _ => none

/-- Passes over a comment if one stands next, up to the end of its line. -/
def skipComment? : Chars → Option Chars
  | '#' :: rest =>
    let comment := rest.takeWhile fun c => c != '\n' && c != '\r'
    if comment.any isControl then none else some (rest.drop comment.length)
  | text => some text

/-- Passes over blanks, comments and at most so many ends of lines. -/
def skipLines : Chars → Chars → Option Chars
  | [], text => some text
  | _ :: bound, text => do
    let text ← skipComment? (skipBlanks text)
    match newline? text with
    | some rest => skipLines bound rest
    | none => some text

/-- Passes over blanks, comments and ends of lines. -/
def skipSpace? (text : Chars) : Option Chars := skipLines text text

/-! ## Strings -/

/-- The character of some hexadecimal digits, and what follows them. -/
def hexEscape? (count : Nat) (text : Chars) : Option (Char × Chars) :=
  let digits := text.take count
  let n := valueInBase 16 digits
  if digits.length = count ∧ digits.all isHexDigit ∧ n.isValidChar then
    some (Char.ofNat n, text.drop count)
  else none

/-- The character of an escape, behind its backslash. -/
def escape? : Chars → Option (Char × Chars)
  | [] => none
  | letter :: rest =>
    match letter with
    | 'b' => some ('\x08', rest)
    | 't' => some ('\t', rest)
    | 'n' => some ('\n', rest)
    | 'f' => some ('\x0c', rest)
    | 'r' => some ('\r', rest)
    | 'e' => some ('\x1b', rest)
    | '"' => some ('"', rest)
    | '\\' => some ('\\', rest)
    | 'x' => hexEscape? 2 rest
    | 'u' => hexEscape? 4 rest
    | 'U' => hexEscape? 8 rest
    | _ => none

/-- Reads a string in one line behind its first quote. -/
def line? (quote : Char) (escapes : Bool) : Chars → Chars → Option (Chars × Chars)
  | [], _ | _, [] => none
  | _ :: bound, c :: rest =>
    if c = quote then some ([], rest)
    else if c = '\\' && escapes then do
      let (c, rest) ← escape? rest
      let (more, rest) ← line? quote escapes bound rest
      some (c :: more, rest)
    else if isControl c then none
    else do
      let (more, rest) ← line? quote escapes bound rest
      some (c :: more, rest)

/-- Passes over blanks and at most so many ends of lines. -/
def skipBlankLines : Chars → Chars → Chars
  | [], text => text
  | _ :: bound, text =>
    match newline? (skipBlanks text) with
    | some rest => skipBlankLines bound rest
    | none => skipBlanks text

/-- What is left behind a backslash that ends a line: it continues at the next character that is no
blank. -/
def continuation? (text : Chars) : Option Chars :=
  (newline? (skipBlanks text)).map fun rest => skipBlankLines rest rest

/-- Reads a string of many lines behind its first quotes. Up to two quotes may stand before the three
that end it. -/
def lines? (quote : Char) (escapes : Bool) : Chars → Chars → Option (Chars × Chars)
  | [], _ | _, [] => none
  | _ :: bound, c :: rest =>
    if c = quote then
      let quotes := c :: rest.takeWhile (· == quote)
      let rest := rest.drop (quotes.length - 1)
      if 5 < quotes.length then none
      else if 3 ≤ quotes.length then some (quotes.drop 3, rest)
      else do
        let (more, rest) ← lines? quote escapes bound rest
        some (quotes ++ more, rest)
    else if c = '\\' && escapes then
      match continuation? rest with
      | some rest => lines? quote escapes bound rest
      | none => do
        let (c, rest) ← escape? rest
        let (more, rest) ← lines? quote escapes bound rest
        some (c :: more, rest)
    else
      match newline? (c :: rest) with
      | some left => do
        let (more, rest) ← lines? quote escapes bound left
        some (if c = '\r' then c :: '\n' :: more else c :: more, rest)
      | none =>
        if isControl c then none
        else do
          let (more, rest) ← lines? quote escapes bound rest
          some (c :: more, rest)

/-- Reads a string behind its first quote. -/
def string? (quote : Char) (rest : Chars) : Option (String × Chars) := do
  let escapes := quote == '"'
  let (chars, rest) ←
    match rest with
    | a :: b :: more =>
      if a = quote && b = quote then
        let more := (newline? more).getD more
        lines? quote escapes more more
      else line? quote escapes rest rest
    | _ => line? quote escapes rest rest
  some (String.ofList chars, rest)

/-! ## Keys -/

def isBareKeyChar (c : Char) : Bool := c.isAlphanum || c == '_' || c == '-'

/-- Reads one part of a key. -/
def keyPart? : Chars → Option (String × Chars)
  | [] => none
  | c :: rest =>
    if c = '"' || c = apostrophe then do
      let (chars, rest) ← line? c (c == '"') rest rest
      some (String.ofList chars, rest)
    else
      let bare := (c :: rest).takeWhile isBareKeyChar
      if bare = [] then none else some (String.ofList bare, (c :: rest).drop bare.length)

/-- Reads a key of so many parts at most: its parts but the last, and the last. -/
def keyWithin? : Nat → Chars → Option ((List String × String) × Chars)
  | 0, _ => none
  | bound + 1, text => do
    let (part, rest) ← keyPart? (skipBlanks text)
    match skipBlanks rest with
    | '.' :: rest => do
      let ((path, last), rest) ← keyWithin? bound rest
      some ((part :: path, last), rest)
    | rest => some (([], part), rest)

/-- How deep arrays and inline tables may nest, and how many parts a key may have. -/
def nestingLimit : Nat := 80

/-- Reads a key. -/
def key? : Chars → Option ((List String × String) × Chars) := keyWithin? nestingLimit

/-- Reads a key and the sign behind it, and passes over what may stand around the sign. -/
def keyOf? (skip : Chars → Option Chars) (text : Chars) : Option ((List String × String) × Chars) := do
  let (key, rest) ← key? text
  let rest ← skip rest
  let rest ← exactly? '=' rest
  let rest ← skip rest
  some (key, rest)

/-! ## Values -/

/-- A character of a value that is written without quotes or brackets. -/
def isScalarChar (c : Char) : Bool :=
  c.isAlphanum || c == '_' || c == '+' || c == '-' || c == '.' || c == ':'

/-- The characters of such a value. A blank between a date and a time belongs to it. -/
def scalarChars (text : Chars) : Chars :=
  let first := text.takeWhile isScalarChar
  match date? first, text.drop first.length with
  | some (_, []), ' ' :: next :: rest =>
    if next.isDigit then first ++ ' ' :: (next :: rest).takeWhile isScalarChar else first
  | _, _ => first

/-- Reads the items of an array up to its end. -/
def items? (item : Chars → Option (Data × Chars)) : Chars → Chars → Option (List Data × Chars)
  | [], _ => none
  | _ :: bound, text => do
    match ← skipSpace? text with
    | ']' :: rest => some ([], rest)
    | text => do
      let (head, rest) ← item text
      match ← skipSpace? rest with
      | ',' :: rest => do
        let (tail, rest) ← items? item bound rest
        some (head :: tail, rest)
      | ']' :: rest => some ([head], rest)
      | _ => none

/-- Reads the members of an inline table up to its end. Lines may end anywhere but inside a key. -/
def members? (item : Chars → Option (Data × Chars)) : Chars → Members → Chars → Option (Members × Chars)
  | [], _, _ => none
  | _ :: bound, members, text => do
    match ← skipSpace? text with
    | '\x7d' :: rest => some (members, rest)
    | text => do
      let ((path, key), rest) ← keyOf? skipSpace? text
      let (data, rest) ← item rest
      let members ← assign path key data .headed members
      match ← skipSpace? rest with
      | ',' :: rest => members? item bound members rest
      | '\x7d' :: rest => some (members, rest)
      | _ => none

/-- Reads a value whose arrays and inline tables nest no deeper than the budget. -/
def value? (budget : Nat) (text : Chars) : Option (Data × Chars) :=
  match text with
  | [] => none
  | c :: rest =>
    if c = '"' || c = apostrophe then do
      let (s, rest) ← string? c rest
      some (.string s, rest)
    else if c = '[' then
      match budget with
      | 0 => none
      | budget + 1 => do
        let (all, rest) ← items? (value? budget) rest rest
        some (.array all, rest)
    else if c = '\x7b' then
      match budget with
      | 0 => none
      | budget + 1 => do
        let (members, rest) ← members? (value? budget) rest [] rest
        some (.object (membersToData members), rest)
    else do
      let chars := scalarChars (c :: rest)
      let data ← scalar? chars
      some (data, (c :: rest).drop chars.length)

/-! ## Lines -/

/-- What was read so far: the root table, and the header of the open one. -/
structure Progress where
  root : Members := []
  header : List String := []

/-- Reads the key of a header up to its brackets. -/
def headerKey? (closing : Chars) (text : Chars) : Option ((List String × String) × Chars) := do
  let (key, rest) ← key? text
  if closing.isPrefixOf rest then some (key, rest.drop closing.length) else none

/-- Reads what stands in a line before its comment. -/
def statement? (p : Progress) (text : Chars) : Option (Progress × Chars) :=
  match text with
  | '[' :: '[' :: rest => do
    let ((path, key), rest) ← headerKey? [']', ']'] rest
    let root ← openNext path key p.root
    some (⟨root, path ++ [key]⟩, rest)
  | '[' :: rest => do
    let ((path, key), rest) ← headerKey? [']'] rest
    let root ← openTable path key p.root
    some (⟨root, path ++ [key]⟩, rest)
  | text => do
    let ((path, key), rest) ← keyOf? (fun text => some (skipBlanks text)) text
    let (data, rest) ← value? nestingLimit rest
    let root ← assignIn p.header path key data p.root
    some (⟨root, p.header⟩, rest)

/-- Reads the lines of a text. -/
def statements? : Nat → Progress → Chars → Option Progress
  | 0, _, _ => none
  | bound + 1, p, text => do
    match ← skipSpace? text with
    | [] => some p
    | text => do
      let (p, rest) ← statement? p text
      let rest ← skipComment? (skipBlanks rest)
      match rest with
      | [] => some p
      | rest => do
        let rest ← newline? rest
        statements? bound p rest

/-- The tree that a TOML text says. -/
def parse? (text : String) : Option Data := do
  let chars := match text.toList with
    | '\uFEFF' :: rest => rest
    | chars => chars
  let p ← statements? (chars.length + 1) {} chars
  some (.object (membersToData p.root))

end RecordQuery.Toml
