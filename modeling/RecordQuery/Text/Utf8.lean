/-!
# UTF-8

Bytes of text and back. `next` reads one character by the table of well-formed sequences: a lead byte
fixes how many bytes follow, and the range of the first of them. Where a sequence breaks off, what
was read of it is one fault, so `decodeLossy` writes one replacement character for it, and the byte
that broke it is read anew.
-/

namespace RecordQuery

abbrev Bytes := List UInt8

namespace Utf8

/-- What a lead byte announces: its part of the code point, how many bytes follow, and the range of
the first of them. The ranges leave out overlong sequences and surrogates. -/
structure Lead where
  value : Nat
  more : Nat
  low : UInt8 := 0x80
  high : UInt8 := 0xBF

/-- What a byte announces at the start of a character. -/
def lead? (byte : UInt8) : Option Lead :=
  if byte < 0x80 then some { value := byte.toNat, more := 0 }
  else if byte < 0xC2 then none
  else if byte < 0xE0 then some { value := byte.toNat - 0xC0, more := 1 }
  else if byte = 0xE0 then some { value := 0, more := 2, low := 0xA0 }
  else if byte = 0xED then some { value := 0xD, more := 2, high := 0x9F }
  else if byte < 0xF0 then some { value := byte.toNat - 0xE0, more := 2 }
  else if byte = 0xF0 then some { value := 0, more := 3, low := 0x90 }
  else if byte = 0xF4 then some { value := 4, more := 3, high := 0x8F }
  else if byte < 0xF4 then some { value := byte.toNat - 0xF0, more := 3 }
  else none

/-- Reads the bytes that follow a lead byte: the code point, unless one is missing or out of range,
and what is left from the first byte that was not read. -/
def follow (low high : UInt8) (value : Nat) : Nat → Bytes → Option Nat × Bytes
  | 0, rest => (some value, rest)
  | _ + 1, [] => (none, [])
  | more + 1, byte :: rest =>
    if low ≤ byte && byte ≤ high then follow 0x80 0xBF (value * 64 + byte.toNat % 64) more rest
    else (none, byte :: rest)

theorem length_follow (low high : UInt8) (value more : Nat) (rest : Bytes) :
    (follow low high value more rest).2.length ≤ rest.length := by
  induction more generalizing low high value rest with
  | zero => simp [follow]
  | succ more ih =>
    cases rest with
    | nil => simp [follow]
    | cons byte rest =>
      unfold follow
      split
      · exact Nat.le_succ_of_le (ih ..)
      · simp

/-- Reads one character, or one fault. -/
def next (byte : UInt8) (rest : Bytes) : Option Char × Bytes :=
  match lead? byte with
  | none => (none, rest)
  | some lead =>
    let (point, left) := follow lead.low lead.high lead.value lead.more rest
    (point.map Char.ofNat, left)

theorem length_next (byte : UInt8) (rest : Bytes) : (next byte rest).2.length ≤ rest.length := by
  unfold next
  split
  · simp
  · exact length_follow ..

/-- What is left of some bytes from their first fault on. -/
def fromFault : Bytes → Bytes
  | [] => []
  | byte :: rest =>
    have := length_next byte rest
    match (next byte rest).1 with
    | none => byte :: rest
    | some _ => fromFault (next byte rest).2
termination_by bytes => bytes.length
decreasing_by simp only [List.length_cons]; omega

/-- The characters of some bytes, a fault as `none`. -/
def scan : Bytes → List (Option Char)
  | [] => []
  | byte :: rest =>
    have := length_next byte rest
    (next byte rest).1 :: scan (next byte rest).2
termination_by bytes => bytes.length
decreasing_by simp only [List.length_cons]; omega

/-- The text of some bytes, unless a fault stands in them. -/
def decode? (bytes : Bytes) : Option String := (scan bytes).mapM id |>.map String.ofList

/-- The text of some bytes, with a replacement character for each fault. -/
def decodeLossy (bytes : Bytes) : String := String.ofList ((scan bytes).map (·.getD '\uFFFD'))

/-- The bytes of a character. -/
def encodeChar (c : Char) : Bytes :=
  let n := c.toNat
  if n < 0x80 then [UInt8.ofNat n]
  else if n < 0x800 then [UInt8.ofNat (0xC0 + n / 64), UInt8.ofNat (0x80 + n % 64)]
  else if n < 0x10000 then
    [UInt8.ofNat (0xE0 + n / 4096), UInt8.ofNat (0x80 + n / 64 % 64), UInt8.ofNat (0x80 + n % 64)]
  else
    [UInt8.ofNat (0xF0 + n / 262144), UInt8.ofNat (0x80 + n / 4096 % 64),
      UInt8.ofNat (0x80 + n / 64 % 64), UInt8.ofNat (0x80 + n % 64)]

/-- The bytes of a text. -/
def encode (text : String) : Bytes := text.toList.flatMap encodeChar

end Utf8

end RecordQuery
