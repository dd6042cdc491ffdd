import RecordQuery.Value.Text
import RecordQuery.Text.Utf8

/-!
# Reproducible random numbers

The stream cipher ChaCha with eight rounds as a generator of 64-bit words. `Generator.seeded` expands
a seed of 64 bits to a key, `Generator.next` takes the words of the key stream in order, and
`seedOf` maps every value to a seed.
-/

namespace RecordQuery

namespace ChaCha

/-- The bits of a word rotated to the left. -/
def rotateLeft (word : UInt32) (count : UInt32) : UInt32 :=
  word <<< count ||| word >>> (32 - count)

/-- A row of the state, one word for each column. -/
structure Row where
  w0 : UInt32
  w1 : UInt32
  w2 : UInt32
  w3 : UInt32
deriving DecidableEq

namespace Row

def zip (f : UInt32 → UInt32 → UInt32) (a b : Row) : Row := ⟨f a.w0 b.w0, f a.w1 b.w1, f a.w2 b.w2, f a.w3 b.w3⟩

def map (f : UInt32 → UInt32) (a : Row) : Row := ⟨f a.w0, f a.w1, f a.w2, f a.w3⟩

/-- The row with every word moved one column to the left. -/
def turn (a : Row) : Row := ⟨a.w1, a.w2, a.w3, a.w0⟩

end Row

/-- The sixteen words of the state. -/
structure State where
  a : Row
  b : Row
  c : Row
  d : Row
deriving DecidableEq

/-- The quarter round on all four columns. -/
def columns (s : State) : State :=
  let a := s.a.zip (· + ·) s.b
  let d := (s.d.zip (· ^^^ ·) a).map (rotateLeft · 16)
  let c := s.c.zip (· + ·) d
  let b := (s.b.zip (· ^^^ ·) c).map (rotateLeft · 12)
  let a := a.zip (· + ·) b
  let d := (d.zip (· ^^^ ·) a).map (rotateLeft · 8)
  let c := c.zip (· + ·) d
  let b := (b.zip (· ^^^ ·) c).map (rotateLeft · 7)
  ⟨a, b, c, d⟩

/-- A round on the columns and one on the diagonals, which the turned rows make columns. -/
def doubleRound (s : State) : State :=
  let s := columns s
  let s := columns ⟨s.a, s.b.turn, s.c.turn.turn, s.d.turn.turn.turn⟩
  ⟨s.a, s.b.turn.turn.turn, s.c.turn.turn, s.d.turn⟩

/-- A key of eight words. -/
structure Key where
  low : Row
  high : Row
deriving DecidableEq

/-- The state that a key and the number of a block start from. -/
def start (key : Key) (block : UInt64) : State :=
  ⟨⟨0x61707865, 0x3320646E, 0x79622D32, 0x6B206574⟩, key.low, key.high,
    ⟨block.toUInt32, (block >>> 32).toUInt32, 0, 0⟩⟩

/-- A block of the key stream: eight rounds, and the state they started from added. -/
def block (key : Key) (number : UInt64) : State :=
  let first := start key number
  let last := doubleRound (doubleRound (doubleRound (doubleRound first)))
  ⟨last.a.zip (· + ·) first.a, last.b.zip (· + ·) first.b, last.c.zip (· + ·) first.c,
    last.d.zip (· + ·) first.d⟩

/-- Two words as one, the first as the lower half. -/
def join (low high : UInt32) : UInt64 := low.toUInt64 ||| high.toUInt64 <<< 32

/-- The words of a block in pairs. -/
def State.pairs (s : State) : List UInt64 :=
  [s.a, s.b, s.c, s.d].flatMap fun row => [join row.w0 row.w1, join row.w2 row.w3]

/-- The pair of words at a place of the key stream. -/
def stream (key : Key) (place : Nat) : UInt64 :=
  (block key (UInt64.ofNat (place / 8))).pairs[place % 8]?.getD 0

/-- A row of two words of twice its width. -/
def Row.ofPairs (left right : UInt64) : Row :=
  ⟨left.toUInt32, (left >>> 32).toUInt32, right.toUInt32, (right >>> 32).toUInt32⟩

/-- The keys that a key gives, by their numbers: its stream in pieces. -/
def derivedKey (key : Key) (number : Nat) : Key :=
  let word := fun i => stream key (4 * number + i)
  ⟨.ofPairs (word 0) (word 1), .ofPairs (word 2) (word 3)⟩

end ChaCha

/-! ## Generators -/

/-- One step of the sequence that a key is filled from. -/
def expansionStep (state : UInt64) : UInt64 := state * 6364136223846793005 + 11634580027462260723

/-- The word that a state of that sequence gives. -/
def expansionWord (state : UInt64) : UInt32 :=
  let word := ((state >>> 18 ^^^ state) >>> 27).toUInt32
  let count := (state >>> 59).toUInt32
  word >>> count ||| word <<< (32 - count)

/-- The next four words of a key, and the state after them. -/
def expansionRow (state : UInt64) : ChaCha.Row × UInt64 :=
  let s0 := expansionStep state
  let s1 := expansionStep s0
  let s2 := expansionStep s1
  let s3 := expansionStep s2
  (⟨expansionWord s0, expansionWord s1, expansionWord s2, expansionWord s3⟩, s3)

/-- The key of a seed. -/
def keyOfSeed (seed : UInt64) : ChaCha.Key :=
  let (low, state) := expansionRow seed
  let (high, _) := expansionRow state
  ⟨low, high⟩

/-- A generator of random words: a key, and how many words were drawn. -/
structure Generator where
  key : ChaCha.Key
  drawn : Nat
deriving DecidableEq

/-- A random word as an integer that is not negative: its upper 63 bits. -/
def nonNegative (word : UInt64) : Int64 := (word >>> 1).toInt64

namespace Generator

def seeded (seed : UInt64) : Generator := ⟨keyOfSeed seed, 0⟩

/-- The next integer, which is not negative, and the generator after it. -/
def next (g : Generator) : Int64 × Generator :=
  (nonNegative (ChaCha.stream g.key g.drawn), ⟨g.key, g.drawn + 1⟩)

/-- The next integers. -/
def take : Nat → Generator → List Int64
  | 0, _ => []
  | n + 1, g => g.next.1 :: take n g.next.2

end Generator

/-- The integer that a seed gives. -/
def intOfSeed (seed : UInt64) : Int64 := (Generator.seeded seed).next.1

/-! ## Seeds -/

/-- The 64-bit FNV-1a hash. -/
def hash (bytes : Bytes) : UInt64 :=
  bytes.foldl (fun state byte => (state ^^^ byte.toUInt64) * 0x00000100000001B3) 0xCBF29CE484222325

/-- The seed of a value: an integer is its own, a float gives its bits, a truth value one or zero,
and anything else the hash of its text, of a string without quotes. -/
def seedOf : Value → UInt64
  | .int i => i.toUInt64
  | .float x => x.bits
  | .bool b => if b then 1 else 0
  | v => hash (Utf8.encode v.rawText)

end RecordQuery
