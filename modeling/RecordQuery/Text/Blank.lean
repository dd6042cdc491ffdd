/-!
# White space

The characters with the property `White_Space` of Unicode: core's white space, which is ASCII, is part
of it.
-/

namespace RecordQuery

/-- The ranges of white space. -/
def whiteSpaceRanges : List (Nat × Nat) :=
  [(0x9, 0xD), (0x20, 0x20), (0x85, 0x85), (0xA0, 0xA0), (0x1680, 0x1680), (0x2000, 0x200A), (0x2028, 0x2029),
    (0x202F, 0x202F), (0x205F, 0x205F), (0x3000, 0x3000)]

def isWhiteSpace (c : Char) : Bool :=
  whiteSpaceRanges.any fun (first, last) => first ≤ c.toNat && c.toNat ≤ last

/-- A text with nothing in it but white space. -/
def isBlank (text : String) : Bool := text.toList.all isWhiteSpace

end RecordQuery
