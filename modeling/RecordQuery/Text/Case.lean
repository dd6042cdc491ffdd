import RecordQuery.Text.CaseTable

/-!
# Upper and lower case

The full case mappings: one character may become several, and a capital sigma becomes a final one at
the end of a word, that is, where a cased character stands before it and none after it, characters
that may be passed over aside.
-/

namespace RecordQuery.Case

/-- Whether a character stands in one of some ranges. -/
def inRanges (ranges : List (Nat × Nat)) (c : Char) : Bool :=
  ranges.any fun (first, last) => first ≤ c.toNat && c.toNat ≤ last

/-- The image of a character under rows `(first, last, step, image)`. -/
def imageInRows (rows : List (Nat × Nat × Nat × Nat)) (c : Char) : Char :=
  let n := c.toNat
  match rows.find? fun (first, last, step, _) => first ≤ n && n ≤ last && (n - first) % step == 0 with
  | some (first, _, _, image) => Char.ofNat (image + (n - first))
  | none => c

/-- The mapping of a character: a sequence of its own, else the image of a row. -/
def mapChar (sequences : List (Nat × List Nat)) (rows : List (Nat × Nat × Nat × Nat)) (c : Char) :
    List Char :=
  match sequences.lookup c.toNat with
  | some points => points.map Char.ofNat
  | none => [imageInRows rows c]

def upperChar (c : Char) : List Char :=
  if c.toNat < 0x80 then [c.toUpper] else mapChar CaseTable.upperSequences CaseTable.upperRows c

def lowerChar (c : Char) : List Char :=
  if c.toNat < 0x80 then [c.toLower] else mapChar CaseTable.lowerSequences CaseTable.lowerRows c

def isCased (c : Char) : Bool := inRanges CaseTable.casedRanges c

def isIgnorable (c : Char) : Bool := inRanges CaseTable.ignorableRanges c

/-- Whether the first character that is not passed over is cased. -/
def startsCased (text : List Char) : Bool :=
  match text.dropWhile isIgnorable with
  | [] => false
  | c :: _ => isCased c

/-- The lower case of a text that stands after `before`, given in reverse. -/
def lowerFrom (before : List Char) : List Char → List Char
  | [] => []
  | c :: rest =>
    let here :=
      if c = 'Σ' then [if startsCased before && !startsCased rest then 'ς' else 'σ'] else lowerChar c
    here ++ lowerFrom (c :: before) rest

def toUpper (text : String) : String := String.ofList (text.toList.flatMap upperChar)

def toLower (text : String) : String := String.ofList (lowerFrom [] text.toList)

end RecordQuery.Case
