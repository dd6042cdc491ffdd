import RecordQuery.Text.UnprintableTable

/-!
# Quoted text

Text between double quotes for diagnostics: a quote and a backslash have a backslash before them,
the usual controls their short form, and any other unprintable character its code point in braces.
-/

namespace RecordQuery.Quoted

/-- Whether a character is shown by its code point. -/
def isUnprintable (c : Char) : Bool :=
  if c.toNat < 0x7F then c.toNat < 0x20
  else UnprintableTable.ranges.any fun (first, last) => first ≤ c.toNat && c.toNat ≤ last

/-- A character inside the quotes. -/
def quoteChar (c : Char) : List Char :=
  match c with
  | '\x00' => ['\\', '0']
  | '\t' => ['\\', 't']
  | '\n' => ['\\', 'n']
  | '\r' => ['\\', 'r']
  | '"' => ['\\', '"']
  | '\\' => ['\\', '\\']
  | c =>
    if isUnprintable c then '\\' :: 'u' :: '\x7b' :: (Nat.toDigits 16 c.toNat ++ ['\x7d']) else [c]

def quote (text : String) : String :=
  String.ofList ('"' :: (text.toList.flatMap quoteChar ++ ['"']))

end RecordQuery.Quoted
