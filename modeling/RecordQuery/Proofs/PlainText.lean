import RecordQuery.Proofs.RoundTrip
import RecordQuery.Random

/-!
# Plain text

The text in which a value is shown and hashed puts strings between quotes and escapes nothing in them. As long as no
string, keys included, needs an escape it is JSON for the value, and the value is read back from it
(`Value.readBack_text`).
-/

namespace RecordQuery

open JsonText

/-! ## Strings that need no escape -/

/-- A string that JSON writes as it is. -/
def PlainString (s : String) : Prop := ∀ c ∈ s.toList, c ≠ '"' ∧ c ≠ '\\' ∧ 0x20 ≤ c.toNat

instance (s : String) : Decidable (PlainString s) := List.decidableBAll _ s.toList

theorem escapeChar_of_plain {c : Char} (plain : c ≠ '"' ∧ c ≠ '\\' ∧ 0x20 ≤ c.toNat) : Json.escapeChar c = [c] := by
  obtain ⟨noQuote, noBackslash, printable⟩ := plain
  have long : c ∉ shortEscaped := by
    intro short
    simp only [shortEscaped, List.mem_cons, List.not_mem_nil, or_false] at short
    rcases short with rfl | rfl | rfl | rfl | rfl | rfl | rfl
    · exact noQuote rfl
    · exact noBackslash rfl
    all_goals exact absurd printable (by decide)
  rw [escapeChar_of_long long, if_neg (Nat.not_lt.mpr printable)]

theorem quote_of_plain {s : String} (plain : PlainString s) : Json.quote s = "\"" ++ s ++ "\"" := by
  have escaped : s.toList.flatMap Json.escapeChar = s.toList := by
    rw [List.flatMap_congr fun c member => escapeChar_of_plain (plain c member)]
    exact List.flatMap_singleton' s.toList
  apply String.toList_inj.mp
  simp [Json.quote, escaped]

/-- The bytes of a string without escapes stand for themselves. -/
theorem plainString_iff {s : String} : PlainString s ↔ ∀ byte ∈ Utf8.encode s, JsonText.Plain byte := by
  constructor
  · intro plain byte member
    obtain ⟨c, isChar, ofChar⟩ := List.mem_flatMap.mp member
    obtain ⟨noQuote, noBackslash, printable⟩ := plain c isChar
    exact plain_of_mem_encodeChar noQuote noBackslash printable ofChar
  · intro plain c isChar
    have ofAscii (ascii : c.toNat < 0x80) : JsonText.Plain (UInt8.ofNat c.toNat) := by
      refine plain _ (List.mem_flatMap.mpr ⟨c, isChar, ?_⟩)
      rw [Utf8.encodeChar_of_ascii ascii]
      exact List.mem_singleton_self _
    refine ⟨?_, ?_, ?_⟩
    · rintro rfl
      exact (ofAscii (by decide)).1 rfl
    · rintro rfl
      exact (ofAscii (by decide)).2.1 rfl
    · by_cases ascii : c.toNat < 0x80
      · have printable := (ofAscii ascii).2.2
        rwa [Utf8.toNat_ofNat (by omega)] at printable
      · omega

namespace Value

mutual

/-- The strings in a value, at any depth, the keys of objects among them. -/
def strings : Value → List String
  | .string s => [s]
  | .array items => stringsOfItems items
  | .object members => stringsOfMembers members
  | .null | .bool _ | .int _ | .float _ => []

def stringsOfItems : List Value → List String
  | [] => []
  | item :: rest => item.strings ++ stringsOfItems rest

def stringsOfMembers : List (String × Value) → List String
  | [] => []
  | (key, member) :: rest => key :: (member.strings ++ stringsOfMembers rest)

end

/-- No string in the value needs an escape. -/
def Plain (v : Value) : Prop := ∀ s ∈ v.strings, PlainString s

instance (v : Value) : Decidable v.Plain := List.decidableBAll _ v.strings

theorem stringsOfItems_eq_flatMap (items : List Value) : stringsOfItems items = items.flatMap strings := by
  induction items with
  | nil => rfl
  | cons item items ih => rw [stringsOfItems, ih, List.flatMap_cons]

theorem stringsOfMembers_eq_flatMap (members : List (String × Value)) :
    stringsOfMembers members = members.flatMap fun member => member.1 :: member.2.strings := by
  induction members with
  | nil => rfl
  | cons member members ih => rw [stringsOfMembers, ih, List.flatMap_cons]; rfl

theorem plain_array {items : List Value} : (Value.array items).Plain ↔ ∀ item ∈ items, item.Plain := by
  rw [Plain, strings, stringsOfItems_eq_flatMap]
  exact List.forall_mem_flatMap

theorem plain_object {members : List (String × Value)} :
    (Value.object members).Plain ↔ ∀ member ∈ members, PlainString member.1 ∧ member.2.Plain := by
  rw [Plain, strings, stringsOfMembers_eq_flatMap, List.forall_mem_flatMap]
  simp only [List.forall_mem_cons]
  rfl

/-! ## The text of a value -/

theorem textItems_eq_map (items : List Value) : textItems items = items.map text := by
  induction items with
  | nil => rfl
  | cons item items ih => rw [textItems, ih, List.map_cons]

theorem textMembers_eq_map (members : List (String × Value)) :
    textMembers members = members.map fun member => (member.1, member.2.text) := by
  induction members with
  | nil => rfl
  | cons member members ih => rw [textMembers, ih, List.map_cons]

/-- The text of a member of an object. -/
def memberText (member : String × Value) : String := "\"" ++ member.1 ++ "\": " ++ member.2.text

theorem text_array (items : List Value) : (Value.array items).text = "[" ++ ", ".intercalate (items.map text) ++ "]" := by
  rw [text, textItems_eq_map, commaSeparated]

theorem text_object {members : List (String × Value)} (ascending : Ascending members) :
    (Value.object members).text = "\x7b" ++ ", ".intercalate (members.map memberText) ++ "\x7d" := by
  rw [text, textMembers_eq_map, ascendingEntries_map, ascendingEntries_of_perm ascending (.refl _), commaSeparated,
    List.map_map]
  rfl

/-! ## Reading plain text -/

theorem blank_space : Blank [' '.toUInt8] := List.forall_mem_singleton.mpr (by decide)

theorem encode_memberText {member : String × Value} (plain : PlainString member.1) :
    Utf8.encode (memberText member) = memberPart member.1 (' '.toUInt8 :: Utf8.encode member.2.text) := by
  have colon : Utf8.encode ": " = [':'.toUInt8, ' '.toUInt8] := by decide
  have quoted : memberText member = Json.quote member.1 ++ ": " ++ member.2.text := by
    rw [quote_of_plain plain]
    apply String.toList_inj.mp
    simp [memberText]
  rw [quoted, Utf8.encode_append, Utf8.encode_append, colon, encode_quote, List.append_assoc]
  rfl

/-- Blanks in front of a part are passed over. -/
theorem readsPart_space {α : Type} {item : Bytes → Except JsonText.Failure (α × Bytes)} {part : Bytes} {a : α}
    (reads : ReadsAs item part a) : ReadsPart item ([' '.toUInt8] ++ part) a :=
  ⟨_, part, rfl, blank_space, reads⟩

theorem readsMemberPart_space {α : Type} {member : Bytes → Except JsonText.Failure (α × Bytes)} {part : Bytes} {entry : String × α}
    (reads : ReadsMemberPart member part entry) : ReadsMemberPart member ([' '.toUInt8] ++ part) entry := by
  obtain ⟨blanks, text, rfl, blank, read⟩ := reads
  refine ⟨[' '.toUInt8] ++ blanks, text, (List.append_assoc _ _ _).symm, ?_, read⟩
  exact List.forall_mem_append.mpr ⟨blank_space, blank⟩

mutual

/-- The text of a value whose strings need no escape is read back as the value. -/
theorem readBack_text : (v : Value) → v.Plain → ∀ {levels : Nat}, v.Shallow levels → ReadBack levels v.text v
  | .null, _, _, shallow => Written.readBack .null shallow
  | .bool b, _, _, shallow => Written.readBack (.bool b) shallow
  | .int i, _, _, shallow => Written.readBack (.int i) shallow
  | .float _, _, _, shallow => shallow.floatFree.elim
  | .string s, plain, _, shallow => by
    have quoted : (Value.string s).text = Json.quote s := (quote_of_plain (plain s List.mem_cons_self)).symm
    rw [quoted]
    exact Written.readBack (.string s) shallow
  | .array items, plain, levels, shallow => by
    obtain ⟨inner, rfl⟩ := shallow.levels_pos (Nat.succ_pos _)
    obtain ⟨all, same, reads⟩ := readBack_textItems items (plain_array.mp plain) shallow.item
    have spelled (rest : Bytes) : Utf8.encode (Value.array items).text ++ rest =
        '['.toUInt8 :: joinedParts (spaced [' '.toUInt8] ((items.map text).map Utf8.encode)) ']'.toUInt8 rest := by
      rw [text_array]
      exact encode_between (by decide) (by decide) (by decide) _ rest
    refine ⟨.array all, by rw [ofData_array, same], readsAs_brackets spelled ?_⟩
    exact forall₂_spaced reads (fun _ _ => ReadsAs.part) fun _ _ => readsPart_space
  | .object members, plain, levels, shallow => by
    obtain ⟨inner, rfl⟩ := shallow.levels_pos (Nat.succ_pos _)
    obtain ⟨all, same, reads⟩ := readBack_textMembers members (plain_object.mp plain) shallow.member
    have ascending : Ascending members := shallow.canonical.1
    have spelled (rest : Bytes) : Utf8.encode (Value.object members).text ++ rest =
        '\x7b'.toUInt8 :: joinedParts (spaced [' '.toUInt8] ((members.map memberText).map Utf8.encode)) '\x7d'.toUInt8 rest := by
      rw [text_object ascending]
      exact encode_between (by decide) (by decide) (by decide) _ rest
    refine ⟨.object all, ?_, readsAs_braces spelled ?_⟩
    · rw [ofData_object, same, ascendingEntries_of_perm ascending (.refl _)]
    · exact forall₂_spaced reads (fun _ _ => id) fun _ _ => readsMemberPart_space

theorem readBack_textItems : (items : List Value) → (∀ item ∈ items, item.Plain) → ∀ {levels : Nat},
    (∀ item ∈ items, item.Shallow levels) →
    ∃ all, all.map ofData = items ∧
      List.Forall₂ (ReadsAs (JsonText.value levels)) ((items.map text).map Utf8.encode) all
  | [], _, _, _ => ⟨[], rfl, .nil⟩
  | item :: items, plain, levels, shallow => by
    obtain ⟨ofItem, ofItems⟩ := List.forall_mem_cons.mp plain
    obtain ⟨first, later⟩ := List.forall_mem_cons.mp shallow
    obtain ⟨data, same, read⟩ := readBack_text item ofItem first
    obtain ⟨all, others, reads⟩ := readBack_textItems items ofItems later
    exact ⟨data :: all, by rw [List.map_cons, same, others], .cons read reads⟩

theorem readBack_textMembers : (members : List (String × Value)) → (∀ member ∈ members, PlainString member.1 ∧ member.2.Plain) →
    ∀ {levels : Nat}, (∀ member ∈ members, member.2.Shallow levels) →
    ∃ all : List (String × Data), (all.map fun entry => (entry.1, ofData entry.2)) = members ∧
      List.Forall₂ (ReadsMemberPart (JsonText.value levels)) ((members.map memberText).map Utf8.encode) all
  | [], _, _, _ => ⟨[], rfl, .nil⟩
  | (key, member) :: members, plain, levels, shallow => by
    obtain ⟨⟨ofKey, ofMember⟩, ofMembers⟩ := List.forall_mem_cons.mp plain
    obtain ⟨first, later⟩ := List.forall_mem_cons.mp shallow
    obtain ⟨data, same, -, read⟩ := readBack_text member ofMember first
    obtain ⟨all, others, reads⟩ := readBack_textMembers members ofMembers later
    refine ⟨(key, data) :: all, by rw [List.map_cons, same, others], .cons ?_ reads⟩
    refine ⟨[], _, encode_memberText ofKey, List.forall_mem_nil _, fun rest ends => ?_⟩
    rw [List.cons_append]
    exact (value_blanks blank_space levels _).trans (read rest ends)

end

end Value

end RecordQuery
