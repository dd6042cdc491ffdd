import RecordQuery.Proofs.Lines
import RecordQuery.Proofs.Written

/-!
# Written values read back

Every compact text of a value without floats is read as that value, as long as the value nests no deeper than
the reader goes (`Written.readBack`), and is one record by itself (`Written.isRecord`).
-/

namespace RecordQuery

open JsonText

/-! ## The bytes of what is written -/

theorem encode_intercalate (separator text : String) (texts : List String) :
    Utf8.encode (separator.intercalate (text :: texts)) =
      Utf8.encode text ++ (texts.map Utf8.encode).flatMap (Utf8.encode separator ++ ·) := by
  induction texts generalizing text with
  | nil => simp
  | cons next texts ih =>
    rw [String.intercalate_cons_cons, Utf8.encode_append, Utf8.encode_append, ih, List.map_cons, List.flatMap_cons,
      List.append_assoc, List.append_assoc]

/-- Parts with blanks in front of all but the first. -/
def spaced (blanks : Bytes) : List Bytes → List Bytes
  | [] => []
  | part :: parts => part :: parts.map (blanks ++ ·)

theorem spaced_nil (parts : List Bytes) : spaced [] parts = parts := by
  cases parts with
  | nil => rfl
  | cons part parts => exact congrArg (part :: ·) (List.map_id parts)

theorem forall₂_spaced {α : Type} {reads reads' : Bytes → α → Prop} {blanks : Bytes} {parts : List Bytes} {all : List α}
    (each : List.Forall₂ reads parts all) (first : ∀ part a, reads part a → reads' part a)
    (later : ∀ part a, reads part a → reads' (blanks ++ part) a) : List.Forall₂ reads' (spaced blanks parts) all := by
  cases each with
  | nil => exact .nil
  | cons read others =>
    refine .cons (first _ _ read) ?_
    rw [List.forall₂_map_left_iff]
    exact others.imp later

/-- Texts between two marks, with commas and blanks between them. -/
theorem encode_between {opened closed separator : String} {mark close : UInt8} {blanks : Bytes}
    (ofOpened : Utf8.encode opened = [mark]) (ofClosed : Utf8.encode closed = [close])
    (ofSeparator : Utf8.encode separator = ','.toUInt8 :: blanks) (texts : List String) (rest : Bytes) :
    Utf8.encode (opened ++ separator.intercalate texts ++ closed) ++ rest =
      mark :: joinedParts (spaced blanks (texts.map Utf8.encode)) close rest := by
  rw [Utf8.encode_append, Utf8.encode_append, ofOpened, ofClosed, List.append_assoc, List.append_assoc,
    List.singleton_append, List.singleton_append]
  cases texts with
  | nil => rw [String.intercalate_nil]; rfl
  | cons text texts =>
    rw [encode_intercalate, ofSeparator, List.append_assoc, List.map_cons, spaced, joinedParts, laterParts]
    simp only [List.flatMap_map, List.cons_append]

theorem encode_writeArray (texts : List String) (rest : Bytes) :
    Utf8.encode (Json.writeArray texts) ++ rest = '['.toUInt8 :: joinedParts (texts.map Utf8.encode) ']'.toUInt8 rest := by
  have read := @encode_between "[" "]" "," '['.toUInt8 ']'.toUInt8 [] (by decide) (by decide) (by decide) texts rest
  rwa [spaced_nil] at read

theorem encode_writeObject (entries : List (String × String)) (rest : Bytes) :
    Utf8.encode (Json.writeObject entries) ++ rest =
      '\x7b'.toUInt8 :: joinedParts (entries.map fun entry => Utf8.encode (entry.1 ++ ":" ++ entry.2)) '\x7d'.toUInt8 rest := by
  have read := @encode_between "\x7b" "\x7d" "," '\x7b'.toUInt8 '\x7d'.toUInt8 [] (by decide) (by decide) (by decide)
    (entries.map fun entry => entry.1 ++ ":" ++ entry.2) rest
  rw [spaced_nil, List.map_map] at read
  exact read

theorem encode_member (key text : String) :
    Utf8.encode (Json.quote key ++ ":" ++ text) = memberPart key (Utf8.encode text) := by
  have colon : Utf8.encode ":" = [':'.toUInt8] := by decide
  rw [Utf8.encode_append, Utf8.encode_append, colon, encode_quote, List.append_assoc, List.singleton_append]
  rfl

theorem readsAs_brackets {budget : Nat} {text : Bytes} {parts : List Bytes} {all : List Data}
    (spelled : ∀ rest, text ++ rest = '['.toUInt8 :: joinedParts parts ']'.toUInt8 rest)
    (each : List.Forall₂ (ReadsPart (JsonText.value budget)) parts all) :
    ReadsAs (JsonText.value (budget + 1)) text (.array all) := by
  have begins := spelled []
  rw [List.append_nil] at begins
  refine ⟨⟨'['.toUInt8, _, begins, by decide, by decide⟩, fun rest _ => ?_⟩
  rw [spelled, value_bracket, items_joinedParts each]
  rfl

theorem readsAs_braces {budget : Nat} {text : Bytes} {parts : List Bytes} {all : List (String × Data)}
    (spelled : ∀ rest, text ++ rest = '\x7b'.toUInt8 :: joinedParts parts '\x7d'.toUInt8 rest)
    (each : List.Forall₂ (ReadsMemberPart (JsonText.value budget)) parts all) :
    ReadsAs (JsonText.value (budget + 1)) text (.object all) := by
  have begins := spelled []
  rw [List.append_nil] at begins
  refine ⟨⟨'\x7b'.toUInt8, _, begins, by decide, by decide⟩, fun rest _ => ?_⟩
  rw [spelled, value_brace, members_joinedParts each]
  rfl

theorem readsAs_array {budget : Nat} {texts : List String} {all : List Data}
    (each : List.Forall₂ (ReadsAs (JsonText.value budget)) (texts.map Utf8.encode) all) :
    ReadsAs (JsonText.value (budget + 1)) (Utf8.encode (Json.writeArray texts)) (.array all) :=
  readsAs_brackets (encode_writeArray texts) (each.imp fun _ _ => ReadsAs.part)

theorem readsAs_object {budget : Nat} {entries : List (String × String)} {all : List (String × Data)}
    (each : List.Forall₂ (ReadsMember (JsonText.value budget))
      (entries.map fun entry => Utf8.encode (entry.1 ++ ":" ++ entry.2)) all) :
    ReadsAs (JsonText.value (budget + 1)) (Utf8.encode (Json.writeObject entries)) (.object all) :=
  readsAs_braces (encode_writeObject entries) (each.imp fun _ _ => ReadsMember.part)

/-! ## Reading what is written -/

namespace Value

theorem Written.opens {v : Value} {text : String} (written : v.Written text) :
    Opens (Utf8.encode text) := by
  obtain ⟨c, more, spelled, begins⟩ := written.begins
  obtain ⟨byte, ofByte, noBlank, noClose, -⟩ := begins.facts
  refine ⟨byte, more.flatMap Utf8.encodeChar, ?_, noBlank, noClose⟩
  rw [Utf8.encode, spelled, List.flatMap_cons, ofByte, List.singleton_append]

/-- The value that a tree stands for. -/
def ofData (data : Data) : Value := ofJson data.toJson

theorem ofData_array (all : List Data) : ofData (.array all) = .array (all.map ofData) := by
  suffices ofJsonItems (Data.toJsonItems all) = all.map ofData by
    rw [ofData, Data.toJson, ofJson, this]
  induction all with
  | nil => rfl
  | cons data all ih => rw [Data.toJsonItems, ofJsonItems, ih]; rfl

theorem ofJsonMembers_eq_map (members : List (String × Json)) :
    ofJsonMembers members = members.map fun entry => (entry.1, ofJson entry.2) := by
  induction members with
  | nil => rfl
  | cons entry members ih => rw [ofJsonMembers, ih, List.map_cons]

theorem toJsonMembers_eq_map (all : List (String × Data)) :
    Data.toJsonMembers all = all.map fun entry => (entry.1, entry.2.toJson) := by
  induction all with
  | nil => rfl
  | cons entry all ih => rw [Data.toJsonMembers, ih, List.map_cons]

theorem ofData_object (all : List (String × Data)) :
    ofData (.object all) = .object (ascendingEntries (all.map fun entry => (entry.1, ofData entry.2))) := by
  have twice : (all.map fun entry => (entry.1, ofData entry.2)) =
      (Data.toJsonMembers all).map fun entry => (entry.1, ofJson entry.2) := by
    rw [toJsonMembers_eq_map, List.map_map]
    rfl
  rw [ofData, Data.toJson, ofJson, ofJsonMembers_eq_map, ← ascendingEntries_map, twice]

/-- A text is read within a nesting as a tree that stands for the value. -/
def ReadBack (levels : Nat) (text : String) (v : Value) : Prop :=
  ∃ data, ofData data = v ∧ ReadsAs (JsonText.value levels) (Utf8.encode text) data

theorem readBack_items {levels : Nat} {items : List Value} {texts : List String}
    (each : List.Forall₂ (fun item text => item.Shallow levels → ReadBack levels text item) items texts)
    (shallow : ∀ item ∈ items, item.Shallow levels) :
    ∃ all, all.map ofData = items ∧ List.Forall₂ (ReadsAs (JsonText.value levels)) (texts.map Utf8.encode) all := by
  induction each with
  | nil => exact ⟨[], rfl, .nil⟩
  | cons readBack _ ih =>
    obtain ⟨first, others⟩ := List.forall_mem_cons.mp shallow
    obtain ⟨data, rfl, read⟩ := readBack first
    obtain ⟨all, rfl, reads⟩ := ih others
    exact ⟨data :: all, rfl, .cons read reads⟩

theorem readBack_members {levels : Nat} {order : List (String × Value)} {texts : List String}
    (each : List.Forall₂ (fun item text => item.Shallow levels → ReadBack levels text item) (order.map Prod.snd) texts)
    (shallow : ∀ member ∈ order, member.2.Shallow levels) :
    ∃ all : List (String × Data), (all.map fun entry => (entry.1, ofData entry.2)) = order ∧
      List.Forall₂ (ReadsMember (JsonText.value levels))
        (((order.map fun member => Json.quote member.1).zip texts).map fun entry => Utf8.encode (entry.1 ++ ":" ++ entry.2)) all := by
  induction order generalizing texts with
  | nil =>
    cases each
    exact ⟨[], rfl, .nil⟩
  | cons member order ih =>
    obtain ⟨key, item⟩ := member
    cases each with
    | @cons _ text _ texts readBack later =>
      obtain ⟨first, others⟩ := List.forall_mem_cons.mp shallow
      obtain ⟨data, same, read⟩ := readBack first
      obtain ⟨all, rfl, reads⟩ := ih later others
      refine ⟨(key, data) :: all, by simp [same], ?_⟩
      exact .cons ⟨Utf8.encode text, encode_member key text, read⟩ reads

theorem Shallow.levels_pos {levels : Nat} {v : Value} (shallow : v.Shallow levels) (nested : 0 < v.depth) :
    ∃ inner, levels = inner + 1 :=
  Nat.exists_eq_succ_of_ne_zero (Nat.ne_zero_of_lt (Nat.lt_of_lt_of_le nested shallow.depth_le))

/-- Every text of a value is read back as that value, if the value nests no deeper than the reader goes. -/
theorem Written.readBack {levels : Nat} {v : Value} {text : String} (written : v.Written text) (shallow : v.Shallow levels) :
    ReadBack levels text v := by
  have opens := written.opens
  -- Each part is read whatever stands behind it, as long as that does not go on with a number.
  induction written using WrittenOr.induct generalizing levels with
  | null => exact ⟨.null, rfl, opens, fun rest _ => value_null levels rest⟩
  | bool b =>
    cases b with
    | true => exact ⟨.bool true, rfl, opens, fun rest _ => value_true levels rest⟩
    | false => exact ⟨.bool false, rfl, opens, fun rest _ => value_false levels rest⟩
  | int i =>
    obtain ⟨num, same, read⟩ := value_toString levels i
    exact ⟨.number num, same, opens, read⟩
  | float x => exact shallow.floatFree.elim
  | string s => exact ⟨.string s, rfl, opens, fun rest _ => value_quote levels s rest⟩
  | array items texts each ih =>
    obtain ⟨inner, rfl⟩ := shallow.levels_pos (Nat.succ_pos _)
    have assumed := ih.imp fun item text ⟨written, readBack⟩ (shallow : item.Shallow inner) =>
      readBack shallow (Written.opens written)
    obtain ⟨all, same, reads⟩ := readBack_items assumed shallow.item
    exact ⟨.array all, by rw [ofData_array, same], readsAs_array reads⟩
  | object members order texts reordered each ih =>
    obtain ⟨inner, rfl⟩ := shallow.levels_pos (Nat.succ_pos _)
    have assumed := ih.imp fun item text ⟨written, readBack⟩ (shallow : item.Shallow inner) =>
      readBack shallow (Written.opens written)
    have inOrder : ∀ member ∈ order, member.2.Shallow inner := fun member isMember =>
      shallow.member member (reordered.mem_iff.mpr isMember)
    obtain ⟨all, same, reads⟩ := readBack_members assumed inOrder
    have sorted : ascendingEntries order = members := ascendingEntries_of_perm shallow.canonical.1 reordered
    exact ⟨.object all, by rw [ofData_object, same, sorted], readsAs_object reads⟩

theorem ReadBack.parse {text : String} {v : Value} (readBack : ReadBack nestingLimit text v) :
    Value.parse (Utf8.encode text) = .ok v := by
  obtain ⟨data, same, -, read⟩ := readBack
  have whole := read [] numberEnds_nil
  rw [List.append_nil] at whole
  rw [Value.parse, JsonText.parse, parseWithin, whole]
  exact congrArg Except.ok same

/-- A value of no more than the nesting of the reader is read back from the whole of its text. -/
theorem Written.parse {v : Value} {text : String} (written : v.Written text) (shallow : v.Shallow nestingLimit) :
    Value.parse (Utf8.encode text) = .ok v :=
  (written.readBack shallow).parse

/-- A text is one record by itself, and read as the value. -/
structure IsRecord (v : Value) (text : String) : Prop where
  noReturn : '\r' ∉ text.toList
  noFeed : '\n' ∉ text.toList
  notBlank : isBlank text = false
  json : ∀ metadata, Record.json { body := Utf8.encode text, metadata } = .ok v

theorem Written.isRecord {v : Value} {text : String} (written : v.Written text) (shallow : v.Shallow nestingLimit) :
    v.IsRecord text where
  noReturn member := absurd (written.printable _ member) (by decide)
  noFeed member := absurd (written.printable _ member) (by decide)
  notBlank := written.notBlank
  json _ := written.parse shallow

theorem Written.recordText {v : Value} {text : String} (written : v.Written text) : RecordText text :=
  ⟨written.printable, written.notBlank⟩

end Value

end RecordQuery
