import Mathlib.Data.List.Perm.Basic
import RecordQuery.Proofs.JsonText
import RecordQuery.Proofs.Tables
import RecordQuery.Query.Machine
import RecordQuery.Text.Blank

/-!
# Written values

`Written` says which compact texts stand for a value: what the writer gives (`Canonical.written`), and the
same with the members of objects in any other order. Each such text begins with what no blank and no closing
bracket is (`Written.begins`) and holds no control (`Written.printable`), so it fits into one line.
-/

namespace RecordQuery

open JsonText

/-! ## Texts of numbers -/

/-- The characters of the texts of numbers. -/
def Numeric (c : Char) : Prop := c.isDigit = true ∨ c ∈ ['-', '+', '.', 'e']

/-- A text of the characters of numbers that begins as one. -/
structure NumberText (text : String) : Prop where
  numeric : ∀ c ∈ text.toList, Numeric c
  begins : ∃ c more, text.toList = c :: more ∧ (c.isDigit = true ∨ c = '-')

theorem numeric_of_mem_toDigits {n : Nat} {c : Char} (member : c ∈ Nat.toDigits 10 n) : Numeric c :=
  .inl (Nat.isDigit_of_mem_toDigits (by decide) (by decide) member)

/-- The first digit of a numeral. -/
theorem toDigits_eq_cons (n : Nat) : ∃ c more, Nat.toDigits 10 n = c :: more ∧ c.isDigit = true := by
  cases spelled : Nat.toDigits 10 n with
  | nil => exact absurd spelled Nat.toDigits_ne_nil
  | cons c more =>
    have member : c ∈ Nat.toDigits 10 n := spelled ▸ List.mem_cons_self
    exact ⟨c, more, rfl, Nat.isDigit_of_mem_toDigits (by decide) (by decide) member⟩

theorem numberText_repr (n : Nat) : NumberText n.repr := by
  obtain ⟨c, more, spelled, digit⟩ := toDigits_eq_cons n
  refine ⟨fun c member => ?_, c, more, by rw [Nat.toList_repr, spelled], .inl digit⟩
  rw [Nat.toList_repr] at member
  exact numeric_of_mem_toDigits member

theorem NumberText.minus {text : String} (number : NumberText text) : NumberText ("-" ++ text) := by
  refine ⟨fun c member => ?_, '-', text.toList, String.toList_append, .inr rfl⟩
  rw [String.toList_append] at member
  rcases List.mem_append.mp member with sign | digit
  · exact .inr (List.mem_cons.mpr (.inl (List.mem_singleton.mp sign)))
  · exact number.numeric c digit

theorem numberText_toString (i : Int) : NumberText (toString i) := by
  rw [Int.toString_eq_repr, Int.repr_eq_if]
  split
  · exact numberText_repr _
  · exact (numberText_repr _).minus

namespace Binary64

theorem numberText_positional (keepsPoint : Bool) (d : Decimal) : NumberText (positional keepsPoint d) := by
  obtain ⟨first, more, spelled, digit⟩ := toDigits_eq_cons d.digits
  have numeric : ∀ c ∈ Nat.toDigits 10 d.digits, Numeric c := fun c member => numeric_of_mem_toDigits member
  have zeros (n : Nat) : ∀ c ∈ List.replicate n '0', Numeric c := fun c member =>
    .inl ((List.mem_replicate.mp member).2 ▸ rfl)
  have point : Numeric '.' := .inr (by decide)
  have zero : Numeric '0' := .inl rfl
  unfold positional
  dsimp only
  split
  · refine ⟨?_, '0', _, String.toList_ofList, .inl rfl⟩
    simp only [String.toList_ofList, List.forall_mem_cons, List.forall_mem_append]
    exact ⟨zero, point, zeros _, numeric⟩
  split
  · refine ⟨?_, first, _, by rw [String.toList_ofList, spelled]; rfl, .inl digit⟩
    simp only [String.toList_ofList, List.forall_mem_append]
    refine ⟨⟨numeric, zeros _⟩, ?_⟩
    split
    · exact List.forall_mem_cons.mpr ⟨point, List.forall_mem_singleton.mpr zero⟩
    · exact List.forall_mem_nil _
  · refine ⟨?_, first, _, by rw [String.toList_ofList, spelled, List.take_succ_cons]; rfl, .inl digit⟩
    simp only [String.toList_ofList, List.forall_mem_append, List.forall_mem_cons]
    exact ⟨fun c member => numeric c (List.mem_of_mem_take member), point,
      fun c member => numeric c (List.mem_of_mem_drop member)⟩

theorem numberText_scientific (plus : Bool) (d : Decimal) : NumberText (scientific plus d) := by
  obtain ⟨first, more, spelled, digit⟩ := toDigits_eq_cons d.digits
  have numeric : ∀ c ∈ first :: more, Numeric c := fun c member => numeric_of_mem_toDigits (spelled ▸ member)
  obtain ⟨ofFirst, ofMore⟩ := List.forall_mem_cons.mp numeric
  have point : Numeric '.' := .inr (by decide)
  have sign : ∀ c ∈ (if plus && 0 ≤ d.leading then "+" else "").toList, Numeric c := by
    split
    · exact fun c member => .inr (by simp_all)
    · simp
  have letter : ∀ c ∈ "e".toList, Numeric c := fun c member => .inr (by simp_all)
  unfold scientific
  rw [spelled]
  constructor
  · simp only [String.toList_append, String.toList_ofList, List.forall_mem_append]
    refine ⟨⟨⟨?_, letter⟩, sign⟩, (numberText_toString d.leading).numeric⟩
    cases more with
    | nil => simpa using ofFirst
    | cons c more =>
      simp only [List.forall_mem_cons]
      exact ⟨ofFirst, point, List.forall_mem_cons.mp ofMore⟩
  · simp only [String.toList_append, String.toList_ofList]
    cases more with
    | nil => exact ⟨first, _, rfl, .inl digit⟩
    | cons c more => exact ⟨first, _, rfl, .inl digit⟩

/-- The text of a finite number. -/
theorem numberText_render (layout : Layout) {x : Binary64} (isFinite : x.isFinite = true) :
    NumberText (layout.render x) := by
  have noNaN : x.isNaN = false := by
    simp only [Binary64.isFinite, bne_iff_ne, ne_eq] at isFinite
    simp [isNaN, isFinite]
  unfold Layout.render
  simp only [noNaN, isFinite, Bool.false_eq_true, if_false, Bool.not_true]
  have signed {text : String} (number : NumberText text) : NumberText ((if x.negative then "-" else "") ++ text) := by
    split
    · exact number.minus
    · rwa [String.empty_append]
  split
  · refine signed ?_
    split
    · exact ⟨by simp [Numeric], '0', ['.', '0'], rfl, .inl rfl⟩
    · exact ⟨by simp [Numeric], '0', [], rfl, .inl rfl⟩
  · refine signed ?_
    split
    · exact numberText_scientific _ _
    · exact numberText_positional _ _

end Binary64

/-! ## Texts of values -/

namespace Value

/-- A compact JSON text of a value, with the members of objects in any order and a word of one's choice for every NaN and
infinity. -/
inductive WrittenOr (word : String) : Value → String → Prop
  | null : WrittenOr word .null "null"
  | bool (b : Bool) : WrittenOr word (.bool b) (if b then "true" else "false")
  | int (i : Int64) : WrittenOr word (.int i) (toString i.toInt)
  | float (x : Binary64) : WrittenOr word (.float x) (if x.isFinite then Binary64.jsonLayout.render x else word)
  | string (s : String) : WrittenOr word (.string s) (Json.quote s)
  | array {items : List Value} {texts : List String} (each : List.Forall₂ (WrittenOr word) items texts) :
    WrittenOr word (.array items) (Json.writeArray texts)
  | object {members order : List (String × Value)} {texts : List String} (reordered : members.Perm order)
    (each : List.Forall₂ (WrittenOr word) (order.map Prod.snd) texts) :
    WrittenOr word (.object members) (Json.writeObject ((order.map fun member => Json.quote member.1).zip texts))

/-- A compact JSON text of a value, with the members of objects in any order. -/
abbrev Written : Value → String → Prop := WrittenOr "null"

/-- Induction over a text: what is to be shown may be assumed of the parts of an array or an object. -/
theorem WrittenOr.induct {word : String} {motive : (v : Value) → (text : String) → WrittenOr word v text → Prop}
    (null : motive _ _ .null) (bool : ∀ b, motive _ _ (.bool b)) (int : ∀ i, motive _ _ (.int i))
    (float : ∀ x, motive _ _ (.float x)) (string : ∀ s, motive _ _ (.string s))
    (array : ∀ items texts (each : List.Forall₂ (WrittenOr word) items texts),
      List.Forall₂ (fun item text => ∃ written, motive item text written) items texts → motive _ _ (.array each))
    (object : ∀ (members order : List (String × Value)) texts (reordered : members.Perm order)
      (each : List.Forall₂ (WrittenOr word) (order.map Prod.snd) texts),
      List.Forall₂ (fun item text => ∃ written, motive item text written) (order.map Prod.snd) texts →
        motive _ _ (.object reordered each))
    {v : Value} {text : String} (written : WrittenOr word v text) : motive v text written :=
  @WrittenOr.rec word motive
    (fun items texts _ => List.Forall₂ (fun item text => ∃ written, motive item text written) items texts)
    null bool int float string (fun {items texts} each assumed => array items texts each assumed)
    (fun {members order texts} reordered each assumed => object members order texts reordered each assumed)
    .nil (fun written _ first later => .cons ⟨written, first⟩ later) v text written

mutual

/-- At no depth stands a float. -/
def FloatFree : Value → Prop
  | .float _ => False
  | .array items => FloatFreeItems items
  | .object members => FloatFreeMembers members
  | .null | .bool _ | .int _ | .string _ => True

def FloatFreeItems : List Value → Prop
  | [] => True
  | item :: rest => item.FloatFree ∧ FloatFreeItems rest

def FloatFreeMembers : List (String × Value) → Prop
  | [] => True
  | (_, member) :: rest => member.FloatFree ∧ FloatFreeMembers rest

end

mutual

/-- How deep arrays and objects nest. -/
def depth : Value → Nat
  | .array items => depthItems items + 1
  | .object members => depthMembers members + 1
  | .null | .bool _ | .int _ | .float _ | .string _ => 0

def depthItems : List Value → Nat
  | [] => 0
  | item :: rest => max item.depth (depthItems rest)

def depthMembers : List (String × Value) → Nat
  | [] => 0
  | (_, member) :: rest => max member.depth (depthMembers rest)

end

theorem depth_item {items : List Value} {item : Value} (isItem : item ∈ items) : item.depth < depth (.array items) := by
  rw [depth]
  induction items with
  | nil => cases isItem
  | cons first items ih =>
    rw [depthItems]
    rcases List.mem_cons.mp isItem with rfl | isItem
    · omega
    · have := ih isItem
      omega

theorem depth_member {members : List (String × Value)} {key : String} {member : Value}
    (isMember : (key, member) ∈ members) : member.depth < depth (.object members) := by
  rw [depth]
  induction members with
  | nil => cases isMember
  | cons first members ih =>
    rw [depthMembers]
    rcases List.mem_cons.mp isMember with rfl | isMember
    · exact Nat.lt_succ_of_le (Nat.le_max_left _ _)
    · have := ih isMember
      omega

/-- A value without floats, with ascending keys, and with no more than some levels of arrays and objects. -/
structure Shallow (levels : Nat) (v : Value) : Prop where
  canonical : v.Canonical
  floatFree : v.FloatFree
  depth_le : v.depth ≤ levels

theorem Shallow.item {levels : Nat} {items : List Value} (shallow : Shallow (levels + 1) (.array items)) :
    ∀ item ∈ items, item.Shallow levels := by
  obtain ⟨canonical, floatFree, depth_le⟩ := shallow
  simp only [Canonical, FloatFree, depth] at canonical floatFree depth_le
  induction items with
  | nil => simp
  | cons item items ih =>
    simp only [CanonicalItems, FloatFreeItems, depthItems] at canonical floatFree depth_le
    have first : item.Shallow levels := ⟨canonical.1, floatFree.1, by omega⟩
    have later := ih canonical.2 floatFree.2 (by omega)
    simpa using ⟨first, later⟩

theorem Shallow.member {levels : Nat} {members : List (String × Value)} (shallow : Shallow (levels + 1) (.object members)) :
    ∀ member ∈ members, member.2.Shallow levels := by
  obtain ⟨canonical, floatFree, depth_le⟩ := shallow
  simp only [Canonical, FloatFree, depth] at canonical floatFree depth_le
  replace canonical := canonical.2
  induction members with
  | nil => simp
  | cons member members ih =>
    simp only [CanonicalMembers, FloatFreeMembers, depthMembers] at canonical floatFree depth_le
    have first : member.2.Shallow levels := ⟨canonical.1, floatFree.1, by omega⟩
    have later := ih floatFree.2 (by omega) canonical.2
    intro other isMember
    rcases List.mem_cons.mp isMember with rfl | isMember
    · exact first
    · exact later other isMember


/-! ## What texts begin with -/

/-- The first characters of JSON texts. -/
def Begins (c : Char) : Prop := c ∈ ['n', 't', 'f', '"', '[', '\x7b', '-'] ∨ c.isDigit = true


theorem Begins.facts {c : Char} (begins : Begins c) :
    ∃ byte, Utf8.encodeChar c = [byte] ∧ isBlankByte byte = false ∧ byte ≠ ']'.toUInt8 ∧ isWhiteSpace c = false := by
  rcases begins with mark | digit
  · simp only [List.mem_cons, List.not_mem_nil, or_false] at mark
    rcases mark with rfl | rfl | rfl | rfl | rfl | rfl | rfl <;> exact ⟨_, rfl, by decide, by decide, by decide⟩
  · obtain ⟨byte, ofByte, -⟩ := isDigit_ofChar digit
    refine ⟨_, byte, isBlankByte_of_isDigit ofByte, ne_of_isDigit ofByte (by decide), ?_⟩
    have range := toNat_of_isDigit digit
    simp only [isWhiteSpace, whiteSpaceRanges, List.any_eq_false, List.mem_cons, List.not_mem_nil, or_false]
    rintro _ (rfl | rfl | rfl | rfl | rfl | rfl | rfl | rfl | rfl | rfl) <;> simp <;> omega

theorem Written.begins {v : Value} {text : String} (written : v.Written text) :
    ∃ c more, text.toList = c :: more ∧ Begins c := by
  have ofNumber {text : String} (number : NumberText text) : ∃ c more, text.toList = c :: more ∧ Begins c := by
    obtain ⟨c, more, spelled, first⟩ := number.begins
    exact ⟨c, more, spelled, first.elim .inr fun minus => .inl (by rw [minus]; decide)⟩
  cases written with
  | null => exact ⟨'n', _, rfl, .inl (by decide)⟩
  | bool b =>
    cases b with
    | true => exact ⟨'t', _, rfl, .inl (by decide)⟩
    | false => exact ⟨'f', _, rfl, .inl (by decide)⟩
  | int i => exact ofNumber (numberText_toString i.toInt)
  | float x =>
    split
    next isFinite => exact ofNumber (Binary64.numberText_render _ isFinite)
    next => exact ⟨'n', _, rfl, .inl (by decide)⟩
  | string s => exact ⟨'"', _, String.toList_ofList, .inl (by decide)⟩
  | array each =>
    rw [Json.writeArray, String.toList_append, String.toList_append]
    exact ⟨'[', _, rfl, .inl (by decide)⟩
  | object reordered each =>
    rw [Json.writeObject, String.toList_append, String.toList_append]
    exact ⟨'\x7b', _, rfl, .inl (by decide)⟩

theorem Written.notBlank {v : Value} {text : String} (written : v.Written text) : isBlank text = false := by
  obtain ⟨c, more, spelled, begins⟩ := written.begins
  obtain ⟨-, -, -, -, notWhite⟩ := begins.facts
  rw [isBlank, spelled, List.all_cons, notWhite, Bool.false_and]

/-! ## No controls -/

theorem printable_intercalate {texts : List String} (each : ∀ text ∈ texts, Printable text) :
    Printable (",".intercalate texts) := by
  induction texts with
  | nil => intro c member; simp at member
  | cons text texts ih =>
    obtain ⟨first, others⟩ := List.forall_mem_cons.mp each
    cases texts with
    | nil => rwa [String.intercalate_singleton]
    | cons next texts =>
      rw [String.intercalate_cons_cons]
      exact (first.append (printable_of_all (by decide))).append (ih others)

theorem printable_quote (s : String) : Printable (Json.quote s) := by
  have escaped (c : Char) : ∀ d ∈ Json.escapeChar c, 0x20 ≤ d.toNat := by
    by_cases short : c ∈ shortEscaped
    · have all : ((Json.escapeChar c).all fun d => 0x20 ≤ d.toNat) = true := by
        simp only [shortEscaped, List.mem_cons, List.not_mem_nil, or_false] at short
        rcases short with rfl | rfl | rfl | rfl | rfl | rfl | rfl <;> decide
      simpa using all
    have printable : ∀ n < 16, 0x20 ≤ (Nat.digitChar n).toNat := by decide
    rw [escapeChar_of_long short]
    split
    next control =>
      have high := printable (c.toNat / 16) (by omega)
      have low := printable (c.toNat % 16) (by omega)
      simp [high, low]
    next printable => simpa using Nat.not_lt.mp printable
  intro c member
  rw [Json.quote, String.toList_ofList] at member
  rcases List.mem_cons.mp member with rfl | member
  · decide
  rcases List.mem_append.mp member with inside | last
  · obtain ⟨original, -, spelled⟩ := List.mem_flatMap.mp inside
    exact escaped original c spelled
  · obtain rfl := List.mem_singleton.mp last
    decide

theorem printable_writeArray {texts : List String} (each : ∀ text ∈ texts, Printable text) : Printable (Json.writeArray texts) :=
  (Printable.append (@printable_of_all "[" (by decide)) (printable_intercalate each)).append (@printable_of_all "]" (by decide))

theorem printable_writeObject {members : List (String × String)}
    (each : ∀ member ∈ members, Printable member.1 ∧ Printable member.2) : Printable (Json.writeObject members) := by
  have inside : ∀ part ∈ members.map fun member => member.1 ++ ":" ++ member.2, Printable part := by
    intro part isPart
    obtain ⟨member, isMember, rfl⟩ := List.mem_map.mp isPart
    obtain ⟨ofKey, ofValue⟩ := each member isMember
    exact (ofKey.append (@printable_of_all ":" (by decide))).append ofValue
  exact (Printable.append (@printable_of_all "\x7b" (by decide)) (printable_intercalate inside)).append (@printable_of_all "\x7d" (by decide))

theorem printable_ofNumber {text : String} (number : NumberText text) : Printable text := by
  intro c member
  rcases number.numeric c member with digit | mark
  · have range := toNat_of_isDigit digit
    omega
  · simp only [List.mem_cons, List.not_mem_nil, or_false] at mark
    rcases mark with rfl | rfl | rfl | rfl <;> decide

theorem printable_of_each {items : List Value} {texts : List String}
    (each : List.Forall₂ (fun item text => ∃ _ : Written item text, Printable text) items texts) :
    ∀ text ∈ texts, Printable text := by
  induction each with
  | nil => exact List.forall_mem_nil _
  | cons first _ ih => exact List.forall_mem_cons.mpr ⟨first.2, ih⟩

theorem Written.printable {v : Value} {text : String} (written : v.Written text) : Printable text := by
  induction written using WrittenOr.induct with
  | null => exact printable_of_all (by decide)
  | bool b => cases b <;> exact printable_of_all (by decide)
  | int i => exact printable_ofNumber (numberText_toString i.toInt)
  | float x =>
    split
    next isFinite => exact printable_ofNumber (Binary64.numberText_render _ isFinite)
    next => exact printable_of_all (by decide)
  | string s => exact printable_quote s
  | array items texts each ih => exact printable_writeArray (printable_of_each ih)
  | object members order texts reordered each ih =>
    refine printable_writeObject fun (key, text) isEntry => ?_
    obtain ⟨isKey, isText⟩ := List.of_mem_zip isEntry
    obtain ⟨member, -, rfl⟩ := List.mem_map.mp isKey
    exact ⟨printable_quote member.1, printable_of_each ih text isText⟩

/-! ## What the writer gives -/

theorem writeItems_eq_map (items : List Value) : writeItems items = items.map write := by
  induction items with
  | nil => rfl
  | cons item items ih => rw [writeItems, ih, List.map_cons]

theorem writeMembers_eq_map (members : List (String × Value)) :
    writeMembers members = members.map fun member => (Json.quote member.1, member.2.write) := by
  induction members with
  | nil => rfl
  | cons member members ih => rw [writeMembers, ih, List.map_cons]

mutual

/-- No control stands in the text of a value, whatever the order of its members. -/
theorem printable_write : (v : Value) → Printable v.write
  | .null => printable_of_all (by decide)
  | .bool b => by cases b <;> exact printable_of_all (by decide)
  | .int i => printable_ofNumber (numberText_toString i.toInt)
  | .float x => by
    rw [write]
    split
    next isFinite => exact printable_ofNumber (Binary64.numberText_render _ isFinite)
    next => exact printable_of_all (by decide)
  | .string s => printable_quote s
  | .array items => by
    rw [write, writeItems_eq_map]
    exact printable_writeArray (printable_writeItems items)
  | .object members => by
    refine printable_writeObject fun entry isEntry => ?_
    have ofMember := mem_ascendingEntries isEntry
    rw [writeMembers_eq_map] at ofMember
    obtain ⟨member, isMember, rfl⟩ := List.mem_map.mp ofMember
    exact ⟨printable_quote member.1, printable_writeMembers members member isMember⟩

theorem printable_writeItems : (items : List Value) → ∀ text ∈ items.map write, Printable text
  | [] => List.forall_mem_nil _
  | item :: items => List.forall_mem_cons.mpr ⟨printable_write item, printable_writeItems items⟩

theorem printable_writeMembers : (members : List (String × Value)) → ∀ member ∈ members, Printable member.2.write
  | [] => List.forall_mem_nil _
  | (_, item) :: members => List.forall_mem_cons.mpr ⟨printable_write item, printable_writeMembers members⟩

end

/-- Strings that are quoted the same are the same, since each is read back. -/
theorem quote_injective {left right : String} (same : Json.quote left = Json.quote right) : left = right := by
  have tails : quotedTail left = quotedTail right := by
    have bytes := congrArg Utf8.encode same
    rw [encode_quote, encode_quote] at bytes
    exact (List.cons.inj bytes).2
  have read := string_quotedTail left []
  rw [tails, string_quotedTail right []] at read
  injection read with read
  exact (Prod.mk.inj read).1.symm

/-- The members of an object as they are written, in the order of their quoted keys. -/
theorem written_members {members : List (String × Value)} (ascending : Ascending members)
    (each : ∀ member ∈ members, member.2.Written member.2.write) : (Value.object members).Written (Value.object members).write := by
  have distinct : ((writeMembers members).map Prod.fst).Nodup := by
    rw [writeMembers_eq_map, List.map_map]
    have keys : ((members.map Prod.fst).map Json.quote).Nodup :=
      List.Pairwise.map Json.quote (fun _ _ different same => different (quote_injective same)) ascending.nodup
    rwa [List.map_map] at keys
  have sorted : (ascendingEntries (writeMembers members)).Perm
      (members.map fun member => (Json.quote member.1, member.2.write)) := by
    rw [← writeMembers_eq_map]
    exact ascendingEntries_perm distinct
  obtain ⟨order, spelled, reordered⟩ : ∃ order : List (String × Value), ascendingEntries (writeMembers members) =
      order.map (fun member => (Json.quote member.1, member.2.write)) ∧ order.Perm members := by
    have split := congrFun₂ (List.eq_map_comp_perm fun member : String × Value => (Json.quote member.1, member.2.write))
      (ascendingEntries (writeMembers members)) members
    exact split.mpr sorted
  have parts : (order.map fun member => Json.quote member.1).zip ((order.map Prod.snd).map write) =
      ascendingEntries (writeMembers members) := by
    rw [spelled, List.map_map, List.zip_map']
    rfl
  have inOrder : List.Forall₂ Written (order.map Prod.snd) ((order.map Prod.snd).map write) := by
    rw [List.forall₂_map_right_iff, List.forall₂_same]
    intro item isItem
    obtain ⟨member, isMember, rfl⟩ := List.mem_map.mp isItem
    exact each member (reordered.mem_iff.mp isMember)
  rw [write, ← parts]
  exact .object reordered.symm inOrder

mutual

/-- The text of a value is a text that stands for it. -/
theorem Canonical.written : (v : Value) → v.Canonical → v.Written v.write
  | .null, _ => .null
  | .bool b, _ => .bool b
  | .int i, _ => .int i
  | .float x, _ => .float x
  | .string s, _ => .string s
  | .array items, canonical => by
    rw [write, writeItems_eq_map]
    exact .array (List.forall₂_map_right_iff.mpr (List.forall₂_same.mpr (writtenItems items canonical)))
  | .object members, canonical => written_members canonical.1 (writtenMembers members canonical.2)

theorem writtenItems : (items : List Value) → CanonicalItems items → ∀ item ∈ items, item.Written item.write
  | [], _ => List.forall_mem_nil _
  | item :: items, canonical =>
    List.forall_mem_cons.mpr ⟨Canonical.written item canonical.1, writtenItems items canonical.2⟩

theorem writtenMembers : (members : List (String × Value)) → CanonicalMembers members →
    ∀ member ∈ members, member.2.Written member.2.write
  | [], _ => List.forall_mem_nil _
  | (_, item) :: members, canonical =>
    List.forall_mem_cons.mpr ⟨Canonical.written item canonical.1, writtenMembers members canonical.2⟩

end

end Value

/-! ## What a world writes -/

/-- The text for a value stands for it, whatever order the world gives the members of objects. -/
def World.Faithful (world : World) : Prop := ∀ place (v : Value), v.Canonical → v.Written (world.write place v)

theorem World.Faithful.texts {world : World} (faithful : world.Faithful) {values : List Value}
    (canonical : ∀ v ∈ values, v.Canonical) : List.Forall₂ Value.Written values (world.texts values) := by
  rw [World.texts, List.forall₂_iff_get]
  refine ⟨List.length_mapIdx.symm, fun i inValues inTexts => ?_⟩
  simpa using faithful i _ (canonical _ (List.getElem_mem inValues))

end RecordQuery
