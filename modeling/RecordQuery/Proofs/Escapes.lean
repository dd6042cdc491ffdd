import Mathlib.Algebra.Ring.Nat
import RecordQuery.Proofs.PlainText
import RecordQuery.Proofs.Remainders

/-!
# What escapes stand for

An escape is heavier than the bytes that it stands for, if a backslash weighs two and the last digit of its long escape
one. So a reader of JSON text gives out no more weight than it takes in, and as much only where it meets no escape
(`Spends`). The text of a value weighs what the strings of the value do. Hence the value is read back from its text
exactly if none of these strings needs an escape (`Value.seedText_reads_back_iff`).
-/

namespace RecordQuery

namespace JsonText

variable {α β : Type} {w : α → Nat} {u : β → Nat} {P : α → Prop} {Q : β → Prop} {available : Nat}

/-! ## Weights -/

/-- What bytes weigh: a backslash two, and one the digit in which its long escape ends, be it a capital or not. So every
escape weighs more than what it stands for. -/
def weigh (bytes : Bytes) : Nat := 2 * bytes.count '\\'.toUInt8 + bytes.count 'c'.toUInt8 + bytes.count 'C'.toUInt8

@[simp] theorem weigh_nil : weigh [] = 0 := rfl

theorem weigh_append (left right : Bytes) : weigh (left ++ right) = weigh left + weigh right := by
  simp only [weigh, List.count_append]
  omega

theorem weigh_cons (byte : UInt8) (rest : Bytes) : weigh (byte :: rest) = weigh [byte] + weigh rest :=
  weigh_append [byte] rest

theorem weigh_le_of_suffix {rest input : Bytes} (ending : rest <:+ input) : weigh rest ≤ weigh input := by
  obtain ⟨front, rfl⟩ := ending
  rw [weigh_append]
  omega

theorem weigh_singleton (byte : UInt8) :
    weigh [byte] = if byte = '\\'.toUInt8 then 2 else if byte = 'c'.toUInt8 ∨ byte = 'C'.toUInt8 then 1 else 0 := by
  by_cases backslash : byte = '\\'.toUInt8
  · subst backslash
    decide
  by_cases digit : byte = 'c'.toUInt8 ∨ byte = 'C'.toUInt8
  · rcases digit with rfl | rfl <;> decide
  · rw [if_neg backslash, if_neg digit]
    rw [not_or] at digit
    simp [weigh, backslash, digit]

/-- A byte that weighs nothing. -/
def Light (byte : UInt8) : Prop := weigh [byte] = 0

instance (byte : UInt8) : Decidable (Light byte) := inferInstanceAs (Decidable (weigh [byte] = 0))

theorem weigh_eq_zero {bytes : Bytes} (light : ∀ byte ∈ bytes, Light byte) : weigh bytes = 0 := by
  induction bytes with
  | nil => rfl
  | cons byte bytes ih =>
    obtain ⟨first, others⟩ := List.forall_mem_cons.mp light
    rw [weigh_cons, first, ih others]

theorem light_of_ne {byte : UInt8} (noBackslash : byte ≠ '\\'.toUInt8) (noSmall : byte ≠ 'c'.toUInt8)
    (noCapital : byte ≠ 'C'.toUInt8) : Light byte := by
  rw [Light, weigh_singleton, if_neg noBackslash, if_neg (not_or.mpr ⟨noSmall, noCapital⟩)]

theorem light_of_wide {byte : UInt8} (wide : 0x80 ≤ byte.toNat) : Light byte := by
  have other {mark : UInt8} (ascii : mark.toNat < 0x80) : byte ≠ mark := by
    rintro rfl
    omega
  exact light_of_ne (other (by decide)) (other (by decide)) (other (by decide))

theorem weigh_encodeChar_le {c : Char} (noBackslash : c ≠ '\\') : weigh (Utf8.encodeChar c) ≤ 1 := by
  by_cases ascii : c.toNat < 0x80
  · have other : UInt8.ofNat c.toNat ≠ '\\'.toUInt8 := by
      intro same
      have code := congrArg UInt8.toNat same
      rw [Utf8.toNat_ofNat (by omega)] at code
      exact noBackslash (Char.toNat_inj.mp code)
    rw [Utf8.encodeChar_of_ascii ascii, weigh_singleton, if_neg other]
    split <;> decide
  · rw [weigh_eq_zero fun byte member => light_of_wide (Utf8.le_of_mem_encodeChar (Nat.not_lt.mp ascii) member)]
    exact Nat.zero_le 1

/-! ## Escapes -/

/-- A short escape stands for its letter or a control. -/
theorem shortEscape?_cases {letter byte : UInt8} (short : shortEscape? letter = some byte) : byte = letter ∨ Light byte := by
  unfold shortEscape? at short
  split at short
  · exact .inl (Option.some.inj short).symm
  · right
    repeat' split at short
    all_goals cases short
    all_goals decide

theorem hexValue?_cases {byte : UInt8} {n : Nat} (digit : hexValue? byte = some n) :
    n < 16 ∧ (n = 12 → byte.toNat = 'c'.toNat ∨ byte.toNat = 'C'.toNat) := by
  have decimal : '0'.toNat = 48 ∧ '9'.toNat = 57 := by decide
  have small : 'a'.toNat = 97 ∧ 'c'.toNat = 99 ∧ 'f'.toNat = 102 := by decide
  have capital : 'A'.toNat = 65 ∧ 'C'.toNat = 67 ∧ 'F'.toNat = 70 := by decide
  unfold hexValue? at digit
  dsimp only at digit
  split at digit
  next =>
    have value := Option.some.inj digit
    omega
  next =>
    split at digit
    next =>
      have value := Option.some.inj digit
      omega
    next =>
      split at digit
      next =>
        have value := Option.some.inj digit
        omega
      next => cases digit

/-- The digit twelve has two spellings, and both weigh. -/
theorem weigh_of_hexValue? {byte : UInt8} (digit : hexValue? byte = some 12) : weigh [byte] = 1 := by
  rcases (hexValue?_cases digit).2 rfl with small | capital
  · obtain rfl : byte = 'c'.toUInt8 := UInt8.toNat_inj.mp small
    decide
  · obtain rfl : byte = 'C'.toUInt8 := UInt8.toNat_inj.mp capital
    decide

theorem weigh_hexEscape {input rest : Bytes} (read : hexEscape input = .ok ('\\'.toNat, rest)) :
    weigh rest + 1 ≤ weigh input := by
  unfold hexEscape at read
  split at read
  next a b c d rest' =>
    split at read
    next high upper lower last ofHigh ofUpper ofLower ofLast =>
      obtain ⟨value, rfl⟩ : ((high * 16 + upper) * 16 + lower) * 16 + last = '\\'.toNat ∧ rest' = rest := by
        simpa using read
      have backslash : '\\'.toNat = 5 * 16 + 12 := by decide
      have small := (hexValue?_cases ofLast).1
      obtain rfl : last = 12 := by omega
      have heavy := weigh_of_hexValue? ofLast
      rw [weigh_cons a, weigh_cons b, weigh_cons c, weigh_cons d]
      omega
    next => cases read
  next => cases read

theorem eq_toNat_of_ofNat {n : Nat} {c : Char} (same : Char.ofNat n = c) (real : c ≠ '\x00') : n = c.toNat := by
  by_cases valid : n.isValidChar
  · rw [← same, Utf8.toNat_char valid]
  · rw [Char.ofNat, dif_neg valid] at same
    exact absurd same.symm real

/-- A backslash is no pair of surrogates. -/
theorem hexEscape_of_codePoint {input rest : Bytes} (read : codePoint input = .ok ('\\'.toNat, rest)) :
    hexEscape input = .ok ('\\'.toNat, rest) := by
  obtain ⟨⟨first, left⟩, found, onward⟩ := bind_eq_ok read
  dsimp only at onward
  split at onward
  next => cases onward
  split at onward
  next =>
    cases onward
    exact found
  split at onward
  next => cases onward
  split at onward
  next => cases onward
  split at onward
  next => cases onward
  split at onward
  next => cases onward
  obtain ⟨⟨second, left'⟩, -, whole⟩ := bind_eq_ok onward
  dsimp only at whole
  split at whole
  next => cases whole
  next =>
    have backslash : '\\'.toNat = 92 := by decide
    have value := congrArg Prod.fst (Except.ok.inj whole)
    dsimp only at value
    omega

theorem weigh_codePoint {input rest : Bytes} {point : Nat} (read : codePoint input = .ok (point, rest)) :
    weigh (Utf8.encodeChar (Char.ofNat point)) + weigh rest ≤ weigh input + 1 := by
  by_cases backslash : Char.ofNat point = '\\'
  · obtain rfl : point = '\\'.toNat := eq_toNat_of_ofNat backslash (by decide)
    have lighter := weigh_hexEscape (hexEscape_of_codePoint read)
    have twice : weigh (Utf8.encodeChar '\\') = 2 := by decide
    rw [backslash, twice]
    omega
  · have left := weigh_le_of_suffix (leaves_codePoint input point rest read).1
    have light := weigh_encodeChar_le backslash
    omega

/-- What an escape stands for weighs less than the escape with its backslash. -/
theorem weigh_escape {input bytes rest : Bytes} (read : escape input = .ok (bytes, rest)) :
    weigh bytes + weigh rest ≤ weigh input + 1 := by
  cases input with
  | nil => cases read
  | cons letter input =>
    rw [escape] at read
    rw [weigh_cons]
    split at read
    next byte short =>
      cases read
      rcases shortEscape?_cases short with rfl | light
      · omega
      · rw [light]
        omega
    next =>
      split at read
      next =>
        obtain ⟨⟨point, left⟩, found, same⟩ := bind_eq_ok read
        cases same
        have lighter := weigh_codePoint found
        omega
      next => cases read

/-! ## What readers spend -/

/-- What is read, if anything is, weighs with what is left no more than there was, and has a property if no weight is
lost. -/
def Spends (available : Nat) (w : α → Nat) (P : α → Prop) (read : Except Failure (α × Bytes)) : Prop :=
  ∀ a rest, read = .ok (a, rest) → w a + weigh rest ≤ available ∧ (w a + weigh rest = available → P a)

namespace Spends

theorem ok {a : α} {rest : Bytes} (enough : w a + weigh rest ≤ available) (holds : w a + weigh rest = available → P a) :
    Spends available w P (.ok (a, rest)) := by
  rintro _ _ ⟨⟩
  exact ⟨enough, holds⟩

theorem error (failure : Failure) : Spends available w P (.error failure) := nofun

theorem of_bind {γ : Type} {x : Except Failure γ} {f : γ → Except Failure (α × Bytes)}
    (next : ∀ c, x = .ok c → Spends available w P (f c)) : Spends available w P (x >>= f) := by
  cases x with
  | error failure => exact error failure
  | ok c => exact next c rfl

/-- If no weight is lost at all, none is lost by the first reader. -/
theorem bind {read : Except Failure (α × Bytes)} {f : α × Bytes → Except Failure (β × Bytes)}
    (first : Spends available w P read)
    (next : ∀ a rest, Spends (w a + weigh rest) u (fun b => P a → Q b) (f (a, rest))) : Spends available u Q (read >>= f) := by
  refine of_bind fun ⟨a, rest⟩ started => ?_
  obtain ⟨enough, holds⟩ := first a rest started
  intro b left ended
  obtain ⟨less, onward⟩ := next a rest b left ended
  exact ⟨by omega, fun lossless => onward (by omega) (holds (by omega))⟩

theorem ite {condition : Prop} [Decidable condition] {x y : Except Failure (α × Bytes)} (yes : Spends available w P x)
    (no : Spends available w P y) : Spends available w P (if condition then x else y) := by
  split
  · exact yes
  · exact no

theorem behind {inner input : Bytes} {read : Except Failure (α × Bytes)} (spends : Spends (weigh inner) w P read)
    (ending : inner <:+ input) : Spends (weigh input) w P read := by
  intro a rest ended
  obtain ⟨enough, holds⟩ := spends a rest ended
  have less := weigh_le_of_suffix ending
  exact ⟨by omega, fun lossless => holds (by omega)⟩

/-- With something set apart. -/
theorem apart {read : Except Failure (α × Bytes)} (spends : Spends available w P read) (kept : Nat) :
    Spends (kept + available) (fun a => kept + w a) P read := by
  intro a rest ended
  obtain ⟨enough, holds⟩ := spends a rest ended
  dsimp only
  exact ⟨by omega, fun lossless => holds (by omega)⟩

end Spends

/-! ## Strings -/

/-- A string that is read without a loss of weight has no escapes. -/
theorem spends_stringBytes (input : Bytes) :
    Spends (weigh input) weigh (fun bytes => ∀ byte ∈ bytes, Plain byte) (stringBytes input) := by
  fun_induction stringBytes input with
  | case1 | case3 | case4 | case6 | case7 => exact .error _
  | case2 rest =>
    rw [weigh_cons]
    exact .ok (by rw [weigh_nil]; omega) fun _ => List.forall_mem_nil _
  | case5 rest bytes left escaped _ more after read _ ih =>
    have lighter := weigh_escape escaped
    obtain ⟨enough, -⟩ := ih more after read
    have backslash : weigh ['\\'.toUInt8] = 2 := by decide
    rw [weigh_cons, backslash]
    refine .ok ?_ fun lossless => ?_
    · rw [weigh_append]
      omega
    · rw [weigh_append] at lossless
      omega
  | case8 byte rest noQuote noBackslash noControl more after read ih =>
    obtain ⟨enough, plain⟩ := ih more after read
    rw [weigh_cons]
    refine .ok ?_ fun lossless => ?_
    · rw [weigh_cons]
      omega
    · rw [weigh_cons byte more] at lossless
      refine List.forall_mem_cons.mpr ⟨⟨noQuote, noBackslash, ?_⟩, plain (by omega)⟩
      rw [UInt8.lt_iff_toNat_lt] at noControl
      exact Nat.not_lt.mp noControl

theorem spends_string (input : Bytes) :
    Spends (weigh input) (fun s => weigh (Utf8.encode s)) PlainString (string input) := by
  refine (spends_stringBytes input).bind fun bytes rest => ?_
  dsimp only
  split
  next s decoded =>
    have spelled := Utf8.encode_of_decode? decoded
    rw [← spelled]
    exact .ok (Nat.le_refl _) fun _ plain => plainString_iff.mpr plain
  next => exact .error _

/-! ## Arrays and objects -/

section

variable {read : Bytes → Except Failure (α × Bytes)} (each : ∀ input, Spends (weigh input) w P (read input))
include each

theorem spends_items (bound : Bytes) (first : Bool) (input : Bytes) :
    Spends (weigh input) (fun all => (all.map w).sum) (fun all => ∀ a ∈ all, P a) (items read bound first input) := by
  induction bound generalizing first input with
  | nil => exact .error _
  | cons _ bound ih =>
    refine .of_bind fun ⟨more, opened⟩ started => ?_
    have start := (leaves_nextItem first input more opened started).1
    refine .behind (.ite ?_ (.ok (Nat.le_of_eq (Nat.zero_add _)) fun _ => List.forall_mem_nil _)) start
    refine (each opened).bind fun head rest => ((ih false rest).apart (w head)).bind fun tail left => ?_
    refine .ok (Nat.le_of_eq ?_) fun _ ofTail ofHead => List.forall_mem_cons.mpr ⟨ofHead, ofTail⟩
    rw [List.map_cons, List.sum_cons]

theorem spends_members (bound : Bytes) (first : Bool) (input : Bytes) :
    Spends (weigh input) (fun all => (all.map fun member => weigh (Utf8.encode member.1) + w member.2).sum)
      (fun all => ∀ member ∈ all, PlainString member.1 ∧ P member.2) (members read bound first input) := by
  induction bound generalizing first input with
  | nil => exact .error _
  | cons _ bound ih =>
    refine .of_bind fun ⟨more, opened⟩ started => ?_
    have start := (leaves_nextKey first input more opened started).1
    refine .behind (.ite ?_ (.ok (Nat.le_of_eq (Nat.zero_add _)) fun _ => List.forall_mem_nil _)) start
    refine (spends_string opened).bind fun key named => .of_bind fun inner separated => ?_
    have member := ((each inner).behind (suffix_colon separated)).apart (weigh (Utf8.encode key))
    refine member.bind fun head rest => ((ih false rest).apart (weigh (Utf8.encode key) + w head)).bind fun tail left => ?_
    refine .ok (Nat.le_of_eq ?_) fun _ ofTail ofHead ofKey => List.forall_mem_cons.mpr ⟨⟨ofKey, ofHead⟩, ofTail⟩
    rw [List.map_cons, List.sum_cons]

end

end JsonText

open JsonText

/-! ## Values -/

namespace Value

/-- What all strings in a value weigh. -/
def weight (v : Value) : Nat := (v.strings.map fun s => weigh (Utf8.encode s)).sum

theorem weight_array (items : List Value) : (Value.array items).weight = (items.map weight).sum := by
  rw [weight, strings, stringsOfItems_eq_flatMap]
  induction items with
  | nil => rfl
  | cons item items ih =>
    rw [List.flatMap_cons, List.map_append, List.sum_append, ih, List.map_cons, List.sum_cons, weight]

theorem weight_object (members : List (String × Value)) :
    (Value.object members).weight = (members.map fun member => weigh (Utf8.encode member.1) + member.2.weight).sum := by
  rw [weight, strings, stringsOfMembers_eq_flatMap]
  induction members with
  | nil => rfl
  | cons member members ih =>
    rw [List.flatMap_cons, List.map_append, List.sum_append, ih, List.map_cons, List.sum_cons, List.map_cons, List.sum_cons,
      weight]

/-- Scalars that are no strings weigh nothing. -/
theorem plain_of_no_strings {v : Value} (none : v.strings = []) : v.weight = 0 ∧ v.Plain := by
  rw [weight, Plain, none]
  exact ⟨rfl, List.forall_mem_nil _⟩

theorem strings_number (n : JsonNumber) : (ofData (.number n)).strings = [] := by
  rw [ofData, Data.toJson, ofJson]
  rcases n with n | i | x
  · rw [ofJsonNumber]
    split <;> rfl
  · rfl
  · rfl

end Value

namespace JsonText

/-- What is read weighs in the strings of its value, and has no escapes if no weight is lost. -/
abbrev SpendsValue (input : Bytes) (read : Except Failure (Data × Bytes)) : Prop :=
  Spends (weigh input) (fun data => (Value.ofData data).weight) (fun data => (Value.ofData data).Plain) read

/-- A value, where the parts of arrays and objects are read by a reader of fewer levels. -/
theorem spends_value_of_inner {budget : Nat} (input : Bytes)
    (inner : ∀ less, budget = less + 1 → ∀ input, SpendsValue input (value less input)) :
    SpendsValue input (value budget input) := by
  unfold value
  split
  next => exact .error _
  next byte rest blanks =>
    have whole : byte :: rest <:+ input := blanks ▸ suffix_skipBlanks input
    have ending : rest <:+ input := (List.suffix_cons byte rest).trans whole
    have ofScalar {data : Data} {left : Bytes} (none : (Value.ofData data).strings = []) (afterScalar : left <:+ input) :
        SpendsValue input (.ok (data, left)) := by
      obtain ⟨light, plain⟩ := Value.plain_of_no_strings none
      refine .ok ?_ fun _ => plain
      rw [light, Nat.zero_add]
      exact weigh_le_of_suffix afterScalar
    have ofWord {expected : Bytes} {data : Data} (none : (Value.ofData data).strings = []) :
        SpendsValue input (do .ok (data, ← word expected rest)) :=
      .of_bind fun left spelled => ofScalar none ((suffix_word spelled).trans ending)
    refine .ite (ofWord rfl) (.ite (ofWord rfl) (.ite (ofWord rfl) (.ite ?minus (.ite ?digit (.ite ?quote (.ite ?bracket
      (.ite ?brace (.error _))))))))
    case minus =>
      refine .of_bind fun ⟨n, left⟩ read => ofScalar (Value.strings_number n) ?_
      exact (leaves_number true rest n left read).1.trans ending
    case digit =>
      refine .of_bind fun ⟨n, left⟩ read => ofScalar (Value.strings_number n) ?_
      exact (leaves_number false _ n left read).1.trans whole
    case quote =>
      refine ((spends_string rest).behind ending).bind fun s left => ?_
      exact .ok (Nat.le_refl _) fun _ plain => List.forall_mem_singleton.mpr plain
    case bracket =>
      cases budget with
      | zero => exact .error _
      | succ less =>
        refine ((spends_items (inner less rfl) rest true rest).behind ending).bind fun all left => ?_
        refine .ok (Nat.add_le_add_right (Nat.le_of_eq ?_) _) fun _ plain => ?_
        · rw [Value.ofData_array, Value.weight_array, List.map_map]
          rfl
        · rw [Value.ofData_array, Value.plain_array]
          exact List.forall_mem_map.mpr plain
    case brace =>
      cases budget with
      | zero => exact .error _
      | succ less =>
        refine ((spends_members (inner less rfl) rest true rest).behind ending).bind fun all left => ?_
        refine .ok (Nat.add_le_add_right ?_ _) fun _ plain => ?_
        · rw [Value.ofData_object, Value.weight_object]
          refine Nat.le_trans (sum_ascendingEntries_le _ _) (Nat.le_of_eq ?_)
          rw [List.map_map]
          rfl
        · rw [Value.ofData_object, Value.plain_object]
          intro member isMember
          obtain ⟨entry, isEntry, rfl⟩ := List.mem_map.mp (mem_ascendingEntries isMember)
          exact plain entry isEntry

theorem spends_value (budget : Nat) : ∀ input, SpendsValue input (value budget input) := by
  induction budget with
  | zero => exact fun input => spends_value_of_inner input fun _ same => by cases same
  | succ budget ih =>
    intro input
    refine spends_value_of_inner input fun less same => ?_
    obtain rfl : budget = less := Nat.succ.inj same
    exact ih

end JsonText

namespace Value

/-- The strings in what is parsed weigh no more than its text, and if no less then none of them was escaped. -/
theorem weight_of_parse {bytes : Bytes} {v : Value} (parsed : Value.parse bytes = .ok v) :
    v.weight ≤ weigh bytes ∧ (v.weight = weigh bytes → v.Plain) := by
  unfold Value.parse at parsed
  split at parsed
  next data read =>
    cases parsed
    obtain ⟨⟨data', rest⟩, ended, finished⟩ := bind_eq_ok read
    obtain ⟨-, -, same⟩ := bind_eq_ok finished
    obtain rfl : data' = data := Except.ok.inj same
    obtain ⟨enough, plain⟩ := spends_value nestingLimit bytes data' rest ended
    have weight : (ofJson data'.toJson).weight = (ofData data').weight := rfl
    rw [weight]
    dsimp only at enough plain
    exact ⟨by omega, fun lossless => plain (by omega)⟩
  next => cases parsed

/-! ## What texts weigh -/

theorem weigh_intercalate {separator : String} (light : weigh (Utf8.encode separator) = 0) (texts : List String) :
    weigh (Utf8.encode (separator.intercalate texts)) = (texts.map fun text => weigh (Utf8.encode text)).sum := by
  cases texts with
  | nil => rfl
  | cons text texts =>
    rw [encode_intercalate, weigh_append, List.map_cons, List.sum_cons]
    congr 1
    induction texts with
    | nil => rfl
    | cons next texts ih =>
      rw [List.map_cons, List.flatMap_cons, weigh_append, weigh_append, light, ih, List.map_cons, List.sum_cons, Nat.zero_add]

theorem light_of_numeric {c : Char} (numeric : Numeric c) {byte : UInt8} (member : byte ∈ Utf8.encodeChar c) : Light byte := by
  have single {c : Char} (ascii : c.toNat < 0x80) (light : Light (UInt8.ofNat c.toNat))
      (member : byte ∈ Utf8.encodeChar c) : Light byte := by
    rw [Utf8.encodeChar_of_ascii ascii, List.mem_singleton] at member
    rwa [member]
  rcases numeric with digit | mark
  · obtain ⟨-, ofByte, -⟩ := isDigit_ofChar digit
    have range := toNat_of_isDigit digit
    have other {mark : UInt8} (noDigit : isDigit mark = false) : UInt8.ofNat c.toNat ≠ mark := ne_of_isDigit ofByte noDigit
    exact single (by omega) (light_of_ne (other (by decide)) (other (by decide)) (other (by decide))) member
  · simp only [List.mem_cons, List.not_mem_nil, or_false] at mark
    rcases mark with rfl | rfl | rfl | rfl <;> exact single (by decide) (by decide) member

theorem weigh_of_number {text : String} (number : NumberText text) : weigh (Utf8.encode text) = 0 := by
  refine weigh_eq_zero fun byte member => ?_
  obtain ⟨c, isChar, ofChar⟩ := List.mem_flatMap.mp member
  exact light_of_numeric (number.numeric c isChar) ofChar

/-- Texts of parts between marks that weigh nothing weigh what the parts do. -/
theorem weigh_between {opened closed : String} (ofOpened : weigh (Utf8.encode opened) = 0)
    (ofClosed : weigh (Utf8.encode closed) = 0) (texts : List String) :
    weigh (Utf8.encode (opened ++ ", ".intercalate texts ++ closed)) = (texts.map fun text => weigh (Utf8.encode text)).sum := by
  rw [Utf8.encode_append, Utf8.encode_append, weigh_append, weigh_append, ofOpened, ofClosed, weigh_intercalate (by decide),
    Nat.zero_add, Nat.add_zero]

mutual

/-- The text of a value weighs what its strings do: it has no escapes. -/
theorem weigh_text : (v : Value) → v.Canonical → v.FloatFree → weigh (Utf8.encode v.text) = v.weight
  | .null, _, _ => by decide
  | .bool b, _, _ => by cases b <;> decide
  | .int i, _, _ => weigh_of_number (numberText_toString i.toInt)
  | .float _, _, floatFree => floatFree.elim
  | .string s, _, _ => by
    have quote : weigh (Utf8.encode "\"") = 0 := by decide
    rw [text, Utf8.encode_append, Utf8.encode_append, weigh_append, weigh_append, quote]
    simp [weight, strings]
  | .array items, canonical, floatFree => by
    rw [text_array, weigh_between (by decide) (by decide), List.map_map, weight_array]
    exact congrArg List.sum (List.map_congr_left (weigh_textItems items canonical floatFree))
  | .object members, canonical, floatFree => by
    rw [text_object canonical.1, weigh_between (by decide) (by decide), List.map_map, weight_object]
    exact congrArg List.sum (List.map_congr_left (weigh_textMembers members canonical.2 floatFree))

theorem weigh_textItems : (items : List Value) → CanonicalItems items → FloatFreeItems items →
    ∀ item ∈ items, weigh (Utf8.encode item.text) = item.weight
  | [], _, _ => List.forall_mem_nil _
  | item :: items, canonical, floatFree => List.forall_mem_cons.mpr
    ⟨weigh_text item canonical.1 floatFree.1, weigh_textItems items canonical.2 floatFree.2⟩

theorem weigh_textMembers : (members : List (String × Value)) → CanonicalMembers members → FloatFreeMembers members →
    ∀ member ∈ members, weigh (Utf8.encode (memberText member)) = weigh (Utf8.encode member.1) + member.2.weight
  | [], _, _ => List.forall_mem_nil _
  | (key, member) :: members, canonical, floatFree => by
    have quote : weigh (Utf8.encode "\"") = 0 := by decide
    have colon : weigh (Utf8.encode "\": ") = 0 := by decide
    refine List.forall_mem_cons.mpr ⟨?_, weigh_textMembers members canonical.2 floatFree.2⟩
    rw [memberText, Utf8.encode_append, Utf8.encode_append, Utf8.encode_append, weigh_append, weigh_append, weigh_append,
      quote, colon, weigh_text member canonical.1 floatFree.1, Nat.zero_add, Nat.add_zero]

end

/-! ## The text of a value as JSON -/

theorem parse_text_of_plain {v : Value} (plain : v.Plain) (shallow : v.Shallow nestingLimit) :
    Value.parse (Utf8.encode v.text) = .ok v := (readBack_text v plain shallow).parse

theorem plain_of_parse_text {v : Value} (canonical : v.Canonical) (floatFree : v.FloatFree)
    (parsed : Value.parse (Utf8.encode v.text) = .ok v) : v.Plain := by
  obtain ⟨-, plain⟩ := weight_of_parse parsed
  exact plain (weigh_text v canonical floatFree).symm

/-- The seed of an array or an object is the hash of its text. Without floats in it, and with no more levels than the
parser goes, this text is JSON for the value exactly if no string and no key in it, at any depth, has a quote, a backslash
or a control; two values of which that is true and which have the same text are the same. -/
theorem seedText_reads_back_iff (v : Value) (compound : v.kind = .array ∨ v.kind = .object) (canonical : v.Canonical)
    (floatFree : v.FloatFree) (shallow : v.depth < 128) :
    seedOf v = hash (Utf8.encode v.text) ∧ (Value.parse (Utf8.encode v.text) = .ok v ↔ v.Plain) ∧
      ∀ other : Value, other.Canonical → other.FloatFree → other.depth < 128 → v.Plain → other.Plain →
        other.text = v.text → other = v := by
  refine ⟨?_, ⟨plain_of_parse_text canonical floatFree, fun plain => ?_⟩, ?_⟩
  · cases v with
    | array items => rfl
    | object members => rfl
    | _ => rcases compound with same | same <;> cases same
  · exact parse_text_of_plain plain ⟨canonical, floatFree, Nat.le_of_lt_succ shallow⟩
  · intro other canonical' floatFree' shallow' plain plain' same
    have parsed := parse_text_of_plain plain ⟨canonical, floatFree, Nat.le_of_lt_succ shallow⟩
    have parsed' := parse_text_of_plain plain' ⟨canonical', floatFree', Nat.le_of_lt_succ shallow'⟩
    rw [same, parsed] at parsed'
    exact (Except.ok.inj parsed').symm

/-- Commas, colons and brackets in its strings, but nothing that is escaped. -/
def crowded : Value :=
  .object [("a, c: ", .array [.int Int64.minValue, .null, .string "é], [c"]), ("z", .object [])]

/-- An array of one string, with what stands between two strings in it. -/
def joined : Value := .array [.string "a\", \"b"]

def parted : Value := .array [.string "a", .string "b"]

theorem seedText_reads_back_iff_crowded :
    crowded.text = "\x7b\"a, c: \": [-9223372036854775808, null, \"é], [c\"], \"z\": \x7b\x7d\x7d" ∧
      Value.parse (Utf8.encode crowded.text) = .ok crowded ∧ Value.parse (Utf8.encode joined.text) ≠ .ok joined := by
  have ascending : Ascending [("a, c: ", Value.array [.int Int64.minValue, .null, .string "é], [c"]), ("z", .object [])] :=
    List.pairwise_pair.mpr (by decide)
  have canonical : crowded.Canonical :=
    ⟨ascending, ⟨trivial, trivial, trivial, trivial⟩, ⟨List.Pairwise.nil, trivial⟩, trivial⟩
  have floatFree : crowded.FloatFree := ⟨⟨trivial, trivial, trivial, trivial⟩, trivial, trivial⟩
  obtain ⟨-, reads, -⟩ := seedText_reads_back_iff crowded (.inr rfl) canonical floatFree (by decide)
  obtain ⟨-, misreads, -⟩ := seedText_reads_back_iff joined (.inl rfl) ⟨trivial, trivial⟩ ⟨trivial, trivial⟩ (by decide)
  have plain : crowded.Plain := by decide
  have escaped : ¬ joined.Plain := by decide
  exact ⟨by decide, reads.mpr plain, fun parsed => escaped (misreads.mp parsed)⟩

/-- Two arrays with one text and so one seed, of which the text is JSON for the second; and a quote alone makes the text
no JSON at all. -/
theorem seedText_of_joined :
    joined ≠ parted ∧ joined.text = parted.text ∧ seedOf joined = seedOf parted ∧
      Value.parse (Utf8.encode joined.text) = .ok parted ∧ Value.parse (Utf8.encode joined.text) ≠ .ok joined ∧
      ∃ e, Value.parse (Utf8.encode (Value.array [.string "\""]).text) = .error e := by
  have apart : joined ≠ parted := by
    intro same
    injection same with same
    injection same with _ none
    cases none
  have refused : JsonText.parse (Utf8.encode (Value.array [.string "\""]).text) = .error ⟨.expectedCommaOrBracket, 1⟩ := by
    with_unfolding_all rfl
  have sameText : joined.text = parted.text := by decide
  have plain : parted.Plain := by decide
  have parsed : Value.parse (Utf8.encode joined.text) = .ok parted := by
    rw [sameText]
    exact parse_text_of_plain plain ⟨⟨trivial, trivial, trivial⟩, ⟨trivial, trivial, trivial⟩, by decide⟩
  refine ⟨apart, sameText, ?_, parsed, ?_, ?_⟩
  · exact congrArg (fun text => hash (Utf8.encode text)) sameText
  · rw [parsed]
    exact fun same => apart (Except.ok.inj same).symm
  · exact ⟨_, by rw [Value.parse, refused]⟩

end Value

end RecordQuery
