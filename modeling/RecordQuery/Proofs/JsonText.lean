import Mathlib.Data.List.Forall2
import RecordQuery.Proofs.Utf8
import RecordQuery.Value.Json

/-!
# Reading written JSON

What the writer of JSON makes of a string or an integer is read as that string or integer, whatever stands
behind it, as long as a number is not gone on with: `string_quotedTail`, `value_toString`.
-/

namespace RecordQuery

/-- An integer is held exactly. -/
theorem JsonNumber.ofInt?_toInt (i : Int64) :
    ∃ num, JsonNumber.ofInt? i.toInt = some num ∧ Value.ofJsonNumber num = .int i := by
  have below : i.toInt < 2 ^ 63 := i.toInt_lt
  have above : -2 ^ 63 ≤ i.toInt := i.le_toInt
  have readBack : Int64.ofInt i.toInt = i := i.ofInt_toInt
  rw [JsonNumber.ofInt?]
  by_cases natural : 0 ≤ i.toInt
  · have fits : i.toInt < Int.ofNat UInt64.size := by simp [UInt64.size]; omega
    have size : (UInt64.ofNat i.toInt.toNat).toNat = i.toInt.toNat := by
      rw [UInt64.toNat_ofNat']
      omega
    have back : Int.ofNat i.toInt.toNat = i.toInt := Int.toNat_of_nonneg natural
    refine ⟨_, if_pos ⟨natural, fits⟩, ?_⟩
    rw [Value.ofJsonNumber, size, back, if_pos i.toInt_le, ← Int64.ofInt_eq_ofNat]
    exact congrArg Value.int ((congrArg Int64.ofInt back).trans readBack)
  · have negative : Int64.ofInt i.toInt < 0 ∧ Int64.minValue.toInt ≤ i.toInt ∧ i.toInt < 0 := by
      rw [readBack, Int64.lt_iff_toInt_lt]
      simp
      omega
    rw [if_neg (fun both => natural both.1), dif_pos negative]
    exact ⟨_, rfl, congrArg Value.int readBack⟩

namespace JsonText

/-! ## Strings -/

/-- A byte that stands for itself in a string. -/
def Plain (byte : UInt8) : Prop := byte ≠ '"'.toUInt8 ∧ byte ≠ '\\'.toUInt8 ∧ 0x20 ≤ byte.toNat

theorem stringBytes_plain {byte : UInt8} (plain : Plain byte) (rest : Bytes) :
    stringBytes (byte :: rest) = (stringBytes rest).map fun (more, left) => (byte :: more, left) := by
  obtain ⟨noQuote, noBackslash, printable⟩ := plain
  have noControl : ¬ byte < 0x20 := by
    rw [UInt8.lt_iff_toNat_lt]
    exact Nat.not_lt.mpr printable
  rw [stringBytes, if_neg noQuote, if_neg noBackslash, if_neg noControl]
  cases stringBytes rest <;> rfl

theorem stringBytes_plain_append {bytes : Bytes} (plain : ∀ byte ∈ bytes, Plain byte) (rest : Bytes) :
    stringBytes (bytes ++ rest) = (stringBytes rest).map fun (more, left) => (bytes ++ more, left) := by
  induction bytes with
  | nil => cases h : stringBytes rest <;> simp [h, Except.map]
  | cons byte bytes ih =>
    have others : ∀ other ∈ bytes, Plain other := fun other member => plain other (List.mem_cons_of_mem byte member)
    rw [List.cons_append, stringBytes_plain (plain byte List.mem_cons_self), ih others]
    cases stringBytes rest <;> rfl

/-- Characters that are not escaped stand for themselves. -/
theorem plain_of_mem_encodeChar {c : Char} (noQuote : c ≠ '"') (noBackslash : c ≠ '\\') (printable : 0x20 ≤ c.toNat)
    {byte : UInt8} (member : byte ∈ Utf8.encodeChar c) : Plain byte := by
  by_cases ascii : c.toNat < 0x80
  · rw [Utf8.encodeChar_of_ascii ascii, List.mem_singleton] at member
    have value : byte.toNat = c.toNat := by rw [member, Utf8.toNat_ofNat (by omega)]
    refine ⟨?_, ?_, by omega⟩
    · rintro rfl
      exact noQuote (Char.toNat_inj.mp value.symm)
    · rintro rfl
      exact noBackslash (Char.toNat_inj.mp value.symm)
  · have high := Utf8.le_of_mem_encodeChar (Nat.not_lt.mp ascii) member
    refine ⟨?_, ?_, by omega⟩
    · rintro rfl
      exact absurd high (by decide)
    · rintro rfl
      exact absurd high (by decide)

theorem stringBytes_escape {input rest bytes : Bytes} (escaped : escape input = .ok (bytes, rest)) :
    stringBytes ('\\'.toUInt8 :: input) = (stringBytes rest).map fun (more, left) => (bytes ++ more, left) := by
  rw [stringBytes, if_neg (by decide), if_pos rfl]
  split
  next e failed => rw [escaped] at failed; cases failed
  next bytes' rest' found =>
    rw [escaped] at found
    cases found
    cases stringBytes rest <;> rfl

theorem hexValue?_digitChar : ∀ n < 16, hexValue? (UInt8.ofNat (Nat.digitChar n).toNat) = some n := by decide

theorem digitChar_ascii : ∀ n < 16, (Nat.digitChar n).toNat < 0x80 := by decide

/-- The long escape of a control. -/
theorem escape_control {c : Char} (control : c.toNat < 0x20) (rest : Bytes) :
    escape ('u'.toUInt8 :: '0'.toUInt8 :: '0'.toUInt8 :: UInt8.ofNat (Nat.digitChar (c.toNat / 16)).toNat ::
      UInt8.ofNat (Nat.digitChar (c.toNat % 16)).toNat :: rest) = .ok (Utf8.encodeChar c, rest) := by
  have zero : hexValue? '0'.toUInt8 = some 0 := by decide
  have high := hexValue?_digitChar (c.toNat / 16) (by omega)
  have low := hexValue?_digitChar (c.toNat % 16) (by omega)
  have value : ((0 * 16 + 0) * 16 + c.toNat / 16) * 16 + c.toNat % 16 = c.toNat := by omega
  have noSurrogate : ¬ (0xDC00 ≤ c.toNat ∧ c.toNat ≤ 0xDFFF) := by omega
  have noLead : c.toNat < 0xD800 ∨ 0xDBFF < c.toNat := by omega
  have point : codePoint ('0'.toUInt8 :: '0'.toUInt8 :: UInt8.ofNat (Nat.digitChar (c.toNat / 16)).toNat ::
      UInt8.ofNat (Nat.digitChar (c.toNat % 16)).toNat :: rest) = .ok (c.toNat, rest) := by
    simp only [codePoint, hexEscape, zero, high, low, value, bind, Except.bind, if_neg noSurrogate, if_pos noLead]
  have noShort : shortEscape? 'u'.toUInt8 = none := by decide
  rw [escape, noShort]
  simp only [if_pos, point, bind, Except.bind, c.ofNat_toNat]

/-- The characters with an escape of one letter. -/
def shortEscaped : List Char := ['"', '\\', '\n', '\r', '\t', '\x08', '\x0C']

/-- What is written for a character that has no short escape. -/
theorem escapeChar_of_long {c : Char} (long : c ∉ shortEscaped) :
    Json.escapeChar c = if c.toNat < 0x20 then
      ['\\', 'u', '0', '0', Nat.digitChar (c.toNat / 16), Nat.digitChar (c.toNat % 16)] else [c] := by
  simp only [shortEscaped, List.mem_cons, List.not_mem_nil, or_false, not_or] at long
  obtain ⟨quote, backslash, newline, back, tab, backspace, feed⟩ := long
  have noBackspace : c.toNat ≠ 0x08 := fun code => backspace (Char.toNat_inj.mp code)
  have noFeed : c.toNat ≠ 0x0C := fun code => feed (Char.toNat_inj.mp code)
  rw [Json.escapeChar, if_neg quote, if_neg backslash, if_neg newline, if_neg back, if_neg tab, if_neg noBackspace,
    if_neg noFeed]

/-- A character inside a string either stands for itself or is read from its escape. -/
theorem escapeChar_read (c : Char) :
    (Json.escapeChar c = [c] ∧ ∀ byte ∈ Utf8.encodeChar c, Plain byte) ∨
      ∃ spelling, (Json.escapeChar c).flatMap Utf8.encodeChar = '\\'.toUInt8 :: spelling ∧
        ∀ rest, escape (spelling ++ rest) = .ok (Utf8.encodeChar c, rest) := by
  by_cases short : c ∈ shortEscaped
  · right
    simp only [shortEscaped, List.mem_cons, List.not_mem_nil, or_false] at short
    rcases short with rfl | rfl | rfl | rfl | rfl | rfl | rfl <;> exact ⟨_, rfl, fun rest => rfl⟩
  by_cases control : c.toNat < 0x20
  · right
    have high := digitChar_ascii (c.toNat / 16) (by omega)
    have low := digitChar_ascii (c.toNat % 16) (by omega)
    refine ⟨'u'.toUInt8 :: '0'.toUInt8 :: '0'.toUInt8 :: UInt8.ofNat (Nat.digitChar (c.toNat / 16)).toNat ::
      [UInt8.ofNat (Nat.digitChar (c.toNat % 16)).toNat], ?_, fun rest => escape_control control rest⟩
    rw [escapeChar_of_long short, if_pos control]
    simp only [List.flatMap_cons, List.flatMap_nil, Utf8.encodeChar_of_ascii high, Utf8.encodeChar_of_ascii low]
    rfl
  · left
    refine ⟨by rw [escapeChar_of_long short, if_neg control], fun byte member => ?_⟩
    refine plain_of_mem_encodeChar ?_ ?_ (Nat.not_lt.mp control) member
    · rintro rfl
      exact short (by decide)
    · rintro rfl
      exact short (by decide)

theorem stringBytes_escapeChar (c : Char) (rest : Bytes) :
    stringBytes ((Json.escapeChar c).flatMap Utf8.encodeChar ++ rest) =
      (stringBytes rest).map fun (more, left) => (Utf8.encodeChar c ++ more, left) := by
  rcases escapeChar_read c with ⟨bare, plain⟩ | ⟨spelling, spelled, read⟩
  · rw [bare, List.flatMap_singleton]
    exact stringBytes_plain_append plain rest
  · rw [spelled, List.cons_append, stringBytes_escape (read rest)]

/-- The inside of a quoted string is read up to its end as the bytes of the string. -/
theorem stringBytes_quoted (text : List Char) (rest : Bytes) :
    stringBytes ((text.flatMap Json.escapeChar).flatMap Utf8.encodeChar ++ '"'.toUInt8 :: rest) =
      .ok (text.flatMap Utf8.encodeChar, rest) := by
  induction text with
  | nil => rw [List.flatMap_nil, List.flatMap_nil, List.nil_append, stringBytes, if_pos rfl]
  | cons c text ih =>
    rw [List.flatMap_cons, List.flatMap_append, List.append_assoc, stringBytes_escapeChar, ih]
    rfl

/-- The bytes of a quoted string behind its first quote. -/
def quotedTail (s : String) : Bytes := (s.toList.flatMap Json.escapeChar).flatMap Utf8.encodeChar ++ ['"'.toUInt8]

theorem encode_quote (s : String) : Utf8.encode (Json.quote s) = '"'.toUInt8 :: quotedTail s := by
  rw [Utf8.encode, Json.quote, String.toList_ofList, List.flatMap_cons, List.flatMap_append]
  rfl

/-- A quoted string is read as that string. -/
theorem string_quotedTail (s : String) (rest : Bytes) : string (quotedTail s ++ rest) = .ok (s, rest) := by
  have bytes : stringBytes (quotedTail s ++ rest) = .ok (s.toList.flatMap Utf8.encodeChar, rest) := by
    rw [quotedTail, List.append_assoc]
    exact stringBytes_quoted s.toList rest
  simp only [string, bytes, bind, Except.bind, Utf8.decode?_flatMap_encodeChar, String.ofList_toList]

/-! ## Numbers -/

/-- Nothing that can go on with a number stands next. -/
def NumberEnds (rest : Bytes) : Prop :=
  ∀ byte more, rest = byte :: more → isDigit byte = false ∧ byte ≠ '.'.toUInt8 ∧ isExponentLetter byte = false

theorem toNat_of_isDigit {c : Char} (digit : c.isDigit = true) : 48 ≤ c.toNat ∧ c.toNat ≤ 57 := by
  simpa [Char.isDigit, UInt32.le_iff_toNat_le] using digit

theorem isDigit_ofChar {c : Char} (digit : c.isDigit = true) :
    Utf8.encodeChar c = [UInt8.ofNat c.toNat] ∧ isDigit (UInt8.ofNat c.toNat) = true ∧
      digitValue (UInt8.ofNat c.toNat) = c.toNat - '0'.toNat := by
  have range := toNat_of_isDigit digit
  refine ⟨Utf8.encodeChar_of_ascii (by omega), ?_, ?_⟩
  · simp only [isDigit, UInt8.le_iff_toNat_le, Utf8.toNat_ofNat (show c.toNat < 256 by omega), Bool.and_eq_true,
      decide_eq_true_eq]
    exact range
  · rw [digitValue, Utf8.toNat_ofNat (by omega)]

theorem digitNext_of_numberEnds {rest : Bytes} (ends : NumberEnds rest) : digitNext rest = false := by
  cases rest with
  | nil => rfl
  | cons byte rest => exact (ends byte rest rfl).1

theorem le_ofDigitChars (text : List Char) (value : Nat) : value ≤ Nat.ofDigitChars 10 text value := by
  induction text generalizing value with
  | nil => exact Nat.le_refl value
  | cons c text ih =>
    rw [Nat.ofDigitChars_cons]
    exact Nat.le_trans (by omega) (ih (10 * value + (c.toNat - '0'.toNat)))

/-- Digits are read as the number that they write, if 64 bits hold it. -/
theorem digits_flatMap_encodeChar {text : List Char} (digital : ∀ c ∈ text, c.isDigit = true) {rest : Bytes}
    (ends : NumberEnds rest) (value count : Nat) (fits : Nat.ofDigitChars 10 text value < UInt64.size) :
    digits value count (text.flatMap Utf8.encodeChar ++ rest) =
      (Nat.ofDigitChars 10 text value, count + text.length, rest) := by
  induction text generalizing value count with
  | nil =>
    cases rest with
    | nil => rfl
    | cons byte rest => simp [digits, (ends byte rest rfl).1]
  | cons c text ih =>
    obtain ⟨spelled, digit, weight⟩ := isDigit_ofChar (digital c List.mem_cons_self)
    have others : ∀ other ∈ text, other.isDigit = true := fun other member => digital other (List.mem_cons_of_mem c member)
    rw [Nat.ofDigitChars_cons] at fits
    have held := Nat.lt_of_le_of_lt (le_ofDigitChars text _) fits
    rw [List.flatMap_cons, spelled, List.append_assoc, List.singleton_append, digits, weight, if_pos ⟨digit, held⟩,
      ih others _ _ fits, Nat.ofDigitChars_cons, List.length_cons, Nat.add_assoc, Nat.add_comm 1]

theorem skipDigits_of_numberEnds {rest : Bytes} (ends : NumberEnds rest) (count : Nat) :
    skipDigits count rest = (count, rest) := by
  cases rest with
  | nil => rfl
  | cons byte rest => rw [skipDigits, (ends byte rest rfl).1, if_neg Bool.false_ne_true]

/-- The numeral of a number begins with zero only if it is that of zero. -/
theorem head_toDigits_ne_zero {n : Nat} (positive : 0 < n) {rest : List Char} : Nat.toDigits 10 n ≠ '0' :: rest := by
  induction n using Nat.base_induction 10 (by decide) generalizing rest with
  | single m small =>
    rw [Nat.toDigits_of_lt_base small]
    rintro same
    have : m = 0 := by
      have value := Nat.toNat_digitChar_sub_48_of_lt_ten small
      rw [(List.cons.inj same).1] at value
      exact value.symm
    omega
  | digit m k small mPositive ih =>
    rw [← Nat.toDigits_append_toDigits (by decide) mPositive small]
    cases leading : Nat.toDigits 10 m with
    | nil => exact absurd leading Nat.toDigits_ne_nil
    | cons c more =>
      rintro same
      obtain ⟨rfl, -⟩ := List.cons.inj same
      exact ih mPositive leading

/-- Behind its digits an integer is what the digits write. -/
theorem afterInteger_of_numberEnds {negative : Bool} {n : Nat} {rest : Bytes} (ends : NumberEnds rest)
    (nonzero : negative = true → n ≠ 0) {number : JsonNumber}
    (held : JsonNumber.ofInt? (if negative then -Int.ofNat n else Int.ofNat n) = some number) :
    afterInteger negative n 0 rest = .ok (number, rest) := by
  have noNegativeZero : (negative && n == 0) = false := by
    cases negative with
    | false => rfl
    | true => simp [nonzero rfl]
  cases rest with
  | nil => simp only [afterInteger, ne_eq, not_true_eq_false, noNegativeZero, Bool.false_eq_true, if_false, held]
  | cons byte rest =>
    obtain ⟨-, noPoint, noExponent⟩ := ends byte rest rfl
    simp only [afterInteger, ne_eq, not_true_eq_false, noPoint, noExponent, noNegativeZero, Bool.false_eq_true, if_false, held]

/-- A numeral is read as its number, if 64 bits hold its digits. -/
theorem number_toDigits (negative : Bool) (n : Nat) {rest : Bytes} (ends : NumberEnds rest)
    (nonzero : negative = true → n ≠ 0) (fits : n < UInt64.size) {num : JsonNumber}
    (held : JsonNumber.ofInt? (if negative then -Int.ofNat n else Int.ofNat n) = some num) :
    number negative ((Nat.toDigits 10 n).flatMap Utf8.encodeChar ++ rest) = .ok (num, rest) := by
  have digital : ∀ c ∈ Nat.toDigits 10 n, c.isDigit = true := fun c member =>
    Nat.isDigit_of_mem_toDigits (by decide) (by decide) member
  have finished := afterInteger_of_numberEnds ends nonzero held
  rcases Nat.eq_zero_or_pos n with rfl | positive
  · have noMore := digitNext_of_numberEnds ends
    show number negative ('0'.toUInt8 :: rest) = .ok (num, rest)
    rw [number, if_pos rfl, noMore, if_neg Bool.false_ne_true]
    exact finished
  · cases spelled : Nat.toDigits 10 n with
    | nil => exact absurd spelled Nat.toDigits_ne_nil
    | cons c more =>
      rw [spelled] at digital
      have value : Nat.ofDigitChars 10 more (c.toNat - '0'.toNat) = n := by
        have whole := @Nat.ofDigitChars_ten_toDigits n
        rwa [spelled, Nat.ofDigitChars_cons, Nat.mul_zero, Nat.zero_add] at whole
      obtain ⟨byte, digit, weight⟩ := isDigit_ofChar (digital c List.mem_cons_self)
      have range := toNat_of_isDigit (digital c List.mem_cons_self)
      have notZero : UInt8.ofNat c.toNat ≠ '0'.toUInt8 := by
        intro same
        have code : c.toNat = '0'.toNat := by
          have ascii := Utf8.toNat_ofNat (show c.toNat < 256 by omega)
          rw [← ascii, same]
          rfl
        obtain rfl : c = '0' := Char.toNat_inj.mp code
        exact head_toDigits_ne_zero positive spelled
      have others : ∀ other ∈ more, other.isDigit = true := fun other member => digital other (List.mem_cons_of_mem c member)
      have read := digits_flatMap_encodeChar others ends (c.toNat - '0'.toNat) 0 (value.symm ▸ fits)
      rw [List.flatMap_cons, byte, List.append_assoc, List.singleton_append, number, if_neg notZero, if_pos digit,
        weight, read, value]
      simp only [skipDigits_of_numberEnds ends]
      exact finished

theorem skipBlanks_cons {byte : UInt8} (noBlank : isBlankByte byte = false) (rest : Bytes) :
    skipBlanks (byte :: rest) = byte :: rest := by
  rw [skipBlanks, noBlank, if_neg Bool.false_ne_true]

/-- Bytes that are passed over between the parts of a text. -/
def Blank (bytes : Bytes) : Prop := ∀ byte ∈ bytes, isBlankByte byte = true

theorem skipBlanks_append {blanks : Bytes} (blank : Blank blanks) (rest : Bytes) :
    skipBlanks (blanks ++ rest) = skipBlanks rest := by
  induction blanks with
  | nil => rfl
  | cons byte blanks ih =>
    obtain ⟨first, others⟩ := List.forall_mem_cons.mp blank
    rw [List.cons_append, skipBlanks, if_pos first, ih others]

theorem ne_of_isDigit {byte mark : UInt8} (digit : isDigit byte = true) (noDigit : isDigit mark = false) : byte ≠ mark := by
  rintro rfl
  rw [digit] at noDigit
  cases noDigit

theorem isBlankByte_of_isDigit {byte : UInt8} (digit : isDigit byte = true) : isBlankByte byte = false := by
  have other {mark : UInt8} (noDigit : isDigit mark = false) : byte ≠ mark := ne_of_isDigit digit noDigit
  simp only [isBlankByte, Bool.or_eq_false_iff, beq_eq_false_iff_ne]
  exact ⟨⟨⟨other (by decide), other (by decide)⟩, other (by decide)⟩, other (by decide)⟩

theorem value_digit (budget : Nat) {byte : UInt8} (digit : isDigit byte = true) (rest : Bytes) :
    value budget (byte :: rest) = (number false (byte :: rest)).map fun (n, left) => (.number n, left) := by
  have other {mark : UInt8} (noDigit : isDigit mark = false) : byte ≠ mark := ne_of_isDigit digit noDigit
  unfold value
  rw [skipBlanks_cons (isBlankByte_of_isDigit digit)]
  dsimp only
  rw [if_neg (other (by decide)), if_neg (other (by decide)), if_neg (other (by decide)), if_neg (other (by decide)),
    if_pos digit]
  cases number false (byte :: rest) <;> rfl

theorem value_minus (budget : Nat) (rest : Bytes) :
    value budget ('-'.toUInt8 :: rest) = (number true rest).map fun (n, left) => (.number n, left) := by
  unfold value
  rw [skipBlanks_cons (by decide)]
  dsimp only
  rw [if_neg (by decide), if_neg (by decide), if_neg (by decide), if_pos rfl]
  cases number true rest <;> rfl

/-- An integer is read as itself. -/
theorem value_toString (budget : Nat) (i : Int64) :
    ∃ num, Value.ofJsonNumber num = .int i ∧ ∀ rest, NumberEnds rest →
      value budget (Utf8.encode (toString i.toInt) ++ rest) = .ok (.number num, rest) := by
  obtain ⟨num, held, back⟩ := JsonNumber.ofInt?_toInt i
  refine ⟨num, back, fun rest ends => ?_⟩
  have below : i.toInt < 2 ^ 63 := i.toInt_lt
  have above : -2 ^ 63 ≤ i.toInt := i.le_toInt
  have size : UInt64.size = 2 ^ 64 := rfl
  rw [Int.toString_eq_repr, Int.repr_eq_if]
  split
  next natural =>
    have value : (if false = true then -Int.ofNat i.toInt.toNat else Int.ofNat i.toInt.toNat) = i.toInt :=
      Int.toNat_of_nonneg natural
    have read := number_toDigits false i.toInt.toNat ends (by simp) (by omega) (value.symm ▸ held)
    rw [Utf8.encode, Nat.toList_repr]
    cases spelled : Nat.toDigits 10 i.toInt.toNat with
    | nil => exact absurd spelled Nat.toDigits_ne_nil
    | cons c more =>
      have member : c ∈ Nat.toDigits 10 i.toInt.toNat := spelled ▸ List.mem_cons_self
      obtain ⟨byte, digit, -⟩ := isDigit_ofChar (Nat.isDigit_of_mem_toDigits (by decide) (by decide) member)
      rw [spelled, List.flatMap_cons, byte, List.append_assoc, List.singleton_append] at read
      rw [List.flatMap_cons, byte, List.append_assoc, List.singleton_append, value_digit budget digit, read]
      rfl
  next negative =>
    have value : (if true = true then -Int.ofNat (-i.toInt).toNat else Int.ofNat (-i.toInt).toNat) = i.toInt := by
      rw [if_pos rfl, Int.ofNat_eq_natCast]
      omega
    have read := number_toDigits true (-i.toInt).toNat ends (by omega) (by omega) (value.symm ▸ held)
    have minus : Utf8.encode "-" = ['-'.toUInt8] := by decide
    rw [Utf8.encode_append, minus, List.append_assoc, List.singleton_append, value_minus, Utf8.encode, Nat.toList_repr, read]
    rfl

/-! ## Arrays and objects -/

section

variable {α : Type} {item : Bytes → Except Failure (α × Bytes)}

/-- The text begins with the first byte of a value. -/
def Opens (text : Bytes) : Prop :=
  ∃ byte more, text = byte :: more ∧ isBlankByte byte = false ∧ byte ≠ ']'.toUInt8

/-- A text is read as what it stands for, wherever it ends. -/
def ReadsAs (item : Bytes → Except Failure (α × Bytes)) (text : Bytes) (a : α) : Prop :=
  Opens text ∧ ∀ rest, NumberEnds rest → item (text ++ rest) = .ok (a, rest)

/-- A part is read behind the blanks that it begins with. -/
def ReadsPart (item : Bytes → Except Failure (α × Bytes)) (part : Bytes) (a : α) : Prop :=
  ∃ blanks text, part = blanks ++ text ∧ Blank blanks ∧ ReadsAs item text a

theorem ReadsAs.part {text : Bytes} {a : α} (reads : ReadsAs item text a) : ReadsPart item text a :=
  ⟨[], text, rfl, List.forall_mem_nil _, reads⟩

theorem Opens.length_pos {text : Bytes} (opens : Opens text) : 0 < text.length := by
  obtain ⟨byte, more, rfl, -⟩ := opens
  simp

theorem numberEnds_nil : NumberEnds [] := by
  intro byte more same
  cases same

theorem numberEnds_cons {mark : UInt8} (digit : isDigit mark = false) (point : mark ≠ '.'.toUInt8)
    (letter : isExponentLetter mark = false) (rest : Bytes) : NumberEnds (mark :: rest) := by
  intro byte more same
  obtain ⟨rfl, -⟩ := List.cons.inj same
  exact ⟨digit, point, letter⟩

/-- Parts with a comma before each, up to a mark that ends them. -/
def laterParts (parts : List Bytes) (close : UInt8) (rest : Bytes) : Bytes :=
  parts.flatMap (','.toUInt8 :: ·) ++ close :: rest

theorem laterParts_cons (part : Bytes) (parts : List Bytes) (close : UInt8) (rest : Bytes) :
    laterParts (part :: parts) close rest = ','.toUInt8 :: (part ++ laterParts parts close rest) := by
  simp [laterParts]

theorem length_lt_laterParts (parts : List Bytes) (close : UInt8) (rest : Bytes) :
    parts.length < (laterParts parts close rest).length := by
  induction parts with
  | nil => simp [laterParts]
  | cons part parts ih =>
    rw [laterParts_cons]
    simp only [List.length_cons, List.length_append]
    omega

theorem numberEnds_laterParts {close : UInt8} (ends : ∀ rest, NumberEnds (close :: rest)) (parts : List Bytes) (rest : Bytes) :
    NumberEnds (laterParts parts close rest) := by
  cases parts with
  | nil => exact ends rest
  | cons part parts =>
    rw [laterParts_cons]
    exact numberEnds_cons (by decide) (by decide) (by decide) _

theorem nextItem_close (first : Bool) (rest : Bytes) : nextItem first (']'.toUInt8 :: rest) = .ok (false, rest) := by
  rw [nextItem, skipBlanks_cons (by decide)]
  exact if_pos rfl

theorem nextItem_first {text : Bytes} (opens : Opens text) (rest : Bytes) :
    nextItem true (text ++ rest) = .ok (true, text ++ rest) := by
  obtain ⟨byte, more, rfl, noBlank, noClose⟩ := opens
  rw [nextItem, List.cons_append, skipBlanks_cons noBlank]
  dsimp only
  rw [if_neg noClose, if_pos rfl]

theorem nextItem_comma {text : Bytes} (opens : Opens text) (rest : Bytes) :
    nextItem false (','.toUInt8 :: (text ++ rest)) = .ok (true, text ++ rest) := by
  obtain ⟨byte, more, rfl, noBlank, noClose⟩ := opens
  rw [nextItem, skipBlanks_cons (by decide)]
  dsimp only
  rw [if_neg (by decide), if_neg Bool.false_ne_true, if_pos rfl, List.cons_append, skipBlanks_cons noBlank]
  dsimp only
  rw [if_neg noClose]

theorem nextItem_blanks {blanks : Bytes} (blank : Blank blanks) (first : Bool) (rest : Bytes) :
    nextItem first (blanks ++ rest) = nextItem first rest := by
  rw [nextItem, skipBlanks_append blank, ← nextItem]

theorem nextItem_comma_blanks {blanks : Bytes} (blank : Blank blanks) (rest : Bytes) :
    nextItem false (','.toUInt8 :: (blanks ++ rest)) = nextItem false (','.toUInt8 :: rest) := by
  rw [nextItem, nextItem, skipBlanks_cons (by decide), skipBlanks_cons (by decide)]
  dsimp only
  rw [skipBlanks_append blank]
  rfl

theorem numberEnds_bracket (rest : Bytes) : NumberEnds (']'.toUInt8 :: rest) :=
  numberEnds_cons (by decide) (by decide) (by decide) rest

theorem numberEnds_brace (rest : Bytes) : NumberEnds ('\x7d'.toUInt8 :: rest) :=
  numberEnds_cons (by decide) (by decide) (by decide) rest

/-- The items behind the first one, each behind a comma. -/
theorem items_laterParts {parts : List Bytes} {all : List α} (each : List.Forall₂ (ReadsPart item) parts all) {bound : Bytes}
    (enough : parts.length < bound.length) (rest : Bytes) :
    items item bound false (laterParts parts ']'.toUInt8 rest) = .ok (all, rest) := by
  induction each generalizing bound with
  | nil =>
    obtain ⟨byte, bound, rfl⟩ := List.exists_cons_of_length_pos enough
    rw [laterParts, List.flatMap_nil, List.nil_append, items, nextItem_close]
    rfl
  | @cons part a parts all first _ ih =>
    obtain ⟨byte, bound, rfl⟩ := List.exists_cons_of_length_pos (Nat.zero_lt_of_lt enough)
    obtain ⟨blanks, text, rfl, blank, opens, reads⟩ := first
    have later := ih (Nat.lt_of_succ_lt_succ enough)
    have read := reads _ (numberEnds_laterParts numberEnds_bracket parts rest)
    rw [laterParts_cons, List.append_assoc, items, nextItem_comma_blanks blank, nextItem_comma opens]
    simp only [bind, Except.bind, if_true, read, later]

/-- The text of parts without a comma before the first. -/
def joinedParts : List Bytes → UInt8 → Bytes → Bytes
  | [], close, rest => close :: rest
  | part :: parts, close, rest => part ++ laterParts parts close rest

/-- The items of an array. -/
theorem items_joinedParts {parts : List Bytes} {all : List α} (each : List.Forall₂ (ReadsPart item) parts all) (rest : Bytes) :
    items item (joinedParts parts ']'.toUInt8 rest) true (joinedParts parts ']'.toUInt8 rest) = .ok (all, rest) := by
  cases each with
  | nil =>
    rw [joinedParts, items, nextItem_close]
    rfl
  | @cons part a parts all first later =>
    obtain ⟨blanks, text, rfl, blank, opens, reads⟩ := first
    have enough : parts.length + 1 < (blanks ++ text ++ laterParts parts ']'.toUInt8 rest).length := by
      have nonempty := opens.length_pos
      have later := length_lt_laterParts parts ']'.toUInt8 rest
      simp only [List.length_append]
      omega
    have opened := nextItem_first opens (laterParts parts ']'.toUInt8 rest)
    have read := reads _ (numberEnds_laterParts numberEnds_bracket parts rest)
    rw [joinedParts]
    obtain ⟨byte, bound, split⟩ := List.exists_cons_of_length_pos (Nat.zero_lt_of_lt enough)
    have enough' : parts.length < bound.length := by
      rw [split] at enough
      exact Nat.lt_of_succ_lt_succ enough
    have remaining := items_laterParts later enough' rest
    rw [split, items, ← split, List.append_assoc, nextItem_blanks blank, opened]
    simp only [bind, Except.bind, if_true, read, remaining]

/-! ### Members -/

theorem nextKey_close (first : Bool) (rest : Bytes) : nextKey first ('\x7d'.toUInt8 :: rest) = .ok (false, rest) := by
  rw [nextKey, skipBlanks_cons (by decide)]
  exact if_pos rfl

theorem nextKey_first (rest : Bytes) : nextKey true ('"'.toUInt8 :: rest) = .ok (true, rest) := by
  rw [nextKey, skipBlanks_cons (by decide)]
  dsimp only
  rw [if_neg (by decide), if_pos rfl, if_pos rfl]

theorem nextKey_comma (rest : Bytes) : nextKey false (','.toUInt8 :: '"'.toUInt8 :: rest) = .ok (true, rest) := by
  rw [nextKey, skipBlanks_cons (by decide)]
  dsimp only
  rw [if_neg (by decide), if_neg Bool.false_ne_true, if_pos rfl, skipBlanks_cons (by decide)]
  exact if_pos rfl

theorem colon_cons (rest : Bytes) : colon (':'.toUInt8 :: rest) = .ok rest := by
  rw [colon, skipBlanks_cons (by decide)]
  exact if_pos rfl

/-- A member: its quoted key, a colon and its value. -/
def memberPart (key : String) (text : Bytes) : Bytes := '"'.toUInt8 :: (quotedTail key ++ ':'.toUInt8 :: text)

/-- A member is read behind the first quote of its key. -/
def ReadsMember (member : Bytes → Except Failure (α × Bytes)) (part : Bytes) (entry : String × α) : Prop :=
  ∃ text, part = memberPart entry.1 text ∧ ReadsAs member text entry.2

/-- A member is read behind the blanks that its part begins with, and blanks may stand behind its colon. -/
def ReadsMemberPart (member : Bytes → Except Failure (α × Bytes)) (part : Bytes) (entry : String × α) : Prop :=
  ∃ blanks text, part = blanks ++ memberPart entry.1 text ∧ Blank blanks ∧
    ∀ rest, NumberEnds rest → member (text ++ rest) = .ok (entry.2, rest)

variable {member : Bytes → Except Failure (α × Bytes)}

theorem ReadsMember.part {part : Bytes} {entry : String × α} (reads : ReadsMember member part entry) :
    ReadsMemberPart member part entry := by
  obtain ⟨text, rfl, -, read⟩ := reads
  exact ⟨[], text, rfl, List.forall_mem_nil _, read⟩

theorem nextKey_blanks {blanks : Bytes} (blank : Blank blanks) (first : Bool) (rest : Bytes) :
    nextKey first (blanks ++ rest) = nextKey first rest := by
  rw [nextKey, skipBlanks_append blank, ← nextKey]

theorem nextKey_comma_blanks {blanks : Bytes} (blank : Blank blanks) (rest : Bytes) :
    nextKey false (','.toUInt8 :: (blanks ++ rest)) = nextKey false (','.toUInt8 :: rest) := by
  rw [nextKey, nextKey, skipBlanks_cons (by decide), skipBlanks_cons (by decide)]
  dsimp only
  rw [skipBlanks_append blank]
  rfl

theorem members_laterParts {parts : List Bytes} {all : List (String × α)}
    (each : List.Forall₂ (ReadsMemberPart member) parts all) {bound : Bytes} (enough : parts.length < bound.length)
    (rest : Bytes) : members member bound false (laterParts parts '\x7d'.toUInt8 rest) = .ok (all, rest) := by
  induction each generalizing bound with
  | nil =>
    obtain ⟨byte, bound, rfl⟩ := List.exists_cons_of_length_pos enough
    rw [laterParts, List.flatMap_nil, List.nil_append, members, nextKey_close]
    rfl
  | @cons part entry parts all first _ ih =>
    obtain ⟨byte, bound, rfl⟩ := List.exists_cons_of_length_pos (Nat.zero_lt_of_lt enough)
    obtain ⟨blanks, text, rfl, blank, read⟩ := first
    have later := ih (Nat.lt_of_succ_lt_succ enough)
    have value := read _ (numberEnds_laterParts numberEnds_brace parts rest)
    rw [laterParts_cons, List.append_assoc, members, nextKey_comma_blanks blank, memberPart, List.cons_append,
      List.append_assoc, List.cons_append, nextKey_comma]
    simp only [bind, Except.bind, if_true, string_quotedTail, colon_cons, value, later]

/-- The members of an object. -/
theorem members_joinedParts {parts : List Bytes} {all : List (String × α)}
    (each : List.Forall₂ (ReadsMemberPart member) parts all) (rest : Bytes) :
    members member (joinedParts parts '\x7d'.toUInt8 rest) true (joinedParts parts '\x7d'.toUInt8 rest) = .ok (all, rest) := by
  cases each with
  | nil =>
    rw [joinedParts, members, nextKey_close]
    rfl
  | @cons part entry parts all first later =>
    obtain ⟨blanks, text, rfl, blank, read⟩ := first
    have value := read _ (numberEnds_laterParts numberEnds_brace parts rest)
    have enough : parts.length + 1 < (blanks ++ memberPart entry.1 text ++ laterParts parts '\x7d'.toUInt8 rest).length := by
      have later := length_lt_laterParts parts '\x7d'.toUInt8 rest
      simp only [memberPart, List.length_append, List.length_cons]
      omega
    rw [joinedParts]
    obtain ⟨byte, bound, split⟩ := List.exists_cons_of_length_pos (Nat.zero_lt_of_lt enough)
    have enough' : parts.length < bound.length := by
      rw [split] at enough
      exact Nat.lt_of_succ_lt_succ enough
    have remaining := members_laterParts later enough' rest
    rw [split, members, ← split, List.append_assoc, nextKey_blanks blank, memberPart, List.cons_append, List.append_assoc,
      List.cons_append, nextKey_first]
    simp only [bind, Except.bind, if_true, string_quotedTail, colon_cons, value, remaining]

end

/-! ## Values -/

theorem word_append (spelling rest : Bytes) : word spelling (spelling ++ rest) = .ok rest := by
  induction spelling with
  | nil => cases rest <;> rfl
  | cons byte spelling ih => rw [List.cons_append, word, if_pos rfl, ih]

theorem value_blanks {blanks : Bytes} (blank : Blank blanks) (budget : Nat) (rest : Bytes) :
    value budget (blanks ++ rest) = value budget rest := by
  unfold value
  rw [skipBlanks_append blank]

theorem value_null (budget : Nat) (rest : Bytes) : value budget (Utf8.encode "null" ++ rest) = .ok (.null, rest) := by
  have spelled : Utf8.encode "null" = 'n'.toUInt8 :: Utf8.encode "ull" := by decide
  rw [spelled, List.cons_append]
  unfold value
  rw [skipBlanks_cons (by decide)]
  dsimp only
  rw [if_pos rfl, word_append]
  rfl

theorem value_true (budget : Nat) (rest : Bytes) : value budget (Utf8.encode "true" ++ rest) = .ok (.bool true, rest) := by
  have spelled : Utf8.encode "true" = 't'.toUInt8 :: Utf8.encode "rue" := by decide
  rw [spelled, List.cons_append]
  unfold value
  rw [skipBlanks_cons (by decide)]
  dsimp only
  rw [if_neg (by decide), if_pos rfl, word_append]
  rfl

theorem value_false (budget : Nat) (rest : Bytes) : value budget (Utf8.encode "false" ++ rest) = .ok (.bool false, rest) := by
  have spelled : Utf8.encode "false" = 'f'.toUInt8 :: Utf8.encode "alse" := by decide
  rw [spelled, List.cons_append]
  unfold value
  rw [skipBlanks_cons (by decide)]
  dsimp only
  rw [if_neg (by decide), if_neg (by decide), if_pos rfl, word_append]
  rfl

theorem value_quote (budget : Nat) (s : String) (rest : Bytes) :
    value budget (Utf8.encode (Json.quote s) ++ rest) = .ok (.string s, rest) := by
  rw [encode_quote, List.cons_append]
  unfold value
  rw [skipBlanks_cons (by decide)]
  dsimp only
  rw [if_neg (by decide), if_neg (by decide), if_neg (by decide), if_neg (by decide), if_neg (by decide), if_pos rfl,
    string_quotedTail]
  rfl

theorem value_bracket (budget : Nat) (rest : Bytes) :
    value (budget + 1) ('['.toUInt8 :: rest) = (items (value budget) rest true rest).map fun (all, left) => (.array all, left) := by
  unfold value
  rw [skipBlanks_cons (by decide)]
  dsimp only
  rw [if_neg (by decide), if_neg (by decide), if_neg (by decide), if_neg (by decide), if_neg (by decide), if_neg (by decide),
    if_pos rfl]
  cases items (value budget) rest true rest <;> rfl

theorem value_brace (budget : Nat) (rest : Bytes) :
    value (budget + 1) ('\x7b'.toUInt8 :: rest) =
      (members (value budget) rest true rest).map fun (all, left) => (.object all, left) := by
  unfold value
  rw [skipBlanks_cons (by decide)]
  dsimp only
  rw [if_neg (by decide), if_neg (by decide), if_neg (by decide), if_neg (by decide), if_neg (by decide), if_neg (by decide),
    if_neg (by decide), if_pos rfl]
  cases members (value budget) rest true rest <;> rfl

/-! ## Nesting -/

/-- Arrays that nest deeper than the budget are refused at the first one that is too deep, whatever stands in it. -/
theorem value_tooDeep (budget : Nat) (rest : Bytes) :
    value budget (List.replicate (budget + 1) '['.toUInt8 ++ rest) = fail .tooDeep rest.length := by
  induction budget with
  | zero =>
    unfold value
    rfl
  | succ budget ih =>
    have opens : Opens (List.replicate (budget + 1) '['.toUInt8) := ⟨_, _, rfl, by decide, by decide⟩
    have refused : items (value budget) (List.replicate (budget + 1) '['.toUInt8 ++ rest) true
        (List.replicate (budget + 1) '['.toUInt8 ++ rest) = fail .tooDeep rest.length := by
      show items (value budget) (_ :: (List.replicate budget '['.toUInt8 ++ rest)) true _ = _
      rw [items, nextItem_first opens]
      show (value budget _ >>= _) = _
      rw [ih]
      rfl
    rw [List.replicate_succ, List.cons_append, value_bracket, refused]
    rfl

theorem parse_tooDeep (rest : Bytes) :
    parse (List.replicate (nestingLimit + 1) '['.toUInt8 ++ rest) = fail .tooDeep rest.length := by
  rw [parse, parseWithin, value_tooDeep]
  rfl

end JsonText

end RecordQuery
