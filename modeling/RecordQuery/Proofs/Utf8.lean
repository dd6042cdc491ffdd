import RecordQuery.Text.Utf8

/-!
# Text through its bytes

The bytes of a text are read back as that text (`Utf8.decode?_encode`), and no other bytes are read as it
(`Utf8.encode_of_decode?`). Those of a character beyond ASCII lie beyond ASCII themselves
(`Utf8.le_of_mem_encodeChar`), so that no such character can be taken for one of the marks of a format.
-/

namespace RecordQuery.Utf8

/-! ## Single bytes -/

theorem toNat_ofNat {n : Nat} (small : n < 256) : (UInt8.ofNat n).toNat = n := by
  simp [Nat.mod_eq_of_lt small]

theorem lead?_ofNat {n : Nat} (small : n < 256) :
    lead? (UInt8.ofNat n) =
      if n < 0x80 then some { value := n, more := 0 }
      else if n < 0xC2 then none
      else if n < 0xE0 then some { value := n - 0xC0, more := 1 }
      else if n = 0xE0 then some { value := 0, more := 2, low := 0xA0 }
      else if n = 0xED then some { value := 0xD, more := 2, high := 0x9F }
      else if n < 0xF0 then some { value := n - 0xE0, more := 2 }
      else if n = 0xF0 then some { value := 0, more := 3, low := 0x90 }
      else if n = 0xF4 then some { value := 4, more := 3, high := 0x8F }
      else if n < 0xF4 then some { value := n - 0xF0, more := 3 }
      else none := by
  unfold lead?
  simp only [UInt8.lt_iff_toNat_lt, ← UInt8.toNat_inj, toNat_ofNat small]
  rfl

theorem follow_ofNat {low high : UInt8} {value more n : Nat} {rest : Bytes} (small : n < 256)
    (within : low.toNat ≤ n ∧ n ≤ high.toNat) :
    follow low high value (more + 1) (UInt8.ofNat n :: rest) = follow 0x80 0xBF (value * 64 + n % 64) more rest := by
  have inRange : (low ≤ UInt8.ofNat n && UInt8.ofNat n ≤ high) = true := by
    simpa [UInt8.le_iff_toNat_le, toNat_ofNat small] using within
  rw [follow, if_pos inRange, toNat_ofNat small]

/-! ## Characters -/

/-- Which numbers are code points of characters: all but the surrogates. -/
theorem toNat_valid (c : Char) : c.toNat < 0xD800 ∨ 0xDFFF < c.toNat ∧ c.toNat < 0x110000 := c.valid

/-- A tail byte, of some bits of a code point. -/
theorem follow_tail (value more bits : Nat) (rest : Bytes) (small : bits < 64) :
    follow 0x80 0xBF value (more + 1) (UInt8.ofNat (0x80 + bits) :: rest) = follow 0x80 0xBF (value * 64 + bits) more rest := by
  rw [follow_ofNat (by omega) (by simp; omega)]
  congr 1
  omega

/-- What the lead byte of three announces. -/
theorem lead?_three {bits : Nat} (small : bits < 16) :
    lead? (UInt8.ofNat (0xE0 + bits)) =
      some ⟨bits, 2, if bits = 0 then 0xA0 else 0x80, if bits = 0xD then 0x9F else 0xBF⟩ := by
  rw [lead?_ofNat (by omega), if_neg (by omega), if_neg (by omega), if_neg (by omega)]
  by_cases zero : bits = 0
  · subst zero
    rfl
  · by_cases thirteen : bits = 0xD
    · subst thirteen
      rfl
    · rw [if_neg (by omega), if_neg (by omega), if_pos (by omega), if_neg zero, if_neg thirteen]
      simp

/-- What the lead byte of four announces. -/
theorem lead?_four {bits : Nat} (small : bits < 5) :
    lead? (UInt8.ofNat (0xF0 + bits)) =
      some ⟨bits, 3, if bits = 0 then 0x90 else 0x80, if bits = 4 then 0x8F else 0xBF⟩ := by
  rw [lead?_ofNat (by omega), if_neg (by omega), if_neg (by omega), if_neg (by omega), if_neg (by omega),
    if_neg (by omega), if_neg (by omega)]
  by_cases zero : bits = 0
  · subst zero
    rfl
  · by_cases four : bits = 4
    · subst four
      rfl
    · rw [if_neg (by omega), if_neg (by omega), if_pos (by omega), if_neg zero, if_neg four]
      simp

/-- The lead byte of a character and the bytes behind it are read as that character. -/
theorem next_encodeChar (c : Char) (rest : Bytes) :
    ∃ byte more, encodeChar c = byte :: more ∧ next byte (more ++ rest) = (some c, rest) := by
  have valid := toNat_valid c
  have readBack : Char.ofNat c.toNat = c := c.ofNat_toNat
  unfold encodeChar
  simp only
  generalize c.toNat = n at valid readBack
  split
  next one =>
    refine ⟨_, _, rfl, ?_⟩
    rw [next, lead?_ofNat (by omega), if_pos one]
    simp [follow, readBack]
  split
  next two =>
    refine ⟨_, _, rfl, ?_⟩
    rw [next, lead?_ofNat (by omega), if_neg (by omega), if_neg (by omega), if_pos (by omega)]
    simp only [List.cons_append, List.nil_append]
    rw [follow_tail _ _ _ _ (by omega), follow, show (0xC0 + n / 64 - 0xC0) * 64 + n % 64 = n by omega]
    simp [readBack]
  split
  next three =>
    have whole : (n / 4096 * 64 + (0x80 + n / 64 % 64) % 64) * 64 + n % 64 = n := by omega
    refine ⟨_, _, rfl, ?_⟩
    rw [next, lead?_three (by omega)]
    simp only [List.cons_append, List.nil_append]
    rw [follow_ofNat (by omega) ?_, follow_tail _ _ _ _ (by omega), follow, whole]
    · simp [readBack]
    · constructor <;> split <;> simp <;> omega
  next four =>
    have whole : ((n / 262144 * 64 + (0x80 + n / 4096 % 64) % 64) * 64 + n / 64 % 64) * 64 + n % 64 = n := by omega
    refine ⟨_, _, rfl, ?_⟩
    rw [next, lead?_four (by omega)]
    simp only [List.cons_append, List.nil_append]
    rw [follow_ofNat (by omega) ?_, follow_tail _ _ _ _ (by omega), follow_tail _ _ _ _ (by omega), follow, whole]
    · simp [readBack]
    · constructor <;> split <;> simp <;> omega

/-- Every byte of a character beyond ASCII is one beyond ASCII. -/
theorem le_of_mem_encodeChar {c : Char} (wide : 0x80 ≤ c.toNat) {byte : UInt8} (member : byte ∈ encodeChar c) :
    0x80 ≤ byte.toNat := by
  have valid := toNat_valid c
  unfold encodeChar at member
  simp only at member
  generalize c.toNat = n at valid member wide
  have above {m : Nat} (low : 0x80 ≤ m) (small : m < 256) : 0x80 ≤ (UInt8.ofNat m).toNat := by
    rw [toNat_ofNat small]
    exact low
  split at member
  · omega
  split at member
  · rcases List.mem_cons.mp member with rfl | member
    · exact above (by omega) (by omega)
    · obtain rfl := List.mem_singleton.mp member
      exact above (by omega) (by omega)
  split at member
  all_goals
    simp only [List.mem_cons, List.not_mem_nil, or_false] at member
    rcases member with rfl | rfl | rfl | rfl <;> exact above (by omega) (by omega)

theorem encodeChar_of_ascii {c : Char} (ascii : c.toNat < 0x80) : encodeChar c = [UInt8.ofNat c.toNat] := by
  simp [encodeChar, ascii]

/-- A byte of ASCII in a character is all of that character. -/
theorem toNat_of_mem_encodeChar {c : Char} {byte : UInt8} (ascii : byte.toNat < 0x80) (member : byte ∈ encodeChar c) :
    c.toNat = byte.toNat := by
  by_cases wide : 0x80 ≤ c.toNat
  · have := le_of_mem_encodeChar wide member
    omega
  · rw [encodeChar_of_ascii (Nat.not_le.mp wide), List.mem_singleton] at member
    rw [member, toNat_ofNat (by omega)]

/-! ## Whole texts -/

theorem scan_encodeChar (c : Char) (rest : Bytes) : scan (encodeChar c ++ rest) = some c :: scan rest := by
  obtain ⟨byte, more, spelled, read⟩ := next_encodeChar c rest
  rw [spelled, List.cons_append, scan, read]

theorem scan_flatMap_encodeChar (text : List Char) : scan (text.flatMap encodeChar) = text.map some := by
  induction text with
  | nil => simp [scan]
  | cons c text ih => rw [List.flatMap_cons, scan_encodeChar, ih, List.map_cons]

theorem mapM_id_map_some {α : Type} (xs : List α) : (xs.map some).mapM id = some xs := by
  induction xs with
  | nil => rfl
  | cons x xs ih => simp [ih]

/-- Text is read back from its bytes. -/
theorem decode?_flatMap_encodeChar (text : List Char) :
    decode? (text.flatMap encodeChar) = some (String.ofList text) := by
  rw [decode?, scan_flatMap_encodeChar, mapM_id_map_some, Option.map_some]

theorem decode?_encode (text : String) : decode? (encode text) = some text := by
  rw [encode, decode?_flatMap_encodeChar, String.ofList_toList]

theorem encode_append (left right : String) : encode (left ++ right) = encode left ++ encode right := by
  simp [encode]

theorem length_encodeChar (c : Char) : (encodeChar c).length = c.utf8Size := by
  have below (n : UInt32) : c.val ≤ n ↔ c.toNat ≤ n.toNat := UInt32.le_iff_toNat_le
  simp only [encodeChar, Char.utf8Size, below, UInt32.toNat_ofNatLT]
  by_cases one : c.toNat < 0x80
  · rw [if_pos one, if_pos (by omega)]
    rfl
  by_cases two : c.toNat < 0x800
  · rw [if_neg one, if_pos two, if_neg (by omega), if_pos (by omega)]
    rfl
  by_cases three : c.toNat < 0x10000
  · rw [if_neg one, if_neg two, if_pos three, if_neg (by omega), if_neg (by omega), if_pos (by omega)]
    rfl
  · rw [if_neg one, if_neg two, if_neg three, if_neg (by omega), if_neg (by omega), if_neg (by omega)]
    rfl

/-- A text has as many bytes as its characters take. -/
theorem length_encode (text : String) : (encode text).length = text.utf8ByteSize := by
  suffices ∀ chars : List Char, (chars.flatMap encodeChar).length = (String.ofList chars).utf8ByteSize by
    simpa [encode] using this text.toList
  intro chars
  induction chars with
  | nil => rfl
  | cons c chars ih =>
    rw [List.flatMap_cons, List.length_append, length_encodeChar, ih, String.ofList_cons, String.utf8ByteSize_append,
      String.utf8ByteSize_singleton]

theorem mem_of_mem_encode {text : String} {c : Char} (ascii : c.toNat < 0x80) (member : UInt8.ofNat c.toNat ∈ encode text) :
    c ∈ text.toList := by
  obtain ⟨d, isChar, spelled⟩ := List.mem_flatMap.mp member
  have small : (UInt8.ofNat c.toNat).toNat = c.toNat := toNat_ofNat (by omega)
  have same := toNat_of_mem_encodeChar (by omega) spelled
  rw [small] at same
  obtain rfl : d = c := Char.toNat_inj.mp same
  exact isChar

/-! ## Bytes that are text -/

/-- One more byte is read behind a lead byte if it is in range; its last six bits are those of the code point. -/
theorem follow_succ {low high : UInt8} {value more point : Nat} {rest left : Bytes} (least : 0x80 ≤ low.toNat)
    (most : high.toNat ≤ 0xBF) (read : follow low high value (more + 1) rest = (some point, left)) :
    ∃ byte onward bits, rest = byte :: onward ∧ byte.toNat = 0x80 + bits ∧ bits < 64 ∧ low.toNat ≤ 0x80 + bits ∧
      0x80 + bits ≤ high.toNat ∧ follow 0x80 0xBF (value * 64 + bits) more onward = (some point, left) := by
  cases rest with
  | nil => cases read
  | cons byte onward =>
    rw [follow] at read
    split at read
    next within =>
      simp only [Bool.and_eq_true, decide_eq_true_eq, UInt8.le_iff_toNat_le] at within
      have spelled : byte.toNat = 0x80 + byte.toNat % 64 := by omega
      exact ⟨byte, onward, byte.toNat % 64, rfl, spelled, by omega, by omega, by omega, read⟩
    next => cases read

/-- A byte behind the first of those that follow a lead byte has six free bits. -/
theorem follow_more {value more point : Nat} {rest left : Bytes}
    (read : follow 0x80 0xBF value (more + 1) rest = (some point, left)) :
    ∃ byte onward bits, rest = byte :: onward ∧ byte.toNat = 0x80 + bits ∧ bits < 64 ∧
      follow 0x80 0xBF (value * 64 + bits) more onward = (some point, left) := by
  obtain ⟨byte, onward, bits, split, spelled, small, -, -, read⟩ := follow_succ (by decide) (by decide) read
  exact ⟨byte, onward, bits, split, spelled, small, read⟩

theorem follow_zero {low high : UInt8} {value point : Nat} {rest left : Bytes}
    (read : follow low high value 0 rest = (some point, left)) : value = point ∧ rest = left := by
  simpa [follow] using read

theorem toNat_char {n : Nat} (valid : n < 0xD800 ∨ 0xDFFF < n ∧ n < 0x110000) : (Char.ofNat n).toNat = n := by
  rw [Char.ofNat, dif_pos valid]
  rfl

/-- The bytes of the character of a code point, by their numbers. -/
theorem encodeChar_char {n : Nat} (valid : n < 0xD800 ∨ 0xDFFF < n ∧ n < 0x110000) {bytes : Bytes}
    (spelled : bytes.map UInt8.toNat =
      if n < 0x80 then [n] else if n < 0x800 then [0xC0 + n / 64, 0x80 + n % 64]
      else if n < 0x10000 then [0xE0 + n / 4096, 0x80 + n / 64 % 64, 0x80 + n % 64]
      else [0xF0 + n / 262144, 0x80 + n / 4096 % 64, 0x80 + n / 64 % 64, 0x80 + n % 64]) :
    encodeChar (Char.ofNat n) = bytes := by
  have ofMap : bytes = (bytes.map UInt8.toNat).map UInt8.ofNat := by
    rw [List.map_map]
    simp [Function.comp_def]
  rw [encodeChar, toNat_char valid, ofMap, spelled]
  repeat' split
  all_goals rfl

section

variable {value second third fourth : Nat} {bytes : Bytes}

theorem encodeChar_two (least : 2 ≤ value) (most : value < 32) (small : second < 64)
    (spelled : bytes.map UInt8.toNat = [0xC0 + value, 0x80 + second]) :
    encodeChar (Char.ofNat (value * 64 + second)) = bytes := by
  have first : (value * 64 + second) / 64 = value := by omega
  have last : (value * 64 + second) % 64 = second := by omega
  refine encodeChar_char (by omega) ?_
  rw [if_neg (by omega), if_pos (by omega), first, last, spelled]

theorem encodeChar_three (most : value < 16) (least : value = 0 → 32 ≤ second) (gap : value = 13 → second < 32)
    (small : second < 64) (small' : third < 64) (spelled : bytes.map UInt8.toNat = [0xE0 + value, 0x80 + second, 0x80 + third]) :
    encodeChar (Char.ofNat ((value * 64 + second) * 64 + third)) = bytes := by
  have upper : ((value * 64 + second) * 64 + third) / 64 = value * 64 + second := by omega
  have first : ((value * 64 + second) * 64 + third) / 4096 = value := by omega
  have mid : (value * 64 + second) % 64 = second := by omega
  have last : ((value * 64 + second) * 64 + third) % 64 = third := by omega
  refine encodeChar_char (by omega) ?_
  rw [if_neg (by omega), if_neg (by omega), if_pos (by omega), first, upper, mid, last, spelled]

theorem encodeChar_four (least : value = 0 → 16 ≤ second) (most : value < 4 ∨ value = 4 ∧ second < 16) (small : second < 64)
    (small' : third < 64) (small'' : fourth < 64)
    (spelled : bytes.map UInt8.toNat = [0xF0 + value, 0x80 + second, 0x80 + third, 0x80 + fourth]) :
    encodeChar (Char.ofNat (((value * 64 + second) * 64 + third) * 64 + fourth)) = bytes := by
  have lower : (((value * 64 + second) * 64 + third) * 64 + fourth) / 64 = (value * 64 + second) * 64 + third := by omega
  have upper : (((value * 64 + second) * 64 + third) * 64 + fourth) / 4096 = value * 64 + second := by omega
  have first : (((value * 64 + second) * 64 + third) * 64 + fourth) / 262144 = value := by omega
  have mid : (value * 64 + second) % 64 = second := by omega
  have mid' : ((value * 64 + second) * 64 + third) % 64 = third := by omega
  have last : (((value * 64 + second) * 64 + third) * 64 + fourth) % 64 = fourth := by omega
  refine encodeChar_char (by omega) ?_
  rw [if_neg (by omega), if_neg (by omega), if_neg (by omega), first, upper, lower, mid, mid', last, spelled]

end

/-- What a lead byte announces, by how many bytes follow it. -/
inductive Announced (byte : UInt8) : Lead → Prop where
  | one (small : byte.toNat < 0x80) : Announced byte { value := byte.toNat, more := 0 }
  | two {value : Nat} (spelled : byte.toNat = 0xC0 + value) (least : 2 ≤ value) (most : value < 32) :
      Announced byte { value, more := 1 }
  | three {value : Nat} {low high : UInt8} (spelled : byte.toNat = 0xE0 + value) (most : value < 16)
      (above : 0x80 ≤ low.toNat) (below : high.toNat ≤ 0xBF) (least : value = 0 → 0xA0 ≤ low.toNat)
      (gap : value = 13 → high.toNat ≤ 0x9F) : Announced byte { value, more := 2, low, high }
  | four {value : Nat} {low high : UInt8} (spelled : byte.toNat = 0xF0 + value)
      (most : value < 4 ∨ value = 4 ∧ high.toNat ≤ 0x8F) (above : 0x80 ≤ low.toNat) (below : high.toNat ≤ 0xBF)
      (least : value = 0 → 0x90 ≤ low.toNat) : Announced byte { value, more := 3, low, high }

theorem announced_of_lead? {byte : UInt8} {lead : Lead} (found : lead? byte = some lead) : Announced byte lead := by
  have small : byte.toNat < 256 := byte.toNat_lt
  have spelled : lead? (UInt8.ofNat byte.toNat) = some lead := by rw [UInt8.ofNat_toNat, found]
  by_cases three : 0xE0 ≤ byte.toNat ∧ byte.toNat < 0xF0
  · obtain ⟨bits, ofBits⟩ : ∃ bits, byte.toNat = 0xE0 + bits := ⟨byte.toNat - 0xE0, by omega⟩
    rw [ofBits, lead?_three (by omega)] at spelled
    obtain rfl := Option.some.inj spelled
    refine .three ofBits (by omega) ?_ ?_ (fun zero => ?_) fun gap => ?_
    · split <;> decide
    · split <;> decide
    · rw [if_pos zero]
      decide
    · rw [if_pos gap]
      decide
  by_cases four : 0xF0 ≤ byte.toNat ∧ byte.toNat < 0xF5
  · obtain ⟨bits, ofBits⟩ : ∃ bits, byte.toNat = 0xF0 + bits := ⟨byte.toNat - 0xF0, by omega⟩
    rw [ofBits, lead?_four (by omega)] at spelled
    obtain rfl := Option.some.inj spelled
    refine .four ofBits ?_ ?_ ?_ fun zero => ?_
    · by_cases last : bits = 4
      · exact .inr ⟨last, by rw [if_pos last]; decide⟩
      · exact .inl (by omega)
    · split <;> decide
    · split <;> decide
    · rw [if_pos zero]
      decide
  rw [lead?_ofNat small] at spelled
  by_cases one : byte.toNat < 0x80
  · rw [if_pos one] at spelled
    obtain rfl := Option.some.inj spelled
    exact .one one
  rw [if_neg one] at spelled
  by_cases behind : byte.toNat < 0xC2
  · rw [if_pos behind] at spelled
    cases spelled
  rw [if_neg behind] at spelled
  by_cases two : byte.toNat < 0xE0
  · rw [if_pos two] at spelled
    obtain rfl := Option.some.inj spelled
    exact .two (by omega) (by omega) (by omega)
  rw [if_neg two, if_neg (by omega), if_neg (by omega), if_neg (by omega), if_neg (by omega), if_neg (by omega),
    if_neg (by omega)] at spelled
  cases spelled

/-- What is read as a character are its bytes. -/
theorem next_eq_some {byte : UInt8} {rest left : Bytes} {c : Char} (read : next byte rest = (some c, left)) :
    byte :: rest = encodeChar c ++ left := by
  unfold next at read
  cases found : lead? byte with
  | none => simp [found] at read
  | some lead =>
    rw [found] at read
    cases followed : follow lead.low lead.high lead.value lead.more rest with
    | mk point rest' =>
      simp only [followed, Prod.mk.injEq, Option.map_eq_some_iff] at read
      obtain ⟨⟨point, rfl, rfl⟩, rfl⟩ := read
      cases announced_of_lead? found with
      | one small =>
        obtain ⟨rfl, rfl⟩ := follow_zero followed
        have spelled : encodeChar (Char.ofNat byte.toNat) = [byte] := encodeChar_char (by omega) (by simp [small])
        rw [spelled, List.singleton_append]
      | @two value ofFirst least most =>
        obtain ⟨second, onward, bits, rfl, ofSecond, small, followed⟩ := follow_more followed
        obtain ⟨rfl, rfl⟩ := follow_zero followed
        have spelled : [byte, second].map UInt8.toNat = [0xC0 + value, 0x80 + bits] := by
          rw [List.map, List.map, List.map, ofFirst, ofSecond]
        rw [encodeChar_two least most small spelled]
        rfl
      | @three value _ _ ofFirst most above below least gap =>
        obtain ⟨second, onward, bits, rfl, ofSecond, small, above, below, followed⟩ := follow_succ above below followed
        obtain ⟨third, onward, bits', rfl, ofThird, small', followed⟩ := follow_more followed
        obtain ⟨rfl, rfl⟩ := follow_zero followed
        have spelled : [byte, second, third].map UInt8.toNat = [0xE0 + value, 0x80 + bits, 0x80 + bits'] := by
          rw [List.map, List.map, List.map, List.map, ofFirst, ofSecond, ofThird]
        rw [encodeChar_three most (by omega) (by omega) small small' spelled]
        rfl
      | @four value _ _ ofFirst most above below least =>
        obtain ⟨second, onward, bits, rfl, ofSecond, small, above, below, followed⟩ := follow_succ above below followed
        obtain ⟨third, onward, bits', rfl, ofThird, small', followed⟩ := follow_more followed
        obtain ⟨fourth, onward, bits'', rfl, ofFourth, small'', followed⟩ := follow_more followed
        obtain ⟨rfl, rfl⟩ := follow_zero followed
        have spelled : [byte, second, third, fourth].map UInt8.toNat = [0xF0 + value, 0x80 + bits, 0x80 + bits', 0x80 + bits''] := by
          rw [List.map, List.map, List.map, List.map, List.map, ofFirst, ofSecond, ofThird, ofFourth]
        rw [encodeChar_four (by omega) (by omega) small small' small'' spelled]
        rfl

theorem decode?_cons (byte : UInt8) (rest : Bytes) :
    decode? (byte :: rest) = (next byte rest).1.bind fun c => (decode? (next byte rest).2).map (String.singleton c ++ ·) := by
  rw [decode?, decode?, scan, List.mapM_cons]
  cases (next byte rest).1 with
  | none => rfl
  | some c =>
    cases (scan (next byte rest).2).mapM id with
    | none => rfl
    | some text => simp

/-- Bytes are read as a text only if they are its bytes. -/
theorem encode_of_decode? {bytes : Bytes} {text : String} (read : decode? bytes = some text) : encode text = bytes := by
  induction bytes using scan.induct generalizing text with
  | case1 =>
    obtain rfl : "" = text := by simpa [decode?, scan] using read
    rfl
  | case2 byte rest _ ih =>
    rw [decode?_cons] at read
    obtain ⟨c, first, later⟩ := Option.bind_eq_some_iff.mp read
    obtain ⟨more, readMore, rfl⟩ := Option.map_eq_some_iff.mp later
    rw [encode_append, ih readMore, next_eq_some (Prod.ext first rfl)]
    simp [encode]

end RecordQuery.Utf8

namespace RecordQuery

/-! ## Texts without controls -/

/-- No character of a text is a control below the blank. -/
def Printable (text : String) : Prop := ∀ c ∈ text.toList, 0x20 ≤ c.toNat

theorem printable_of_all {text : String} (all : (text.toList.all fun c => 0x20 ≤ c.toNat) = true) : Printable text := by
  simpa [Printable] using all

theorem Printable.append {left right : String} (ofLeft : Printable left) (ofRight : Printable right) :
    Printable (left ++ right) := by
  intro c member
  rw [String.toList_append] at member
  exact (List.mem_append.mp member).elim (ofLeft c) (ofRight c)

end RecordQuery
