import RecordQuery.Proofs.Keys
import RecordQuery.Proofs.RoundTrip

/-!
# What readers leave

Every reader of JSON text leaves an end of the bytes that it was given (`Leaves`). An item of an array takes at least
one of the turns that its reader has, and these are as many as the bytes behind the bracket; so no array in a text, at
any depth, has as many items as the text has bytes (`Value.arraysBelow_of_parse`).
-/

namespace RecordQuery.JsonText

variable {α β : Type} {P : α → Prop} {Q : β → Prop} {input : Bytes}

/-- What is read, if anything is, has a property, and an end of some bytes is left. -/
def Leaves (input : Bytes) (P : α → Prop) (read : Except Failure (α × Bytes)) : Prop :=
  ∀ a rest, read = .ok (a, rest) → rest <:+ input ∧ P a

namespace Leaves

theorem ok {a : α} {rest : Bytes} (ending : rest <:+ input) (holds : P a) : Leaves input P (.ok (a, rest)) := by
  rintro _ _ ⟨⟩
  exact ⟨ending, holds⟩

theorem error (failure : Failure) : Leaves input P (.error failure) := nofun

theorem of_bind {γ : Type} {x : Except Failure γ} {f : γ → Except Failure (α × Bytes)}
    (next : ∀ c, x = .ok c → Leaves input P (f c)) : Leaves input P (x >>= f) := by
  cases x with
  | error failure => exact error failure
  | ok c => exact next c rfl

theorem bind {read : Except Failure (α × Bytes)} {f : α × Bytes → Except Failure (β × Bytes)}
    (first : Leaves input P read) (next : ∀ a rest, rest <:+ input → P a → Leaves input Q (f (a, rest))) :
    Leaves input Q (read >>= f) := by
  refine of_bind fun ⟨a, rest⟩ started => ?_
  obtain ⟨ending, holds⟩ := first a rest started
  exact next a rest ending holds

theorem ite {condition : Prop} [Decidable condition] {x y : Except Failure (α × Bytes)} (yes : Leaves input P x)
    (no : Leaves input P y) : Leaves input P (if condition then x else y) := by
  split
  · exact yes
  · exact no

theorem behind {inner : Bytes} {read : Except Failure (α × Bytes)} (leaves : Leaves inner P read)
    (ending : inner <:+ input) : Leaves input P read := by
  intro a rest ended
  obtain ⟨left, holds⟩ := leaves a rest ended
  exact ⟨left.trans ending, holds⟩

end Leaves

/-! ## Blanks, words and digits -/

theorem suffix_skipBlanks (input : Bytes) : skipBlanks input <:+ input := by
  induction input with
  | nil => exact List.suffix_rfl
  | cons byte rest ih =>
    rw [skipBlanks]
    split
    · exact ih.trans (List.suffix_cons byte rest)
    · exact List.suffix_rfl

/-- Behind the first byte that is not blank. -/
theorem suffix_of_skipBlanks {rest : Bytes} {byte : UInt8} (blanks : skipBlanks input = byte :: rest) : rest <:+ input :=
  (List.suffix_cons byte rest).trans (blanks ▸ suffix_skipBlanks input)

theorem suffix_word {expected rest : Bytes} (read : word expected input = .ok rest) : rest <:+ input := by
  induction expected generalizing input with
  | nil =>
    cases read
    exact List.suffix_rfl
  | cons byte expected ih =>
    cases input with
    | nil => cases read
    | cons next input =>
      rw [word] at read
      split at read
      · exact (ih read).trans (List.suffix_cons next input)
      · cases read

theorem suffix_digits (value count : Nat) (input : Bytes) : (digits value count input).2.2 <:+ input := by
  induction input generalizing value count with
  | nil => exact List.suffix_rfl
  | cons byte rest ih =>
    rw [digits]
    split
    · exact (ih _ _).trans (List.suffix_cons byte rest)
    · exact List.suffix_rfl

theorem suffix_skipDigits (count : Nat) (input : Bytes) : (skipDigits count input).2 <:+ input := by
  induction input generalizing count with
  | nil => exact List.suffix_rfl
  | cons byte rest ih =>
    rw [skipDigits]
    split
    · exact (ih _).trans (List.suffix_cons byte rest)
    · exact List.suffix_rfl

theorem suffix_exponentDigits (value : Nat) (input : Bytes) : (exponentDigits value input).2 <:+ input := by
  induction input generalizing value with
  | nil => exact List.suffix_rfl
  | cons byte rest ih =>
    rw [exponentDigits]
    split
    · dsimp only
      split
      · exact List.suffix_cons byte rest
      · exact (ih _).trans (List.suffix_cons byte rest)
    · exact List.suffix_rfl

/-! ## Numbers and strings -/

theorem leaves_float {rest : Bytes} (ending : rest <:+ input) (negative : Bool) (significand : Nat) (scale : Int) :
    Leaves input (fun _ => True) (float negative significand scale rest) := by
  unfold float
  dsimp only
  split
  · exact .ok ending trivial
  · exact .error _

/-- Behind the sign of an exponent, if there is one. -/
theorem suffix_sign (input : Bytes) :
    (match input with
      | byte :: rest =>
        if byte = '+'.toUInt8 then (false, rest)
        else if byte = '-'.toUInt8 then (true, rest)
        else (false, byte :: rest)
      | [] => (false, [])).2 <:+ input := by
  cases input with
  | nil => exact List.suffix_rfl
  | cons byte rest =>
    dsimp only
    split
    · exact List.suffix_cons byte rest
    · split
      · exact List.suffix_cons byte rest
      · exact List.suffix_rfl

theorem leaves_exponent (negative : Bool) (significand : Nat) (scale : Int) (input : Bytes) :
    Leaves input (fun _ => True) (exponent negative significand scale input) := by
  unfold exponent
  split
  next down unsigned signed =>
    refine Leaves.behind ?_ ((congrArg (fun pair => pair.2 <:+ input) signed).mp (suffix_sign input))
    cases unsigned with
    | nil => exact .error _
    | cons byte rest =>
      refine .behind (.ite ?_ (.error _)) (List.suffix_cons byte rest)
      have ending := suffix_exponentDigits (digitValue byte) rest
      split
      next e left digits =>
        rw [digits] at ending
        exact leaves_float ending _ _ _
      next left digits =>
        rw [digits] at ending
        exact .ite (.error _) (leaves_float ((suffix_skipDigits 0 left).trans ending) _ _ _)

theorem leaves_afterPlaces (negative : Bool) (significand : Nat) (scale : Int) (input : Bytes) :
    Leaves input (fun _ => True) (afterPlaces negative significand scale input) := by
  cases input with
  | nil => exact leaves_float List.suffix_rfl _ _ _
  | cons byte rest =>
    exact .ite ((leaves_exponent _ _ _ rest).behind (List.suffix_cons byte rest)) (leaves_float List.suffix_rfl _ _ _)

theorem leaves_places (negative : Bool) (significand dropped : Nat) (input : Bytes) :
    Leaves input (fun _ => True) (places negative significand dropped input) := by
  have ending := (suffix_skipDigits 0 (digits significand 0 input).2.2).trans (suffix_digits significand 0 input)
  refine .ite ?_ ((leaves_afterPlaces _ _ _ _).behind ending)
  split
  · exact .error _
  · exact .error _

theorem leaves_afterInteger (negative : Bool) (significand dropped : Nat) (input : Bytes) :
    Leaves input (fun _ => True) (afterInteger negative significand dropped input) := by
  unfold afterInteger
  extract_lets whole
  have ofWhole : Leaves input (fun _ => True) whole := by
    refine .ite (leaves_float List.suffix_rfl _ _ _) (.ite (leaves_float List.suffix_rfl _ _ _) ?_)
    split
    · exact .ok List.suffix_rfl trivial
    · exact .error _
  split
  next => exact ofWhole
  next byte rest =>
    have ending := List.suffix_cons byte rest
    exact .ite ((leaves_places _ _ _ rest).behind ending) (.ite ((leaves_exponent _ _ _ rest).behind ending) ofWhole)

theorem leaves_number (negative : Bool) (input : Bytes) : Leaves input (fun _ => True) (number negative input) := by
  cases input with
  | nil => exact .error _
  | cons byte rest =>
    refine .behind ?_ (List.suffix_cons byte rest)
    refine .ite (.ite (.error _) (leaves_afterInteger _ _ _ rest)) (.ite ?_ (.error _))
    have ending := (suffix_skipDigits 0 (digits (digitValue byte) 0 rest).2.2).trans (suffix_digits _ 0 rest)
    exact (leaves_afterInteger _ _ _ _).behind ending

theorem leaves_hexEscape (input : Bytes) : Leaves input (fun _ => True) (hexEscape input) := by
  unfold hexEscape
  split
  next a b c d rest =>
    split
    · exact .ok ⟨[a, b, c, d], rfl⟩ trivial
    · exact .error _
  next => exact .error _

theorem leaves_codePoint (input : Bytes) : Leaves input (fun _ => True) (codePoint input) := by
  refine (leaves_hexEscape input).bind fun first rest ending _ => ?_
  refine .ite (.error _) (.ite (.ok ending trivial) ?_)
  cases rest with
  | nil => exact .error _
  | cons backslash rest =>
    refine .ite (.error _) ?_
    cases rest with
    | nil => exact .error _
    | cons letter rest =>
      refine .ite (.error _) (.behind ?_ (.trans ⟨[backslash, letter], rfl⟩ ending))
      exact (leaves_hexEscape rest).bind fun second left ending _ => .ite (.error _) (.ok ending trivial)

theorem leaves_escape (input : Bytes) : Leaves input (fun _ => True) (escape input) := by
  cases input with
  | nil => exact .error _
  | cons letter rest =>
    refine .behind ?_ (List.suffix_cons letter rest)
    rw [escape]
    split
    · exact .ok List.suffix_rfl trivial
    · exact .ite ((leaves_codePoint rest).bind fun _ _ ending _ => .ok ending trivial) (.error _)

theorem leaves_stringBytes (input : Bytes) : Leaves input (fun _ => True) (stringBytes input) := by
  fun_induction stringBytes input with
  | case1 | case3 | case4 | case6 | case7 => exact .error _
  | case2 rest => exact .ok (List.suffix_cons _ rest) trivial
  | case5 rest bytes left escaped _ more _ read _ ih =>
    have afterEscape := (leaves_escape rest _ _ escaped).1
    exact .ok ((ih _ _ read).1.trans (afterEscape.trans (List.suffix_cons _ rest))) trivial
  | case8 byte rest _ _ _ more _ read ih => exact .ok ((ih _ _ read).1.trans (List.suffix_cons byte rest)) trivial

theorem leaves_string (input : Bytes) : Leaves input (fun _ => True) (string input) := by
  refine (leaves_stringBytes input).bind fun bytes rest ending _ => ?_
  dsimp only
  split
  · exact .ok ending trivial
  · exact .error _

/-! ## Arrays and objects -/

theorem leaves_nextItem (first : Bool) (input : Bytes) : Leaves input (fun _ => True) (nextItem first input) := by
  unfold nextItem
  split
  next => exact .error _
  next byte rest blanks =>
    have ending := suffix_of_skipBlanks blanks
    refine .ite (.ok ending trivial) (.ite (.ok (blanks ▸ suffix_skipBlanks input) trivial) (.ite ?_ (.error _)))
    split
    next => exact .error _
    next blanks' => exact .ite (.error _) (.ok ((blanks' ▸ suffix_skipBlanks rest).trans ending) trivial)

theorem leaves_nextKey (first : Bool) (input : Bytes) : Leaves input (fun _ => True) (nextKey first input) := by
  unfold nextKey
  split
  next => exact .error _
  next byte rest blanks =>
    have ending := suffix_of_skipBlanks blanks
    refine .ite (.ok ending trivial) (.ite (.ite (.ok ending trivial) (.error _)) (.ite ?_ (.error _)))
    split
    next => exact .error _
    next blanks' =>
      exact .ite (.ok ((suffix_of_skipBlanks blanks').trans ending) trivial) (.ite (.error _) (.error _))

theorem suffix_colon {rest : Bytes} (read : colon input = .ok rest) : rest <:+ input := by
  unfold colon at read
  split at read
  next => cases read
  next byte behind blanks =>
    split at read
    next =>
      cases read
      exact suffix_of_skipBlanks blanks
    next => cases read

section

variable {limit : Nat} {read : Bytes → Except Failure (α × Bytes)}

/-- Every item of an array takes its turn of the bound. -/
theorem leaves_items (each : ∀ input, input.length ≤ limit → Leaves input P (read input)) (bound : Bytes) (first : Bool)
    (short : input.length ≤ limit) :
    Leaves input (fun all => all.length < bound.length ∧ ∀ a ∈ all, P a) (items read bound first input) := by
  induction bound generalizing first input with
  | nil => exact .error _
  | cons _ bound ih =>
    refine (leaves_nextItem first input).bind fun more opened start _ => ?_
    refine .ite ?_ (.ok start ⟨by simp, List.forall_mem_nil _⟩)
    refine .behind ((each opened (Nat.le_trans start.length_le short)).bind fun head rest afterHead ofHead => ?_) start
    have shorter := Nat.le_trans (afterHead.trans start).length_le short
    refine .behind ((ih false shorter).bind fun tail left afterTail ⟨fewer, ofTail⟩ => ?_) afterHead
    exact .ok afterTail ⟨Nat.succ_lt_succ fewer, List.forall_mem_cons.mpr ⟨ofHead, ofTail⟩⟩

theorem leaves_members (each : ∀ input, input.length ≤ limit → Leaves input P (read input)) (bound : Bytes)
    (first : Bool) (short : input.length ≤ limit) :
    Leaves input (fun all => ∀ member ∈ all, P member.2) (members read bound first input) := by
  induction bound generalizing first input with
  | nil => exact .error _
  | cons _ bound ih =>
    refine (leaves_nextKey first input).bind fun more opened start _ => ?_
    refine .ite ?_ (.ok start (List.forall_mem_nil _))
    refine ((leaves_string opened).behind start).bind fun key named afterKey _ => .of_bind fun inner separated => ?_
    have start := (suffix_colon separated).trans afterKey
    refine .behind ((each inner (Nat.le_trans start.length_le short)).bind fun head rest afterHead ofHead => ?_) start
    have shorter := Nat.le_trans (afterHead.trans start).length_le short
    refine .behind ((ih false shorter).bind fun tail left afterTail ofTail => ?_) afterHead
    exact .ok afterTail (List.forall_mem_cons.mpr ⟨ofHead, ofTail⟩)

end

end RecordQuery.JsonText

namespace RecordQuery

/-! ## Lengths of arrays -/

namespace Value

/-- A value stands in another, at any depth, or is that value. -/
inductive Occurs : Value → Value → Prop
  | here (v : Value) : Occurs v v
  | item {items : List Value} {item part : Value} (isItem : item ∈ items) (within : Occurs part item) :
      Occurs part (.array items)
  | member {members : List (String × Value)} {member : String × Value} {part : Value} (isMember : member ∈ members)
      (within : Occurs part member.2) : Occurs part (.object members)

/-- At every depth an array has fewer items than some number. -/
def ArraysBelow (n : Nat) (v : Value) : Prop := ∀ items, Occurs (.array items) v → items.length < n

theorem arraysBelow_array {n : Nat} {items : List Value} :
    (Value.array items).ArraysBelow n ↔ items.length < n ∧ ∀ item ∈ items, item.ArraysBelow n := by
  constructor
  · intro below
    exact ⟨below items (.here _), fun item isItem inner within => below inner (.item isItem within)⟩
  · rintro ⟨few, each⟩ inner within
    cases within with
    | here => exact few
    | item isItem within => exact each _ isItem inner within

theorem arraysBelow_object {n : Nat} {members : List (String × Value)} :
    (Value.object members).ArraysBelow n ↔ ∀ member ∈ members, member.2.ArraysBelow n := by
  constructor
  · exact fun below member isMember inner within => below inner (.member isMember within)
  · rintro each inner within
    cases within with
    | member isMember within => exact each _ isMember inner within

theorem arraysBelow_flat {n : Nat} {v : Value} (flat : v.kind ≠ .array) (flat' : v.kind ≠ .object) : v.ArraysBelow n := by
  intro inner within
  cases within with
  | here => exact absurd rfl flat
  | item => exact absurd rfl flat
  | member => exact absurd rfl flat'

theorem kind_ofJsonNumber (n : JsonNumber) : (ofJsonNumber n).kind = .integer ∨ (ofJsonNumber n).kind = .float := by
  cases n with
  | natural n =>
    rw [ofJsonNumber]
    split
    · exact .inl rfl
    · exact .inr rfl
  | negative i below => exact .inl rfl
  | float x finite => exact .inr rfl

theorem arraysBelow_number {m : Nat} (n : JsonNumber) : (ofData (.number n)).ArraysBelow m := by
  rw [ofData, Data.toJson, ofJson]
  rcases kind_ofJsonNumber n with same | same <;> exact arraysBelow_flat (by simp [same]) (by simp [same])

end Value

namespace JsonText

/-- A value of no more bytes than some number, where the parts of arrays and objects are read by a reader of fewer
levels. -/
theorem leaves_value_of_inner {limit budget : Nat} {input : Bytes} (short : input.length ≤ limit)
    (inner : ∀ less, budget = less + 1 → ∀ input, input.length ≤ limit →
      Leaves input (fun data => (Value.ofData data).ArraysBelow limit) (value less input)) :
    Leaves input (fun data => (Value.ofData data).ArraysBelow limit) (value budget input) := by
  unfold value
  split
  next => exact .error _
  next byte rest blanks =>
    have whole : byte :: rest <:+ input := blanks ▸ suffix_skipBlanks input
    have ending : rest <:+ input := (List.suffix_cons byte rest).trans whole
    have shorter := Nat.le_trans ending.length_le short
    have ofWord {expected : Bytes} {data : Data} (flat : (Value.ofData data).ArraysBelow limit) :
        Leaves input (fun data => (Value.ofData data).ArraysBelow limit) (do .ok (data, ← word expected rest)) :=
      .of_bind fun left spelled => .ok ((suffix_word spelled).trans ending) flat
    refine .ite (ofWord (Value.arraysBelow_flat nofun nofun)) (.ite (ofWord (Value.arraysBelow_flat nofun nofun))
      (.ite (ofWord (Value.arraysBelow_flat nofun nofun)) (.ite ?minus (.ite ?digit (.ite ?quote (.ite ?bracket
        (.ite ?brace (.error _))))))))
    case minus =>
      exact ((leaves_number true rest).behind ending).bind fun n _ afterNumber _ =>
        .ok afterNumber (Value.arraysBelow_number n)
    case digit =>
      exact ((leaves_number false _).behind whole).bind fun n _ afterNumber _ =>
        .ok afterNumber (Value.arraysBelow_number n)
    case quote =>
      exact ((leaves_string rest).behind ending).bind fun _ _ afterString _ =>
        .ok afterString (Value.arraysBelow_flat nofun nofun)
    case bracket =>
      cases budget with
      | zero => exact .error _
      | succ less =>
        have items := (leaves_items (inner less rfl) rest true shorter).behind ending
        refine items.bind fun all _ afterItems ⟨few, each⟩ => .ok afterItems ?_
        rw [Value.ofData_array, Value.arraysBelow_array, List.length_map, List.forall_mem_map]
        exact ⟨Nat.lt_of_lt_of_le few shorter, each⟩
    case brace =>
      cases budget with
      | zero => exact .error _
      | succ less =>
        have members := (leaves_members (inner less rfl) rest true shorter).behind ending
        refine members.bind fun all _ afterMembers each => .ok afterMembers ?_
        rw [Value.ofData_object, Value.arraysBelow_object]
        intro member isMember
        obtain ⟨entry, isEntry, rfl⟩ := List.mem_map.mp (mem_ascendingEntries isMember)
        exact each entry isEntry

theorem leaves_value (limit budget : Nat) : ∀ input, input.length ≤ limit →
    Leaves input (fun data => (Value.ofData data).ArraysBelow limit) (value budget input) := by
  induction budget with
  | zero => exact fun input short => leaves_value_of_inner short fun _ same => by cases same
  | succ budget ih =>
    intro input short
    refine leaves_value_of_inner short fun less same => ?_
    obtain rfl : budget = less := Nat.succ.inj same
    exact ih

end JsonText

/-- An array in a text has fewer items than the text has bytes. -/
theorem Value.arraysBelow_of_parse {text : Bytes} {v : Value} (parsed : Value.parse text = .ok v) :
    v.ArraysBelow text.length := by
  unfold Value.parse at parsed
  split at parsed
  next data read =>
    cases parsed
    obtain ⟨⟨data', rest⟩, taken, read⟩ := bind_eq_ok read
    obtain ⟨_, -, same⟩ := bind_eq_ok read
    cases same
    exact (JsonText.leaves_value text.length JsonText.nestingLimit text (Nat.le_refl _) _ _ taken).2
  next => cases parsed

end RecordQuery
