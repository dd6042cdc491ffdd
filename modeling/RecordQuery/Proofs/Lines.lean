import RecordQuery.Proofs.Utf8
import RecordQuery.Run

/-!
# Lines

What records an input holds: however the lines of its records are ended and whatever blank lines stand around
them (`LaidOut`), its records are the texts of those lines in order (`readRecords_of_laidOut`). An input with a line
that is no text has none (`readRecords_of_line`). What is written line by line is such an input, with a record for
each line (`readRecords_linesText`).
-/

namespace RecordQuery

/-! ## Single lines -/

/-- A line feed ends a line, from which a carriage return before it is dropped. -/
theorem linesFrom_append {line : Bytes} (noFeed : lineFeed ∉ line) (begun rest : Bytes) :
    linesFrom begun (line ++ lineFeed :: rest) = (dropReturn (line.reverse ++ begun)).reverse :: linesFrom [] rest := by
  induction line generalizing begun with
  | nil => rw [List.nil_append, linesFrom, if_pos rfl]; rfl
  | cons byte line ih =>
    obtain ⟨different, noFeed⟩ : lineFeed ≠ byte ∧ lineFeed ∉ line := by simpa using noFeed
    rw [List.cons_append, linesFrom, if_neg different.symm, ih noFeed, List.reverse_cons, List.append_assoc]
    rfl

theorem lines_append {line : Bytes} (noFeed : lineFeed ∉ line) (rest : Bytes) :
    lines (line ++ lineFeed :: rest) = (dropReturn line.reverse).reverse :: lines rest := by
  rw [lines, linesFrom_append noFeed, List.append_nil, lines]

theorem linesFrom_of_not_mem {line : Bytes} (noFeed : lineFeed ∉ line) (begun : Bytes) :
    linesFrom begun line = linesFrom (line.reverse ++ begun) [] := by
  induction line generalizing begun with
  | nil => rfl
  | cons byte line ih =>
    obtain ⟨different, noFeed⟩ : lineFeed ≠ byte ∧ lineFeed ∉ line := by simpa using noFeed
    rw [linesFrom.eq_2, if_neg different.symm, ih noFeed, List.reverse_cons, List.append_assoc]
    rfl

/-- The last line may end with the input; then nothing is dropped from it. -/
theorem lines_of_not_mem {line : Bytes} (noFeed : lineFeed ∉ line) (notEmpty : line ≠ []) : lines line = [line] := by
  rw [lines, linesFrom_of_not_mem noFeed, linesFrom]
  simp [notEmpty]

/-- What stands up to a line feed and what stands behind it are split into lines apart. -/
theorem lines_split (before rest : Bytes) :
    lines (before ++ lineFeed :: rest) = lines (before ++ [lineFeed]) ++ lines rest := by
  suffices ∀ begun, linesFrom begun (before ++ lineFeed :: rest) = linesFrom begun (before ++ [lineFeed]) ++ linesFrom [] rest from
    this []
  induction before with
  | nil => exact fun begun => by simp [linesFrom]
  | cons byte before ih =>
    intro begun
    rw [List.cons_append, List.cons_append, linesFrom, linesFrom]
    split
    · rw [ih, List.cons_append]
    · exact ih _

theorem dropReturn_of_head? {line : Bytes} (noReturn : line.head? ≠ some 13) : dropReturn line = line := by
  unfold dropReturn
  split
  · simp at noReturn
  · rfl

/-- Bytes between line feeds or the ends of an input. -/
def IsLine (line input : Bytes) : Prop :=
  ∃ before after, input = before ++ line ++ after ∧ lineFeed ∉ line ∧
    (before = [] ∨ ∃ earlier, before = earlier ++ [lineFeed]) ∧ (after = [] ∨ ∃ later, after = lineFeed :: later)

/-- Every line of an input is one of its lines, except that a carriage return may have been dropped from it. -/
theorem IsLine.mem_lines {line input : Bytes} (isLine : IsLine line input) (notEmpty : line ≠ []) :
    ∃ read ∈ lines input, line = read ∨ line = read ++ [13] := by
  obtain ⟨before, after, rfl, noFeed, start, finish⟩ := isLine
  have whole : ∃ read ∈ lines (line ++ after), line = read ∨ line = read ++ [13] := by
    rcases finish with rfl | ⟨later, rfl⟩
    · refine ⟨line, ?_, .inl rfl⟩
      rw [List.append_nil, lines_of_not_mem noFeed notEmpty]
      exact List.mem_singleton_self line
    · refine ⟨(dropReturn line.reverse).reverse, ?_, ?_⟩
      · rw [lines_append noFeed]
        exact List.mem_cons_self
      · cases reversed : line.reverse with
        | nil => exact absurd (List.reverse_eq_nil_iff.mp reversed) notEmpty
        | cons last earlier =>
          obtain rfl : line = earlier.reverse ++ [last] := by rw [← List.reverse_cons, ← reversed, List.reverse_reverse]
          by_cases isReturn : last = 13
          · subst isReturn
            exact .inr rfl
          · rw [dropReturn_of_head? (by simpa using isReturn)]
            simp
  rcases start with rfl | ⟨earlier, rfl⟩
  · exact whole
  · obtain ⟨read, member, same⟩ := whole
    refine ⟨read, ?_, same⟩
    rw [List.append_assoc, List.append_assoc, List.singleton_append, lines_split]
    exact List.mem_append_right _ member

theorem mapM_recordOf_of_mem {all : List Bytes} {line : Bytes} (member : line ∈ all) (noText : Utf8.decode? line = none) :
    all.mapM recordOf = .error .notText := by
  induction all with
  | nil => cases member
  | cons first all ih =>
    rw [List.mapM_cons]
    rcases List.mem_cons.mp member with rfl | member
    · rw [recordOf, noText]
      rfl
    · rw [ih member, recordOf]
      cases Utf8.decode? first <;> rfl

/-- An input is not read at all if one of its lines is not the bytes of a text. -/
theorem readRecords_of_line {line input : Bytes} (isLine : IsLine line input) (noText : ∀ text, Utf8.encode text ≠ line) :
    readRecords (.ok input) = .error .notText := by
  obtain ⟨read, member, same⟩ := isLine.mem_lines (noText "").symm
  have unread : Utf8.decode? read = none := by
    refine Option.eq_none_iff_forall_ne_some.mpr fun text decoded => ?_
    rcases same with rfl | rfl
    · exact noText text (Utf8.encode_of_decode? decoded)
    · refine noText (text ++ "\r") ?_
      rw [Utf8.encode_append, Utf8.encode_of_decode? decoded]
      rfl
  rw [readRecords, mapM_recordOf_of_mem member unread]
  rfl

/-! ## Layouts -/

/-- How a line ends: with a line feed, or with a carriage return and a line feed. -/
inductive LineEnd where
  | feed
  | returnFeed

def LineEnd.bytes : LineEnd → Bytes
  | .feed => [lineFeed]
  | .returnFeed => [13, lineFeed]

/-- A text that can stand on a line of its own as a record. -/
structure RecordLine (text : String) : Prop where
  notBlank : isBlank text = false
  noFeed : '\n' ∉ text.toList
  noReturn : text.toList.getLast? ≠ some '\r'

/-- White space that can stand on a line. -/
structure BlankLine (text : String) : Prop where
  blank : isBlank text = true
  noFeed : '\n' ∉ text.toList

/-- Bytes in which texts stand one on a line, with any number of blank lines around them, and where the last of
them may end with the input. -/
inductive LaidOut : List String → Bytes → Prop
  | nothing : LaidOut [] []
  | last {text : String} (line : RecordLine text) : LaidOut [text] (Utf8.encode text)
  | record {text : String} (line : RecordLine text) (ended : LineEnd) {texts : List String} {rest : Bytes}
      (onward : LaidOut texts rest) : LaidOut (text :: texts) (Utf8.encode text ++ (ended.bytes ++ rest))
  | blank {text : String} (line : BlankLine text) (ended : LineEnd) {texts : List String} {rest : Bytes}
      (onward : LaidOut texts rest) : LaidOut texts (Utf8.encode text ++ (ended.bytes ++ rest))

/-- Records without metadata, whose bodies are texts. -/
def recordsOf (texts : List String) : Batch := (texts.map fun text => { body := Utf8.encode text }).toArray

theorem not_mem_encode_of_noFeed {text : String} (noFeed : '\n' ∉ text.toList) : lineFeed ∉ Utf8.encode text :=
  fun member => noFeed (Utf8.mem_of_mem_encode (c := '\n') (by decide) member)

/-- The bytes of a text end with a carriage return only if the text does. -/
theorem head?_reverse_encode {text : String} (noReturn : text.toList.getLast? ≠ some '\r') :
    (Utf8.encode text).reverse.head? ≠ some 13 := by
  rw [List.head?_reverse, Utf8.encode]
  rcases List.eq_nil_or_concat text.toList with empty | ⟨earlier, last, split⟩
  · simp [empty]
  · rw [split, List.concat_eq_append] at noReturn ⊢
    obtain ⟨first, more, spelled, -⟩ := Utf8.next_encodeChar last []
    obtain ⟨byte, ofLast⟩ : ∃ byte, (Utf8.encodeChar last).getLast? = some byte := by simp [spelled, List.getLast?_cons]
    intro ends
    rw [List.flatMap_append, List.flatMap_singleton, List.getLast?_append, ofLast, Option.some_or] at ends
    obtain rfl := Option.some.inj ends
    have isReturn : last.toNat = 13 := Utf8.toNat_of_mem_encodeChar (by decide) (List.mem_of_getLast? ofLast)
    have same : last = '\r' := Char.toNat_inj.mp isReturn
    exact noReturn (by simp [same])

theorem lines_terminated {text : String} {ended : LineEnd} (noFeed : '\n' ∉ text.toList)
    (noReturn : ended = .feed → text.toList.getLast? ≠ some '\r') (rest : Bytes) :
    lines (Utf8.encode text ++ (ended.bytes ++ rest)) = Utf8.encode text :: lines rest := by
  have bare := not_mem_encode_of_noFeed noFeed
  cases ended with
  | feed =>
    rw [LineEnd.bytes, List.singleton_append, lines_append bare, dropReturn_of_head? (head?_reverse_encode (noReturn rfl)),
      List.reverse_reverse]
  | returnFeed =>
    have withReturn : lineFeed ∉ Utf8.encode text ++ [13] := by simpa [bare] using by decide
    have split : Utf8.encode text ++ (LineEnd.returnFeed.bytes ++ rest) = Utf8.encode text ++ [13] ++ lineFeed :: rest := by
      simp [LineEnd.bytes]
    rw [split, lines_append withReturn, List.reverse_append, List.reverse_singleton, List.singleton_append, dropReturn,
      List.reverse_reverse]

/-- A blank line is read as blank, also where its last character is taken for a part of its end. -/
theorem BlankLine.shown {text : String} (line : BlankLine text) (ended : LineEnd) (rest : Bytes) :
    ∃ shown, isBlank shown = true ∧ lines (Utf8.encode text ++ (ended.bytes ++ rest)) = Utf8.encode shown :: lines rest := by
  by_cases returned : ended = .feed ∧ text.toList.getLast? = some '\r'
  · obtain ⟨rfl, last⟩ := returned
    obtain ⟨earlier, split⟩ := List.getLast?_eq_some_iff.mp last
    obtain rfl : text = String.ofList earlier ++ "\r" := by
      rw [← String.toList_inj, split]
      simp
    have joined : Utf8.encode (String.ofList earlier ++ "\r") ++ (LineEnd.feed.bytes ++ rest) =
        Utf8.encode (String.ofList earlier) ++ (LineEnd.returnFeed.bytes ++ rest) := by
      rw [Utf8.encode_append, List.append_assoc]
      rfl
    have blank := line.blank
    have noFeed := line.noFeed
    refine ⟨String.ofList earlier, ?_, ?_⟩
    · simp_all [isBlank]
    · rw [joined]
      exact lines_terminated (by simp_all) (fun same => by cases same) rest
  · refine ⟨text, line.blank, lines_terminated line.noFeed (fun same last => returned ⟨same, last⟩) rest⟩

theorem recordOf_encode (text : String) :
    recordOf (Utf8.encode text) = .ok (if isBlank text then none else some { body := Utf8.encode text }) := by
  rw [recordOf, Utf8.decode?_encode]

/-- The records of an input in which texts are laid out are these texts, in order. -/
theorem readRecords_of_laidOut {texts : List String} {input : Bytes} (layout : LaidOut texts input) :
    readRecords (.ok input) = .ok (recordsOf texts) := by
  suffices ∃ found, (lines input).mapM recordOf = .ok found ∧
      found.filterMap id = texts.map fun text => { body := Utf8.encode text } by
    obtain ⟨found, read, kept⟩ := this
    rw [readRecords, read, recordsOf, ← kept]
    rfl
  induction layout with
  | nothing => exact ⟨[], rfl, rfl⟩
  | @last text line =>
    have notEmpty : Utf8.encode text ≠ [] := by
      intro empty
      have same : some "" = some text := by rw [← Utf8.decode?_encode text, empty, ← Utf8.decode?_encode ""]; rfl
      obtain rfl := Option.some.inj same
      exact absurd line.notBlank (by decide)
    refine ⟨[some { body := Utf8.encode text }], ?_, rfl⟩
    rw [lines_of_not_mem (not_mem_encode_of_noFeed line.noFeed) notEmpty, List.mapM_cons, recordOf_encode, line.notBlank]
    rfl
  | @record text line ended texts rest _ ih =>
    obtain ⟨found, read, kept⟩ := ih
    refine ⟨some { body := Utf8.encode text } :: found, ?_, ?_⟩
    · rw [lines_terminated line.noFeed (fun _ => line.noReturn), List.mapM_cons, recordOf_encode, line.notBlank, read]
      rfl
    · rw [List.filterMap_cons, kept]
      rfl
  | @blank text line ended texts rest _ ih =>
    obtain ⟨found, read, kept⟩ := ih
    obtain ⟨shown, blank, split⟩ := line.shown ended rest
    refine ⟨none :: found, ?_, kept⟩
    rw [split, List.mapM_cons, recordOf_encode, blank, read]
    rfl

/-! ## Written lines -/

/-- Lines of text as they are written, each with a line feed. -/
def linesText (texts : List String) : String := String.join (texts.map (· ++ "\n"))

theorem linesText_cons (text : String) (texts : List String) : linesText (text :: texts) = text ++ "\n" ++ linesText texts := by
  simp [linesText]

/-- A text that is a record by itself: it is not blank and holds no control. -/
structure RecordText (text : String) : Prop where
  printable : Printable text
  notBlank : isBlank text = false

theorem RecordText.line {text : String} (record : RecordText text) : RecordLine text where
  notBlank := record.notBlank
  noFeed member := absurd (record.printable _ member) (by decide)
  noReturn last := absurd (record.printable _ (List.mem_of_getLast? last)) (by decide)

theorem laidOut_linesText {texts : List String} (each : ∀ text ∈ texts, RecordText text) :
    LaidOut texts (Utf8.encode (linesText texts)) := by
  have feed : Utf8.encode "\n" = LineEnd.feed.bytes := by decide
  induction texts with
  | nil => exact .nothing
  | cons text texts ih =>
    obtain ⟨first, others⟩ := List.forall_mem_cons.mp each
    rw [linesText_cons, Utf8.encode_append, Utf8.encode_append, feed, List.append_assoc]
    exact .record first.line .feed (ih others)

/-- Lines of text that are no blanks are read back as one record each. -/
theorem readRecords_linesText {texts : List String} (each : ∀ text ∈ texts, RecordText text) :
    readRecords (.ok (Utf8.encode (linesText texts))) = .ok (texts.map fun text => { body := Utf8.encode text }).toArray :=
  readRecords_of_laidOut (laidOut_linesText each)

end RecordQuery
