import RecordQuery.Document.Read
import RecordQuery.Proofs.Keys
import RecordQuery.Proofs.RoundTrip
import RecordQuery.Proofs.Sessions

/-!
# Constants

Every constant but null can be written in a document as a literal (`Document.constant_given`). What is in the way of
null is how fields are read: null under a key leaves the field out, and a node without any field is refused when it is
built (`Document.null_constant_refused`). For documents in texts the reader that knows what it looks for is held against
the one that reads any value: where that one finds an object of one member, this one finds the field
(`Shape.read_of_oneMember`).
-/

namespace RecordQuery

/-! ## Literals in trees -/

/-- What a field of a literal holds: null leaves it out. -/
def Data.literal : Data → Option Json
  | .null => none
  | data => some data.toJson

theorem Data.literal_of_ne_null {data : Data} (present : data ≠ .null) : data.literal = some data.toJson := by
  cases data with
  | null => exact absurd rfl present
  | _ => rfl

theorem Data.optional_literal (data : Data) : Data.optional (fun data => .ok data.toJson) data = .ok data.literal := by
  cases data <;> rfl

/-- A document of a node that holds a literal, if there is one, and nothing else. -/
def Document.constant (literal : Option Json) : Document := ⟨⟨none, none, literal, [], []⟩, .empty⟩

theorem queryField_literal (lenient : Bool) {draft : QueryDraft} {data : Data} (unread : draft.literal = none)
    (within : data.within .kept = true) :
    queryField lenient draft "literal" data = .ok { draft with literal := some data.literal } := by
  have leaf : queryField lenient draft "literal" data = queryLeaf draft "literal" data := by
    cases data <;> simp [queryField]
  rw [leaf]
  simp [queryLeaf, fresh, unread, Data.expectWithin, within, Data.optional_literal, bind, Except.bind]

theorem Document.ofData_constant (lenient : Bool) {data : Data} (within : data.within .kept = true) :
    Document.ofData lenient (.object [("query", .object [("literal", data)])]) = .ok (.constant data.literal) := by
  have node : QuerySpec.ofData lenient (.object [("literal", data)]) = .ok ⟨none, none, data.literal, [], []⟩ := by
    rw [QuerySpec.ofData, queryMembers, queryField_literal lenient rfl within]
    rfl
  rw [Document.ofData]
  simp [documentField, fresh, node, bind, Except.bind, pure, Except.pure]
  rfl

/-! ## JSON values as trees -/

namespace Json

/-- A JSON value, if it is not null. -/
def given : Json → Option Json
  | .null => none
  | json => some json

mutual

theorem within_toData : (json : Json) → json.toData.within .kept = true
  | .array items => by
    rw [toData, Data.within]
    exact itemsWithin_toDataItems items
  | .object members => by
    rw [toData, Data.within]
    exact membersWithin_toDataMembers members
  | .null | .bool _ | .number _ | .string _ => rfl

theorem itemsWithin_toDataItems : (items : List Json) → Data.itemsWithin .kept (toDataItems items) = true
  | [] => rfl
  | item :: items => by
    rw [toDataItems, Data.itemsWithin, within_toData item, itemsWithin_toDataItems items]
    rfl

theorem membersWithin_toDataMembers :
    (members : List (String × Json)) → Data.membersWithin .kept (toDataMembers members) = true
  | [] => rfl
  | (_, member) :: members => by
    rw [toDataMembers, Data.membersWithin, within_toData member, membersWithin_toDataMembers members]
    rfl

end

mutual

/-- A JSON value whose keys ascend is what its tree means. -/
theorem toJson_toData : (json : Json) → (Value.ofJson json).Canonical → json.toData.toJson = json
  | .array items, ascending => by
    rw [Value.ofJson] at ascending
    rw [toData, Data.toJson, toJsonItems_toDataItems items ascending]
  | .object members, ascending => by
    rw [Value.ofJson, Value.ofJsonMembers_eq_map] at ascending
    have sorted : Ascending members := by simpa [Ascending, List.pairwise_map] using ascending.1
    rw [toData, Data.toJson, toJsonMembers_toDataMembers members (by rw [Value.ofJsonMembers_eq_map]; exact ascending.2),
      ascendingEntries_of_perm sorted (.refl _)]
  | .null, _ | .bool _, _ | .number _, _ | .string _, _ => rfl

theorem toJsonItems_toDataItems : (items : List Json) → Value.CanonicalItems (Value.ofJsonItems items) →
    Data.toJsonItems (toDataItems items) = items
  | [], _ => rfl
  | item :: items, ascending => by
    rw [toDataItems, Data.toJsonItems, toJson_toData item ascending.1, toJsonItems_toDataItems items ascending.2]

theorem toJsonMembers_toDataMembers : (members : List (String × Json)) →
    Value.CanonicalMembers (Value.ofJsonMembers members) → Data.toJsonMembers (toDataMembers members) = members
  | [], _ => rfl
  | (key, member) :: members, ascending => by
    rw [toDataMembers, Data.toJsonMembers, toJson_toData member ascending.1, toJsonMembers_toDataMembers members ascending.2]

end

theorem given_of_ne_null {json : Json} (present : json ≠ .null) : json.given = some json := by
  cases json with
  | null => exact absurd rfl present
  | _ => rfl

theorem literal_toData {json : Json} (ascending : (Value.ofJson json).Canonical) : json.toData.literal = json.given := by
  have same := toJson_toData json ascending
  cases json with
  | null => rfl
  | _ => exact congrArg some same

end Json

/-! ## Objects of one member in texts -/

namespace JsonText

variable {α β δ : Type}

theorem skipBlanks_of_eq_cons {input rest : Bytes} {byte : UInt8} (blanks : skipBlanks input = byte :: rest) :
    skipBlanks (byte :: rest) = byte :: rest := by
  induction input with
  | nil => cases blanks
  | cons first input ih =>
    rw [skipBlanks] at blanks
    split at blanks
    next => exact ih blanks
    next noBlank =>
      cases blanks
      rw [skipBlanks, if_neg noBlank]

/-- What a value is shows in its first byte. -/
theorem value_eq_ok {budget : Nat} {input rest : Bytes} {data : Data} (read : value budget input = .ok (data, rest)) :
    ∃ byte body, skipBlanks input = byte :: body ∧
      ((byte = 'n'.toUInt8 ∧ data = .null ∧ word (Utf8.encode "ull") body = .ok rest) ∨
      (byte ≠ 'n'.toUInt8 ∧ ((∃ b, data = .bool b) ∨ (∃ n, data = .number n) ∨ ∃ s, data = .string s)) ∨
      (byte = '['.toUInt8 ∧ ∃ inner all, budget = inner + 1 ∧ data = .array all ∧
        items (value inner) body true body = .ok (all, rest)) ∨
      (byte = '\x7b'.toUInt8 ∧ ∃ inner all, budget = inner + 1 ∧ data = .object all ∧
        members (value inner) body true body = .ok (all, rest))) := by
  unfold value at read
  split at read
  next => cases read
  next byte body blanks =>
    refine ⟨byte, body, blanks, ?_⟩
    split at read
    next isNull =>
      obtain ⟨left, spelled, same⟩ := bind_eq_ok read
      cases same
      exact .inl ⟨isNull, rfl, spelled⟩
    next notNull =>
      refine .inr ?_
      iterate 2
        split at read
        next =>
          obtain ⟨left, -, same⟩ := bind_eq_ok read
          cases same
          exact .inl ⟨notNull, .inl ⟨_, rfl⟩⟩
      iterate 2
        split at read
        next =>
          obtain ⟨⟨n, left⟩, -, same⟩ := bind_eq_ok read
          cases same
          exact .inl ⟨notNull, .inr (.inl ⟨n, rfl⟩)⟩
      split at read
      next =>
        obtain ⟨⟨s, left⟩, -, same⟩ := bind_eq_ok read
        cases same
        exact .inl ⟨notNull, .inr (.inr ⟨s, rfl⟩)⟩
      next =>
        split at read
        next bracket =>
          cases budget with
          | zero => cases read
          | succ inner =>
            obtain ⟨⟨all, left⟩, items, same⟩ := bind_eq_ok read
            cases same
            exact .inr (.inl ⟨bracket, inner, all, rfl, rfl, items⟩)
        next =>
          split at read
          next brace =>
            cases budget with
            | zero => cases read
            | succ inner =>
              obtain ⟨⟨all, left⟩, members, same⟩ := bind_eq_ok read
              cases same
              exact .inr (.inr ⟨brace, inner, all, rfl, rfl, members⟩)
          next => cases read

/-- An object is opened by a brace, and takes a level of the budget. -/
theorem value_eq_object {budget : Nat} {input rest : Bytes} {all : List (String × Data)}
    (read : value budget input = .ok (.object all, rest)) :
    ∃ inner body, budget = inner + 1 ∧ skipBlanks input = '\x7b'.toUInt8 :: body ∧
      members (value inner) body true body = .ok (all, rest) := by
  obtain ⟨byte, body, blanks, ⟨-, same, -⟩ | ⟨-, scalar⟩ | ⟨-, inner, all', -, same, -⟩ | ⟨rfl, inner, all', rfl, same, read⟩⟩ :=
    value_eq_ok read
  · cases same
  · simp at scalar
  · cases same
  · cases same
    exact ⟨inner, body, rfl, blanks, read⟩

/-- Where a value is read, a literal that null leaves out is. -/
theorem literalRead_of_value {budget : Nat} {input rest : Bytes} {data : Data} (read : value budget input = .ok (data, rest)) :
    literalRead budget input = .ok (data.literal, rest) := by
  obtain ⟨byte, body, blanks, kinds⟩ := value_eq_ok read
  by_cases isNull : byte = 'n'.toUInt8
  · subst isNull
    obtain ⟨-, rfl, spelled⟩ | ⟨different, -⟩ | ⟨different, -⟩ | ⟨different, -⟩ := kinds
    · simp only [literalRead, optional, blanks, if_true, spelled, lift, mapError_ok, bind, Except.bind]
      rfl
    · exact absurd rfl different
    · exact absurd different (by decide)
    · exact absurd different (by decide)
  · have present : data ≠ .null := by
      rintro rfl
      simp [isNull] at kinds
    have again : value budget (byte :: body) = .ok (data, rest) := by
      rw [← read, value, value, blanks, skipBlanks_of_eq_cons blanks]
    rw [Data.literal_of_ne_null present]
    simp only [literalRead, optional, blanks, if_neg isNull, anything, again, lift, mapError_ok, bind, Except.bind]
    rfl

/-- An object of one member, from behind its brace: the key, the colon, what `member` reads, and the end. -/
inductive OneMember (member : Bytes → Except Failure (α × Bytes)) (body : Bytes) (key : String) (a : α) (rest : Bytes) : Prop
  | intro {opened named inner after : Bytes} (long : 2 ≤ body.length) (opens : nextKey true body = .ok (true, opened))
      (name : string opened = .ok (key, named)) (colon : JsonText.colon named = .ok inner)
      (read : member inner = .ok (a, after)) (closes : nextKey false after = .ok (false, rest))

theorem oneMember_of_members {member : Bytes → Except Failure (α × Bytes)} {body rest : Bytes} {key : String} {a : α}
    (read : members member body true body = .ok ([(key, a)], rest)) : OneMember member body key a rest := by
  suffices ∀ bound : Bytes, members member bound true body = .ok ([(key, a)], rest) →
      2 ≤ bound.length ∧ ∃ opened named inner after, nextKey true body = .ok (true, opened) ∧
        string opened = .ok (key, named) ∧ JsonText.colon named = .ok inner ∧ member inner = .ok (a, after) ∧
        nextKey false after = .ok (false, rest) by
    obtain ⟨long, _, _, _, _, opens, name, colon, read, closes⟩ := this body read
    exact ⟨long, opens, name, colon, read, closes⟩
  intro bound read
  cases bound with
  | nil => cases read
  | cons _ bound =>
    rw [members] at read
    obtain ⟨⟨more, opened⟩, opens, read⟩ := bind_eq_ok read
    cases more with
    | false => cases read
    | true =>
      obtain ⟨⟨key', named⟩, name, read⟩ := bind_eq_ok read
      obtain ⟨inner, colon, read⟩ := bind_eq_ok read
      obtain ⟨⟨a', after⟩, inside, read⟩ := bind_eq_ok read
      obtain ⟨⟨others, rest'⟩, later, same⟩ := bind_eq_ok read
      cases same
      cases bound with
      | nil => cases later
      | cons _ bound =>
        rw [members] at later
        obtain ⟨⟨more, closed⟩, closes, later⟩ := bind_eq_ok later
        cases more with
        | false =>
          cases later
          exact ⟨by simp, opened, named, inner, after, opens, name, colon, inside, closes⟩
        | true =>
          obtain ⟨⟨_, _⟩, -, later⟩ := bind_eq_ok later
          obtain ⟨_, -, later⟩ := bind_eq_ok later
          obtain ⟨⟨_, _⟩, -, later⟩ := bind_eq_ok later
          obtain ⟨⟨_, _⟩, -, same⟩ := bind_eq_ok later
          cases same

theorem value_of_value_object {budget : Nat} {input rest : Bytes} {key : String} {data : Data}
    (read : value budget input = .ok (.object [(key, data)], rest)) :
    ∃ budget input rest, value budget input = .ok (data, rest) := by
  obtain ⟨inner, body, -, -, members⟩ := value_eq_object read
  obtain ⟨-, -, -, -, member, -⟩ := oneMember_of_members members
  exact ⟨inner, _, _, member⟩

theorem typedMembers_of_oneMember {member : Bytes → Except Failure (α × Bytes)} {body rest : Bytes} {key : String} {a : α}
    (one : OneMember member body key a rest) {step : String → δ → Bytes → Except Trouble (δ × Bytes)} {start draft : δ}
    (taken : ∀ {named inner after}, colon named = .ok inner → member inner = .ok (a, after) →
      step key start named = .ok (draft, after)) : typedMembers step body true start body = .ok (draft, rest) := by
  obtain ⟨long, opens, name, colon, read, closes⟩ := one
  obtain ⟨first, second, bound, rfl⟩ : ∃ first second bound, body = first :: second :: bound := by
    match body, long with
    | first :: second :: bound, _ => exact ⟨first, second, bound, rfl⟩
  have stepped := taken colon read
  simp [typedMembers, opens, name, stepped, closes, lift, mapError_ok, bind, Except.bind]

/-- A structure is read from an object whose only member is one of its fields. -/
theorem Shape.read_of_oneMember {member : Bytes → Except Failure (α × Bytes)} {shape : Shape δ β} {field : Field δ} {budget : Nat}
    {input body rest : Bytes} {key : String} {a : α} {b : β} (draft : δ) (blanks : skipBlanks input = '\x7b'.toUInt8 :: body)
    (one : OneMember member body key a rest) (found : shape.fields.find? (·.name == key) = some field)
    (unset : field.isSet shape.start = false)
    (taken : ∀ {inner after}, member inner = .ok (a, after) → field.read budget inner shape.start = .ok (draft, after))
    (finished : shape.finish draft = .ok b) : shape.read (budget + 1) input = .ok (b, rest) := by
  have noBracket : '\x7b'.toUInt8 ≠ '['.toUInt8 := by decide
  have members : typedMembers (shape.member budget) body true shape.start body = .ok (draft, rest) := by
    refine typedMembers_of_oneMember one fun {named inner after} colon read => ?_
    simp [Shape.member, found, unset, colon, taken read, lift, mapError_ok, bind, Except.bind]
  simp [Shape.read, blanks, noBracket, members, finished, bind, Except.bind]

end JsonText

/-! ## Documents of a constant -/

theorem queryShape_read {budget : Nat} {input rest : Bytes} {data : Data}
    (read : JsonText.value budget input = .ok (.object [("literal", data)], rest)) :
    queryShape.read budget input = .ok (⟨none, none, data.literal, [], []⟩, rest) := by
  obtain ⟨inner, body, rfl, blanks, members⟩ := JsonText.value_eq_object read
  refine JsonText.Shape.read_of_oneMember { literal := some data.literal } blanks (JsonText.oneMember_of_members members)
    rfl rfl ?_ rfl
  intro behind after read
  simp [JsonText.Field.of, queryShape, JsonText.literalRead_of_value read, bind, Except.bind]

theorem Document.parseJson_constant {text : Bytes} {data : Data}
    (parsed : JsonText.parse text = .ok (.object [("query", .object [("literal", data)])])) :
    Document.parseJson text = .ok (.constant data.literal) := by
  obtain ⟨⟨whole, rest⟩, read, parsed⟩ := bind_eq_ok parsed
  obtain ⟨_, finished, same⟩ := bind_eq_ok parsed
  cases same
  obtain ⟨inner, body, limit, blanks, members⟩ := JsonText.value_eq_object read
  have document : documentShape.read JsonText.nestingLimit text = .ok (.constant data.literal, rest) := by
    rw [limit]
    refine JsonText.Shape.read_of_oneMember { query := some ⟨none, none, data.literal, [], []⟩ } blanks
      (JsonText.oneMember_of_members members) rfl rfl ?_ rfl
    intro behind after read
    simp [JsonText.Field.of, documentShape, queryShape_read read, bind, Except.bind]
  rw [Document.parseJson, JsonText.parseTyped, document]
  simp [finished, JsonText.lift, mapError_ok, bind, Except.bind]

/-- What is read from a text means null only if it is. -/
theorem literal_of_value {budget : Nat} {input rest : Bytes} {data : Data}
    (read : JsonText.value budget input = .ok (data, rest)) : data.literal = data.toJson.given := by
  obtain ⟨byte, body, -, ⟨-, rfl, -⟩ | ⟨-, ⟨b, rfl⟩ | ⟨n, rfl⟩ | ⟨s, rfl⟩⟩ | ⟨-, inner, all, -, rfl, -⟩ |
    ⟨-, inner, all, -, rfl, -⟩⟩ := JsonText.value_eq_ok read <;> rfl

theorem Document.parseJson_of_parse {text : Bytes} {data : Data}
    (parsed : JsonText.parse text = .ok (.object [("query", .object [("literal", data)])])) :
    Document.parseJson text = .ok (.constant data.toJson.given) := by
  obtain ⟨⟨whole, rest⟩, read, same⟩ := bind_eq_ok parsed
  obtain ⟨_, -, same⟩ := bind_eq_ok same
  cases same
  obtain ⟨_, _, _, outer⟩ := JsonText.value_of_value_object read
  obtain ⟨_, _, _, inner⟩ := JsonText.value_of_value_object outer
  rw [Document.parseJson_constant parsed, literal_of_value inner]

theorem Document.ofJson_constant {json : Json} (ascending : (Value.ofJson json).Canonical) :
    Document.ofJson (.object [("query", .object [("literal", json)])]) = .ok (.constant json.given) := by
  have read := Document.ofData_constant false json.within_toData
  rw [Json.literal_toData ascending] at read
  exact read

theorem Query.run_literal (world : World) (bound : Nat) (ctx : Context) (v : Value) (s : Store) :
    ((Query.literal v).eval world bound ctx).run.run s = some (.ok v, s) := by
  cases bound <;> rw [eval, evalWith] <;> rfl

/-- A document that is built as a query that has a value in every context. -/
def Document.AlwaysGives (d : Document) (r : Registry) (v : Value) : Prop :=
  ∀ bench, ∃ q maps after, (d.build r).run.run bench = (.ok (q, maps), after) ∧
    ∀ world bound ctx s, (q.eval world bound ctx).run.run s = some (.ok v, s)

/-- A document of a literal is read, from a tree and from every text of it that is read at all. With any functions and
methods it is built as a query that always gives the literal's value, unless this is null: then the node has no form to
build. -/
theorem Document.constant_given (json : Json) (ascending : (Value.ofJson json).Canonical) (r : Registry) :
    ∃ d, Document.ofJson (.object [("query", .object [("literal", json)])]) = .ok d ∧
      (∀ text data, JsonText.parse text = .ok (.object [("query", .object [("literal", data)])]) → data.toJson = json →
        Document.parseJson text = .ok d) ∧
      (d.AlwaysGives r (Value.ofJson json) ↔ json ≠ .null) ∧
      (json = .null → ∀ bench, (d.build r).run.run bench = (.error (.invalidArguments "query" .form), bench)) := by
  refine ⟨.constant json.given, Document.ofJson_constant ascending, ?_, ?_, ?_⟩
  · rintro text data parsed rfl
    exact Document.parseJson_of_parse parsed
  · constructor
    · rintro gives rfl
      obtain ⟨q, maps, after, built, -⟩ := gives {}
      cases built
    · intro present bench
      rw [Json.given_of_ne_null present]
      exact ⟨.literal (Value.ofJson json), .ofEntries [], bench, rfl, fun world bound ctx s => Query.run_literal world bound ctx _ s⟩
  · rintro rfl bench
    rfl

/-- The compact text of a document of a constant, given the text of the constant. -/
def constantText (text : String) : String :=
  Json.writeObject [(Json.quote "query", Json.writeObject [(Json.quote "literal", text)])]

theorem readsAs_member {budget : Nat} {text : String} {data : Data} (key : String)
    (reads : JsonText.ReadsAs (JsonText.value budget) (Utf8.encode text) data) :
    JsonText.ReadsAs (JsonText.value (budget + 1)) (Utf8.encode (Json.writeObject [(Json.quote key, text)]))
      (.object [(key, data)]) := by
  have part : JsonText.ReadsMember (JsonText.value budget) (Utf8.encode (Json.quote key ++ ":" ++ text)) (key, data) :=
    ⟨Utf8.encode text, encode_member key text, reads⟩
  exact readsAs_object (.cons part .nil)

/-- The text is read if that of the constant is, two levels deep. -/
theorem parse_constantText {text : String} {data : Data} (reads : JsonText.ReadsAs (JsonText.value 125) (Utf8.encode text) data) :
    JsonText.parse (Utf8.encode (constantText text)) = .ok (.object [("query", .object [("literal", data)])]) := by
  have whole := (readsAs_member "query" (readsAs_member "literal" reads)).2 [] JsonText.numberEnds_nil
  rw [List.append_nil] at whole
  rw [JsonText.parse, JsonText.parseWithin, JsonText.nestingLimit, constantText, whole]
  rfl

/-- A constant that nests. -/
def nestedConstant : Json := .array [.null, .array [.bool true]]

theorem readsAs_nestedConstant :
    JsonText.ReadsAs (JsonText.value 125) (Utf8.encode (Json.writeArray ["null", Json.writeArray ["true"]]))
      (.array [.null, .array [.bool true]]) := by
  have null : JsonText.ReadsAs (JsonText.value 124) (Utf8.encode "null") .null :=
    ⟨⟨_, _, rfl, by decide, by decide⟩, fun rest _ => JsonText.value_null 124 rest⟩
  have true : JsonText.ReadsAs (JsonText.value 123) (Utf8.encode "true") (.bool true) :=
    ⟨⟨_, _, rfl, by decide, by decide⟩, fun rest _ => JsonText.value_true 123 rest⟩
  exact readsAs_array (.cons null (.cons (readsAs_array (.cons true .nil)) .nil))

theorem Document.constant_given_nested :
    ∃ d, Document.ofJson (.object [("query", .object [("literal", nestedConstant)])]) = .ok d ∧
      Document.parseJson (Utf8.encode (constantText (Json.writeArray ["null", Json.writeArray ["true"]]))) = .ok d ∧
      d.AlwaysGives .standard (.array [.null, .array [.bool true]]) := by
  have ascending : (Value.ofJson nestedConstant).Canonical := ⟨trivial, ⟨trivial, trivial⟩, trivial⟩
  obtain ⟨d, read, written, gives, -⟩ := Document.constant_given nestedConstant ascending .standard
  exact ⟨d, read, written _ _ (parse_constantText readsAs_nestedConstant) rfl, gives.mpr nofun⟩

theorem Document.null_constant_refused :
    ¬ ∀ json, (Value.ofJson json).Canonical → ∃ d q maps after,
      Document.ofJson (.object [("query", .object [("literal", json)])]) = .ok d ∧
        (d.build .standard).run.run {} = (.ok (q, maps), after) := by
  intro taken
  obtain ⟨d, q, maps, after, read, built⟩ := taken .null trivial
  cases read
  cases built

end RecordQuery
