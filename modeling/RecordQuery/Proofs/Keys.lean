import RecordQuery.Document.Decode

/-!
# Keys of documents

A key that no field has is refused in a document, in the nodes under it and in their methods. The nodes are the main
query, the maps and what stands under `query` in arguments that are nested queries. Whether an argument is one is
decided by reading it: one with a misspelt key in it can be taken as a literal of itself, and then the key is not refused
(`Document.misspelt_read`). In no other place can such a key stand (`Document.ofJson_keys`).
-/

namespace RecordQuery

/-- The fields that are written in a structure: the members of an object, or the items of a list by the names in their
order. -/
def Data.fields (names : List String) : Data → List (String × Data)
  | .object members => members
  | .array items => names.zip items
  | _ => []

/-- An argument that is taken as a nested query. -/
def IsNested (element : Data) : Prop := ∃ query, ArgSpec.ofData element = .nested query

namespace Document

/-- The structures of a document. -/
inductive Part where
  | document
  | node
  | method

def Part.keys : Part → List String
  | .document => Document.fieldNames
  | .node => QuerySpec.fieldNames
  | .method => MethodSpec.fieldNames

/-- What stands at a place for a structure somewhere within one: in a document its main query and its maps, in a node
its methods, and in arguments of nodes and methods what is under `query`, as far as the argument counts as nested. -/
inductive Within (counts : Data → Prop) (root : Part) (top : Data) : Part → Data → Prop where
  | top : Within counts root top root top
  | query {data node : Data} (within : Within counts root top .document data)
      (field : ("query", node) ∈ data.fields Part.document.keys) : Within counts root top .node node
  | map {data node : Data} {maps : List (String × Data)} {name : String} (within : Within counts root top .document data)
      (field : ("maps", .object maps) ∈ data.fields Part.document.keys) (entry : (name, node) ∈ maps) :
      Within counts root top .node node
  | method {data method : Data} {items : List Data} (within : Within counts root top .node data)
      (field : ("methods", .array items) ∈ data.fields Part.node.keys) (item : method ∈ items) :
      Within counts root top .method method
  | nested {part : Part} {data node : Data} {items : List Data} {members : List (String × Data)}
      (within : Within counts root top part data) (calls : part ≠ .document)
      (field : ("args", .array items) ∈ data.fields part.keys) (element : .object members ∈ items)
      (counted : counts (.object members)) (entry : ("query", node) ∈ members) : Within counts root top .node node

/-- Something stands in a list of arguments within a structure. -/
def HasArgument (counts : Data → Prop) (root : Part) (top element : Data) : Prop :=
  ∃ part data items, Within counts root top part data ∧ part ≠ .document ∧ ("args", .array items) ∈ data.fields part.keys ∧
    element ∈ items

/-- The data can be read as a structure. -/
def Part.Reads : Part → Data → Prop
  | .document, data => ∃ lenient d, Document.ofData lenient data = .ok d
  | .node, data => ∃ lenient spec, QuerySpec.ofData lenient data = .ok spec
  | .method, data => ∃ lenient spec, MethodSpec.ofData lenient data = .ok spec

/-- A structure takes what is written under a key, after some fields were read. -/
def Part.Takes : Part → String → Data → Prop
  | .document, key, data => ∃ lenient before after, documentField lenient before key data = .ok after
  | .node, key, data => ∃ lenient before after, queryField lenient before key data = .ok after
  | .method, key, data => ∃ before after, methodField before key data = .ok after

end Document

/-! ## Reading field by field -/

theorem bind_eq_ok {ε α β : Type} {x : Except ε α} {f : α → Except ε β} {b : β} (ok : (x >>= f) = .ok b) :
    ∃ a, x = .ok a ∧ f a = .ok b := by
  cases x with
  | error e => cases ok
  | ok a => exact ⟨a, rfl, ok⟩

/-- Every step of a fold that does not fail has not failed. -/
theorem of_foldlM_ok {ε α β : Type} {step : β → α → Except ε β} {items : List α} {first last : β}
    (ok : items.foldlM step first = .ok last) : ∀ item ∈ items, ∃ before after, step before item = .ok after := by
  induction items generalizing first with
  | nil => simp
  | cons item rest ih =>
    rw [List.foldlM_cons] at ok
    obtain ⟨next, stepped, onward⟩ := bind_eq_ok ok
    intro other member
    rcases List.mem_cons.mp member with rfl | later
    · exact ⟨first, next, stepped⟩
    · exact ih onward other later

theorem queryMembers_eq (lenient : Bool) (draft : QueryDraft) (members : List (String × Data)) :
    queryMembers lenient draft members =
      members.foldlM (fun draft entry => queryField lenient draft entry.1 entry.2) draft := by
  induction members generalizing draft with
  | nil => rw [queryMembers]; rfl
  | cons entry rest ih =>
    rw [queryMembers, List.foldlM_cons]
    simp only [ih]

theorem queryItems_eq (lenient : Bool) (draft : QueryDraft) (names : List String) (items : List Data) :
    queryItems lenient draft names items =
      (names.zip items).foldlM (fun draft entry => queryField lenient draft entry.1 entry.2) draft := by
  induction items generalizing draft names with
  | nil => rw [queryItems, List.zip_nil_right]; rfl
  | cons item rest ih =>
    cases names with
    | nil => rw [queryItems]; rfl
    | cons name names =>
      rw [queryItems, List.zip_cons_cons, List.foldlM_cons]
      simp only [ih]

theorem methodMembers_eq (draft : MethodDraft) (members : List (String × Data)) :
    methodMembers draft members = members.foldlM (fun draft entry => methodField draft entry.1 entry.2) draft := by
  induction members generalizing draft with
  | nil => rw [methodMembers]; rfl
  | cons entry rest ih =>
    rw [methodMembers, List.foldlM_cons]
    simp only [ih]

theorem methodPositions_eq (draft : MethodDraft) (names : List String) (items : List Data) :
    methodPositions draft names items =
      (names.zip items).foldlM (fun draft entry => methodField draft entry.1 entry.2) draft := by
  induction items generalizing draft names with
  | nil => rw [methodPositions, List.zip_nil_right]; rfl
  | cons item rest ih =>
    cases names with
    | nil => rw [methodPositions]; rfl
    | cons name names =>
      rw [methodPositions, List.zip_cons_cons, List.foldlM_cons]
      simp only [ih]

theorem fields_of_queryOfData {lenient : Bool} {data : Data} {spec : QuerySpec} (read : QuerySpec.ofData lenient data = .ok spec) :
    ∃ draft, (data.fields QuerySpec.fieldNames).foldlM (fun draft entry => queryField lenient draft entry.1 entry.2) {} = .ok draft := by
  cases data with
  | object members =>
    rw [QuerySpec.ofData, queryMembers_eq] at read
    obtain ⟨draft, folded, -⟩ := bind_eq_ok read
    exact ⟨draft, folded⟩
  | array items =>
    rw [QuerySpec.ofData, queryItems_eq] at read
    obtain ⟨draft, folded, -⟩ := bind_eq_ok read
    exact ⟨draft, folded⟩
  | _ => exact ⟨_, rfl⟩

theorem fields_of_methodOfData {lenient : Bool} {data : Data} {spec : MethodSpec} (read : MethodSpec.ofData lenient data = .ok spec) :
    ∃ draft, (data.fields MethodSpec.fieldNames).foldlM (fun draft entry => methodField draft entry.1 entry.2) {} = .ok draft := by
  cases data with
  | object members =>
    rw [MethodSpec.ofData, methodMembers_eq] at read
    obtain ⟨draft, folded, -⟩ := bind_eq_ok read
    exact ⟨draft, folded⟩
  | array items =>
    rw [MethodSpec.ofData, methodPositions_eq] at read
    obtain ⟨draft, folded, -⟩ := bind_eq_ok read
    exact ⟨draft, folded⟩
  | _ => exact ⟨_, rfl⟩

theorem fields_of_documentOfData {lenient : Bool} {data : Data} {d : Document} (read : Document.ofData lenient data = .ok d) :
    ∃ draft, (data.fields Document.fieldNames).foldlM (fun draft entry => documentField lenient draft entry.1 entry.2) {} = .ok draft := by
  cases data with
  | object members =>
    obtain ⟨draft, folded, -⟩ := bind_eq_ok read
    exact ⟨draft, folded⟩
  | array items =>
    obtain ⟨draft, folded, -⟩ := bind_eq_ok read
    exact ⟨draft, folded⟩
  | _ => exact ⟨_, rfl⟩

theorem queryLeaf_known {draft after : QueryDraft} {key : String} {data : Data} (read : queryLeaf draft key data = .ok after) :
    key ∈ QuerySpec.fieldNames := by
  refine Decidable.byContradiction fun unknown => ?_
  simp only [QuerySpec.fieldNames, List.mem_cons, List.not_mem_nil, or_false, not_or] at unknown
  obtain ⟨notFunction, notField, notLiteral, notArgs, notMethods⟩ := unknown
  rw [queryLeaf, if_neg notFunction, if_neg notField, if_neg notLiteral, if_neg (not_or.mpr ⟨notArgs, notMethods⟩)] at read
  cases read

theorem methodLeaf_known {draft after : MethodDraft} {key : String} {data : Data} (read : methodLeaf draft key data = .ok after) :
    key ∈ MethodSpec.fieldNames := by
  refine Decidable.byContradiction fun unknown => ?_
  simp only [MethodSpec.fieldNames, List.mem_cons, List.not_mem_nil, or_false, not_or] at unknown
  obtain ⟨notName, notArgs⟩ := unknown
  rw [methodLeaf, if_neg notName, if_neg notArgs] at read
  cases read

theorem queryField_known {lenient : Bool} {draft after : QueryDraft} {key : String} {data : Data}
    (read : queryField lenient draft key data = .ok after) : key ∈ QuerySpec.fieldNames := by
  cases data with
  | array items =>
    rw [queryField] at read
    split at read
    next isArgs => simp [QuerySpec.fieldNames, isArgs]
    next =>
      split at read
      next isMethods => simp [QuerySpec.fieldNames, isMethods]
      next => exact queryLeaf_known read
  | _ => exact queryLeaf_known (by rwa [queryField] at read; exact fun _ isArray => nomatch isArray)

theorem methodField_known {draft after : MethodDraft} {key : String} {data : Data} (read : methodField draft key data = .ok after) :
    key ∈ MethodSpec.fieldNames := by
  cases data with
  | array items =>
    rw [methodField] at read
    split at read
    next isArgs => simp [MethodSpec.fieldNames, isArgs]
    next => exact methodLeaf_known read
  | _ => exact methodLeaf_known (by rwa [methodField] at read; exact fun _ isArray => nomatch isArray)

theorem documentField_known {lenient : Bool} {draft after : DocumentDraft} {key : String} {data : Data}
    (read : documentField lenient draft key data = .ok after) : key ∈ Document.fieldNames := by
  refine Decidable.byContradiction fun unknown => ?_
  simp only [Document.fieldNames, List.mem_cons, List.not_mem_nil, or_false, not_or] at unknown
  unfold documentField at read
  rw [if_neg unknown.1, if_neg unknown.2] at read
  cases read

theorem of_methodItems {lenient : Bool} {items : List Data} {specs : List MethodSpec} (read : methodItems lenient items = .ok specs) :
    ∀ item ∈ items, ∃ spec, MethodSpec.ofData lenient item = .ok spec := by
  induction items generalizing specs with
  | nil => simp
  | cons item rest ih =>
    rw [methodItems] at read
    obtain ⟨head, first, read⟩ := bind_eq_ok read
    obtain ⟨tail, onward, -⟩ := bind_eq_ok read
    intro other member
    rcases List.mem_cons.mp member with rfl | later
    · exact ⟨head, first⟩
    · exact ih onward other later

theorem of_specEntries {lenient : Bool} {members : List (String × Data)} {specs : List (String × QuerySpec)}
    (read : specEntries lenient members = .ok specs) :
    ∀ entry ∈ members, ∃ spec, QuerySpec.ofData lenient entry.2 = .ok spec := by
  induction members generalizing specs with
  | nil => simp
  | cons entry rest ih =>
    rw [specEntries] at read
    obtain ⟨head, first, read⟩ := bind_eq_ok read
    obtain ⟨tail, onward, -⟩ := bind_eq_ok read
    intro other member
    rcases List.mem_cons.mp member with rfl | later
    · exact ⟨head, first⟩
    · exact ih onward other later

theorem of_nestedQueries {members : List (String × Data)} {spec : QuerySpec} (only : nestedQueries members = [.ok spec])
    {node : Data} (entry : ("query", node) ∈ members) : QuerySpec.ofData false node = .ok spec := by
  have listed : QuerySpec.ofData false node ∈ nestedQueries members := by
    clear only
    induction members with
    | nil => cases entry
    | cons head rest ih =>
      obtain ⟨key, data⟩ := head
      rw [nestedQueries]
      rcases List.mem_cons.mp entry with same | later
      · cases same
        rw [if_pos rfl]
        exact List.mem_cons_self
      · split
        · exact List.mem_cons_of_mem _ (ih later)
        · exact ih later
  rw [only] at listed
  exact List.mem_singleton.mp listed

/-- An argument that is an object is taken as a nested query, or as a literal of the whole of it. -/
theorem ofData_object (members : List (String × Data)) :
    (∃ query, ArgSpec.ofData (.object members) = .nested query) ∨
      ArgSpec.ofData (.object members) = .literal (Data.object members).toJson := by
  rw [ArgSpec.ofData]
  split
  · exact .inl ⟨_, rfl⟩
  · exact .inr rfl

/-- What stands under `query` in a nested query is read as a node. -/
theorem read_of_nested {members : List (String × Data)} {query : QuerySpec} (taken : ArgSpec.ofData (.object members) = .nested query)
    {node : Data} (entry : ("query", node) ∈ members) : QuerySpec.ofData false node = .ok query := by
  rw [ArgSpec.ofData] at taken
  split at taken
  next only =>
    cases taken
    exact of_nestedQueries only entry
  next => cases taken

namespace Document

namespace Part

/-- Every field that is written in a structure is taken when it is read. -/
theorem Reads.takes {part : Part} {data : Data} (reads : part.Reads data) :
    ∀ entry ∈ data.fields part.keys, part.Takes entry.1 entry.2 := by
  intro entry written
  cases part with
  | document =>
    obtain ⟨lenient, d, read⟩ := reads
    obtain ⟨draft, folded⟩ := fields_of_documentOfData read
    exact ⟨lenient, of_foldlM_ok folded entry written⟩
  | node =>
    obtain ⟨lenient, spec, read⟩ := reads
    obtain ⟨draft, folded⟩ := fields_of_queryOfData read
    exact ⟨lenient, of_foldlM_ok folded entry written⟩
  | method =>
    obtain ⟨lenient, spec, read⟩ := reads
    obtain ⟨draft, folded⟩ := fields_of_methodOfData read
    exact of_foldlM_ok folded entry written

/-- Only the fields of a structure are taken. -/
theorem Takes.known {part : Part} {key : String} {data : Data} (takes : part.Takes key data) : key ∈ part.keys := by
  cases part with
  | document =>
    obtain ⟨lenient, before, after, taken⟩ := takes
    exact documentField_known taken
  | node =>
    obtain ⟨lenient, before, after, taken⟩ := takes
    exact queryField_known taken
  | method =>
    obtain ⟨before, after, taken⟩ := takes
    exact methodField_known taken

theorem Takes.query {node : Data} (takes : Part.document.Takes "query" node) : Part.node.Reads node := by
  obtain ⟨lenient, before, after, taken⟩ := takes
  unfold documentField at taken
  rw [if_pos rfl] at taken
  obtain ⟨_, -, taken⟩ := bind_eq_ok taken
  obtain ⟨spec, read, -⟩ := bind_eq_ok taken
  exact ⟨lenient, spec, read⟩

theorem Takes.maps {maps : List (String × Data)} (takes : Part.document.Takes "maps" (.object maps)) :
    ∀ entry ∈ maps, Part.node.Reads entry.2 := by
  obtain ⟨lenient, before, after, taken⟩ := takes
  rw [documentField, if_neg (by decide), if_pos rfl] at taken
  obtain ⟨-, -, taken⟩ := bind_eq_ok taken
  obtain ⟨specs, read, -⟩ := bind_eq_ok taken
  exact fun entry member => ⟨lenient, of_specEntries read entry member⟩

theorem Takes.methods {items : List Data} (takes : Part.node.Takes "methods" (.array items)) :
    ∀ item ∈ items, Part.method.Reads item := by
  obtain ⟨lenient, before, after, taken⟩ := takes
  rw [queryField, if_neg (by decide), if_pos rfl] at taken
  obtain ⟨-, -, taken⟩ := bind_eq_ok taken
  obtain ⟨specs, read, -⟩ := bind_eq_ok taken
  exact fun item member => ⟨lenient, of_methodItems read item member⟩

end Part

/-- What stands within something that is read is read, where nested queries are counted that are taken as such. -/
theorem Within.reads {root part : Part} {whole data : Data} (read : root.Reads whole)
    (within : Within IsNested root whole part data) : part.Reads data := by
  induction within with
  | top => exact read
  | query _ field ih => exact (ih.takes _ field).query
  | map _ field entry ih => exact (ih.takes _ field).maps _ entry
  | method _ field item ih => exact (ih.takes _ field).methods _ item
  | nested _ _ _ _ counted entry =>
    obtain ⟨spec, taken⟩ := counted
    exact ⟨false, spec, read_of_nested taken entry⟩

/-- What stands within a structure, if everything under `query` in an argument counts, stands there through arguments
that are nested queries, or in the first one on the way that is a literal. -/
theorem Within.nested_or_literal {root part : Part} {whole data : Data} (within : Within (fun _ => True) root whole part data) :
    Within IsNested root whole part data ∨
      ∃ argument node, HasArgument IsNested root whole (.object argument) ∧ ("query", node) ∈ argument ∧
        ArgSpec.ofData (.object argument) = .literal (Data.object argument).toJson ∧
        Within (fun _ => True) .node node part data := by
  induction within with
  | top => exact .inl .top
  | query _ field ih =>
    rcases ih with through | ⟨argument, node, stands, entry, literal, within⟩
    · exact .inl (.query through field)
    · exact .inr ⟨argument, node, stands, entry, literal, .query within field⟩
  | map _ field member ih =>
    rcases ih with through | ⟨argument, node, stands, entry, literal, within⟩
    · exact .inl (.map through field member)
    · exact .inr ⟨argument, node, stands, entry, literal, .map within field member⟩
  | method _ field item ih =>
    rcases ih with through | ⟨argument, node, stands, entry, literal, within⟩
    · exact .inl (.method through field item)
    · exact .inr ⟨argument, node, stands, entry, literal, .method within field item⟩
  | @nested holder data _ items members _ calls field element _ under ih =>
    rcases ih with through | ⟨argument, node, stands, entry, literal, within⟩
    · rcases ofData_object members with taken | literal
      · exact .inl (.nested through calls field element taken under)
      · exact .inr ⟨members, _, ⟨holder, data, items, through, calls, field, element⟩, under, literal, .top⟩
    · exact .inr ⟨argument, node, stands, entry, literal, .nested within calls field element trivial under⟩

/-- A key of an object that stands for a structure in a document is one of that structure, unless the object lies in an
argument that is a literal of itself. -/
theorem ofJson_keys {json : Json} {d : Document} (read : Document.ofJson json = .ok d) {part : Part}
    {members : List (String × Data)} (within : Within (fun _ => True) .document json.toData part (.object members))
    {entry : String × Data} (member : entry ∈ members) :
    entry.1 ∈ part.keys ∨
      ∃ argument node, HasArgument IsNested .document json.toData (.object argument) ∧ ("query", node) ∈ argument ∧
        ArgSpec.ofData (.object argument) = .literal (Data.object argument).toJson ∧
        Within (fun _ => True) .node node part (.object members) := by
  refine within.nested_or_literal.imp_left fun through => ?_
  have whole : Part.document.Reads json.toData := ⟨false, d, read⟩
  exact ((through.reads whole).takes entry member).known

/-- A query that fails, and catches with an argument in which the name of a key is misspelt. -/
def misspelt : Json :=
  .object [("query", .object [("function", .string "throw"), ("args", .array [.string "x"]),
    ("methods", .array [.object [("name", .string "catch"),
      ("args", .array [.object [("query", .object [("functoin", .string "content")])]])]])])]

/-- The node with the misspelt name stands in it, if everything under `query` in an argument is to be a node. -/
theorem misspelt_within :
    Within (fun _ => True) .document misspelt.toData .node (.object [("functoin", .string "content")]) := by
  have main : Within (fun _ => True) .document misspelt.toData .node _ := .query .top (.head _)
  have method : Within (fun _ => True) .document misspelt.toData .method _ := .method main (.tail _ (.tail _ (.head _))) (.head _)
  exact .nested method nofun (.tail _ (.head _)) (.head _) trivial (.head _)

/-- An argument of it is a literal, with that node inside. -/
theorem ofJson_keys_misspelt :
    ∃ argument node, HasArgument IsNested .document misspelt.toData (.object argument) ∧ ("query", node) ∈ argument ∧
      ArgSpec.ofData (.object argument) = .literal (Data.object argument).toJson ∧
      Within (fun _ => True) .node node .node (.object [("functoin", .string "content")]) := by
  have read : ∃ d, Document.ofJson misspelt = .ok d := ⟨_, rfl⟩
  obtain ⟨d, read⟩ := read
  have either := ofJson_keys read misspelt_within (.head _)
  exact either.resolve_left (by decide)

/-- The document is read, so the key is not refused there. -/
theorem misspelt_read :
    ¬ ∀ json d, Document.ofJson json = .ok d → ∀ part members, Within (fun _ => True) .document json.toData part (.object members) →
      ∀ entry ∈ members, entry.1 ∈ part.keys := by
  intro refused
  have read : ∃ d, Document.ofJson misspelt = .ok d := ⟨_, rfl⟩
  obtain ⟨d, read⟩ := read
  have known := refused misspelt d read .node _ misspelt_within ("functoin", .string "content") (.head _)
  revert known
  decide

end Document

end RecordQuery
