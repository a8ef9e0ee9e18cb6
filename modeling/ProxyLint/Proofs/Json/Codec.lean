import ProxyLint.Json.Decoding
import ProxyLint.Proofs.Json.Printing

/-!
# Encoding and decoding

An element survives a codec if its value is written as a document from which
it is decoded.  Lists survive if their elements do, and the fields of a record
are found under their names.
-/

namespace ProxyLint

namespace Json

/-- What an element is encoded as is decoded to the element. -/
def Survives {α : Type} (encode : α → Value) (decode : Document → Option α)
    (element : α) : Prop :=
  ∃ document, (encode element).document? = some document ∧
    decode document = some element

theorem survives_text (text : String) : Survives .text Document.text? text :=
  ⟨.text (unitsOf text), by rw [Value.document?], textOf?_unitsOf text⟩

theorem survives_natural {number : Nat} (fits : number < 2 ^ 64) :
    Survives (fun number => .number (.natural number)) Document.natural?
      number :=
  ⟨.number (.ofNat number), by rw [Value.document?]; rfl,
    NumberLiteral.natural?_ofNat fits⟩

/-- An optional number, null if it is absent. -/
theorem survives_nullable {number : Option Nat}
    (fits : ∀ value ∈ number, value < 2 ^ 64) :
    Survives (fun number => (number.map fun value =>
        Value.number (.natural value)).getD .null)
      (Document.nullable? Document.natural?) number := by
  cases number with
  | none =>
      refine ⟨.null, ?_, rfl⟩
      change Value.null.document? = _
      rw [Value.document?]
  | some value =>
      obtain ⟨document, encoded, decoded⟩ := survives_natural (fits value rfl)
      refine ⟨document, encoded, ?_⟩
      cases document with
      | null => cases decoded
      | _ => exact congrArg (some <$> ·) decoded

theorem Document.natural?_lt {document : Document} {number : Nat}
    (decoded : document.natural? = some number) : number < 2 ^ 64 := by
  cases document with
  | number literal => exact NumberLiteral.natural?_lt decoded
  | _ => cases decoded

theorem Document.nullable?_lt {document : Document} {number : Option Nat}
    (decoded : document.nullable? natural? = some number) :
    ∀ value ∈ number, value < 2 ^ 64 := by
  intro value given
  cases document with
  | null =>
      rw [← Option.some.inj decoded] at given
      cases given
  | _ =>
      change some <$> natural? _ = some number at decoded
      obtain ⟨read, natural, rfl⟩ := Option.map_eq_some_iff.1 decoded
      obtain rfl := Option.some.inj given
      exact natural?_lt natural

theorem exists_of_mem_mapM {α β : Type} {decode : α → Option β}
    {items : List α} {elements : List β}
    (decoded : items.mapM decode = some elements) {element : β}
    (member : element ∈ elements) :
    ∃ item ∈ items, decode item = some element := by
  induction items generalizing elements with
  | nil =>
      obtain rfl := Option.some.inj decoded
      cases member
  | cons item items ih =>
      rw [List.mapM_cons] at decoded
      obtain ⟨first, ofItem, decoded⟩ := Option.bind_eq_some_iff.1 decoded
      obtain ⟨later, ofItems, decoded⟩ := Option.bind_eq_some_iff.1 decoded
      obtain rfl := Option.some.inj decoded
      rcases List.mem_cons.1 member with rfl | member
      · exact ⟨item, List.mem_cons_self, ofItem⟩
      · obtain ⟨other, inLater, decoded⟩ := ih ofItems member
        exact ⟨other, List.mem_cons_of_mem _ inLater, decoded⟩

section Lists

variable {α : Type} {encode : α → Value} {decode : Document → Option α}

theorem survives_list {elements : List α}
    (survive : ∀ element ∈ elements, Survives encode decode element) :
    Survives (fun elements => .array (elements.map encode))
      (Document.list? decode) elements := by
  have items : ∃ documents, documentsOf? (elements.map encode) = some documents ∧
      documents.mapM decode = some elements := by
    induction elements with
    | nil => exact ⟨[], rfl, rfl⟩
    | cons element elements ih =>
        obtain ⟨document, encoded, decoded⟩ :=
          survive element List.mem_cons_self
        obtain ⟨documents, allEncoded, allDecoded⟩ := ih
          fun other member => survive other (List.mem_cons_of_mem _ member)
        refine ⟨document :: documents, ?_, ?_⟩
        · simp [documentsOf?, encoded, allEncoded]
        · simp [decoded, allDecoded]
  obtain ⟨documents, encoded, decoded⟩ := items
  refine ⟨.array documents, ?_, decoded⟩
  rw [Value.document?, encoded]
  rfl

/-- Every element of a decoded list is decoded from some document. -/
theorem exists_of_mem_list? {document : Document} {elements : List α}
    (decoded : document.list? decode = some elements) {element : α}
    (member : element ∈ elements) : ∃ item, decode item = some element := by
  cases document with
  | array items =>
      obtain ⟨item, _, decoded⟩ := exists_of_mem_mapM decoded member
      exact ⟨item, decoded⟩
  | _ => cases decoded

end Lists

section Records

/-- The document of a record with the given members. -/
def record (members : List (String × Document)) : Document :=
  .object (members.map fun member => (unitsOf member.1, member.2))

/-- The members of a value are written as the members of a record. -/
def WritesMembers (values : List (String × Value))
    (members : List (String × Document)) : Prop :=
  memberDocumentsOf? values =
    some (members.map fun member => (unitsOf member.1, member.2))

theorem writesMembers_nil : WritesMembers [] [] := by
  rw [WritesMembers, memberDocumentsOf?, List.map_nil]

theorem writesMembers_cons (key : String) {value : Value} {document : Document}
    {values : List (String × Value)} {members : List (String × Document)}
    (encoded : value.document? = some document)
    (rest : WritesMembers values members) :
    WritesMembers ((key, value) :: values) ((key, document) :: members) := by
  rw [WritesMembers, memberDocumentsOf?, encoded, rest]
  rfl

theorem WritesMembers.document?_object {values : List (String × Value)}
    {members : List (String × Document)} (writes : WritesMembers values members) :
    (Value.object values).document? = some (record members) := by
  rw [Value.document?, writes]
  rfl

theorem keyed?_record (members : List (String × Document)) :
    Document.keyed? (members.map fun member => (unitsOf member.1, member.2)) =
      some members := by
  rw [Document.keyed?]
  induction members with
  | nil => rfl
  | cons member members ih =>
      rw [List.map_cons, List.mapM_cons, ih, textOf?_unitsOf]
      rfl

/-- The fields of a record are its members under their names. -/
theorem fields?_record (names : List String)
    (members : List (String × Document)) :
    (record members).fields? names =
      names.mapM fun name => Document.unique? name members := by
  rw [record, Document.fields?, keyed?_record]
  rfl

end Records

end Json

end ProxyLint
