import ProxyLint.Proofs.Json.Lexing
import ProxyLint.Proofs.Json.Numeral
import ProxyLint.Proofs.Json.Reading
import ProxyLint.Proofs.Json.Spacing

/-!
# Reading written values

Every value without floating-point numbers is written as a document.  The
lexer finds the tokens of this document in the value as it is written, whatever
blanks set its parts apart.
-/

namespace ProxyLint

namespace Json

mutual

/-- The document that a value is written as, if all its numbers are
integers. -/
def Value.document? : Value → Option Document
  | .null => some .null
  | .boolean value => some (.boolean value)
  | .number value => .number <$> value.literal?
  | .text value => some (.text (unitsOf value))
  | .array items => .array <$> documentsOf? items
  | .object members => .object <$> memberDocumentsOf? members

def documentsOf? : List Value → Option (List Document)
  | [] => some []
  | item :: items => do return (← item.document?) :: (← documentsOf? items)

def memberDocumentsOf? :
    List (String × Value) → Option (List (List TextUnit × Document))
  | [] => some []
  | (key, value) :: members => do
      return (unitsOf key, ← value.document?) :: (← memberDocumentsOf? members)

end

theorem documentsOf?_cons {item : Value} {items : List Value}
    {documents : List Document}
    (known : documentsOf? (item :: items) = some documents) :
    ∃ document later, item.document? = some document ∧
      documentsOf? items = some later ∧ documents = document :: later := by
  simp only [documentsOf?, Option.bind_eq_bind, Option.bind_eq_some_iff,
    Option.pure_def, Option.some.injEq] at known
  obtain ⟨document, ofItem, later, ofItems, rfl⟩ := known
  exact ⟨document, later, ofItem, ofItems, rfl⟩

theorem memberDocumentsOf?_cons {key : String} {value : Value}
    {members : List (String × Value)}
    {documents : List (List TextUnit × Document)}
    (known : memberDocumentsOf? ((key, value) :: members) = some documents) :
    ∃ document later, value.document? = some document ∧
      memberDocumentsOf? members = some later ∧
      documents = (unitsOf key, document) :: later := by
  simp only [memberDocumentsOf?, Option.bind_eq_bind, Option.bind_eq_some_iff,
    Option.pure_def, Option.some.injEq] at known
  obtain ⟨document, ofValue, later, ofMembers, rfl⟩ := known
  exact ⟨document, later, ofValue, ofMembers, rfl⟩

/-! ## Pieces of containers -/

section Pieces

variable {gap value rest : List Char} {markToken : Token}
  {valueTokens restTokens : List Token}

/-- An item behind a bracket or a comma. -/
theorem reads_item (mark : Char)
    (marks : Lexer.punctuation? mark = some markToken)
    (blank : Reads gap []) (reads : ReadsUpTo value valueTokens)
    (closes : Closes rest restTokens) :
    Closes (mark :: (gap ++ (value ++ rest)))
      (markToken :: (valueTokens ++ restTokens)) where
  ends := ⟨mark, _, rfl, endsRun_of_punctuation marks⟩
  reads := (reads_punctuation marks).append (blank.append (reads.append closes))

/-- A member behind a brace or a comma. -/
theorem reads_member {space : List Char} (mark : Char) (key : String)
    (marks : Lexer.punctuation? mark = some markToken)
    (blank : Reads gap []) (inner : Reads space [])
    (reads : ReadsUpTo value valueTokens) (closes : Closes rest restTokens) :
    Closes (mark :: (gap ++ (writtenText key ++
        ':' :: (space ++ (value ++ rest)))))
      (markToken :: .text (unitsOf key) :: .colon ::
        (valueTokens ++ restTokens)) where
  ends := ⟨mark, _, rfl, endsRun_of_punctuation marks⟩
  reads := (reads_punctuation marks).append (blank.append
    ((reads_writtenText key).append ((reads_punctuation rfl).append
      (inner.append (reads.append closes)))))

end Pieces

/-- The bracket that closes a container may stand behind blanks. -/
theorem closes_bracket {gap : List Char}
    (blank : ∀ character ∈ gap, isBlank character = true) (mark : Char)
    {token : Token} (marks : Lexer.punctuation? mark = some token) :
    Closes (gap ++ [mark]) [token] where
  ends := by
    cases gap with
    | nil => exact ⟨mark, [], rfl, endsRun_of_punctuation marks⟩
    | cons character gap =>
        refine ⟨character, gap ++ [mark], rfl, ?_⟩
        rw [Lexer.endsRun, blank character List.mem_cons_self]
        rfl
  reads := (reads_blanks blank).append (reads_punctuation marks)

/-! ## Values -/

theorem readsUpTo_null : ReadsUpTo ['n', 'u', 'l', 'l'] [.null] :=
  readsUpTo_bare (List.cons_ne_nil _ _) rfl rfl

theorem readsUpTo_writtenBoolean (value : Bool) :
    ReadsUpTo (writtenBoolean value) [.boolean value] := by
  cases value with
  | false => exact readsUpTo_bare (List.cons_ne_nil _ _) rfl rfl
  | true => exact readsUpTo_bare (List.cons_ne_nil _ _) rfl rfl

theorem readsUpTo_number {number : Number} {literal : NumberLiteral}
    (known : number.literal? = some literal) :
    ReadsUpTo number.written [.number literal] :=
  readsUpTo_bare (Number.written_ne_nil known)
    (Number.any_endsRun_written known)
    (bareToken?_of_numberLiteral? (Number.numberLiteral?_written known))

mutual

theorem Value.readsUpTo_spaced (spacing : Spacing) : (value : Value) →
    (level : Nat) → {document : Document} → value.document? = some document →
    ReadsUpTo (value.spaced spacing level) document.tokens
  | .null, level, _, known => by
      rw [Value.document?] at known
      obtain rfl := Option.some.inj known
      rw [Value.spaced, Document.tokens]
      exact readsUpTo_null
  | .boolean value, level, _, known => by
      rw [Value.document?] at known
      obtain rfl := Option.some.inj known
      rw [Value.spaced, Document.tokens]
      exact readsUpTo_writtenBoolean value
  | .number value, level, _, known => by
      rw [Value.document?] at known
      obtain ⟨literal, integer, rfl⟩ := Option.map_eq_some_iff.1 known
      rw [Value.spaced, Document.tokens]
      exact readsUpTo_number integer
  | .text value, level, _, known => by
      rw [Value.document?] at known
      obtain rfl := Option.some.inj known
      rw [Value.spaced, Document.tokens]
      exact (reads_writtenText value).readsUpTo
  | .array [], level, _, known => by
      rw [Value.document?, documentsOf?] at known
      obtain rfl := Option.some.inj known
      rw [Value.spaced, Document.tokens]
      exact ((reads_punctuation rfl).append (reads_punctuation rfl)).readsUpTo
  | .array (item :: items), level, _, known => by
      rw [Value.document?] at known
      obtain ⟨_, documents, rfl⟩ := Option.map_eq_some_iff.1 known
      obtain ⟨document, later, ofItem, ofItems, rfl⟩ :=
        documentsOf?_cons documents
      have closes := closes_spacedItems spacing items (level + 1) ofItems
        (closes_bracket (spacing.isBlank_gap level) ']' rfl)
      have reads := reads_item '[' rfl
        (reads_blanks (spacing.isBlank_gap (level + 1)))
        (item.readsUpTo_spaced spacing (level + 1) ofItem) closes
      rw [Value.spaced, Document.tokens]
      simpa using reads.reads.readsUpTo
  | .object [], level, _, known => by
      rw [Value.document?, memberDocumentsOf?] at known
      obtain rfl := Option.some.inj known
      rw [Value.spaced, Document.tokens]
      exact ((reads_punctuation rfl).append (reads_punctuation rfl)).readsUpTo
  | .object ((key, value) :: members), level, _, known => by
      rw [Value.document?] at known
      obtain ⟨_, documents, rfl⟩ := Option.map_eq_some_iff.1 known
      obtain ⟨document, later, ofValue, ofMembers, rfl⟩ :=
        memberDocumentsOf?_cons documents
      have closes := closes_spacedMembers spacing members (level + 1) ofMembers
        (closes_bracket (spacing.isBlank_gap level) '}' rfl)
      have reads := reads_member '{' key rfl
        (reads_blanks (spacing.isBlank_gap (level + 1)))
        (reads_blanks spacing.isBlank_space)
        (value.readsUpTo_spaced spacing (level + 1) ofValue) closes
      rw [Value.spaced, Document.tokens]
      simpa using reads.reads.readsUpTo

theorem closes_spacedItems (spacing : Spacing) : (items : List Value) →
    (level : Nat) → {documents : List Document} →
    documentsOf? items = some documents → {rest : List Char} →
    {restTokens : List Token} → Closes rest restTokens →
    Closes (spacedItems spacing level items ++ rest)
      (itemTokens documents ++ restTokens)
  | [], level, _, known, rest, restTokens, closes => by
      rw [documentsOf?] at known
      obtain rfl := Option.some.inj known
      exact closes
  | item :: items, level, _, known, rest, restTokens, closes => by
      obtain ⟨document, later, ofItem, ofItems, rfl⟩ := documentsOf?_cons known
      have reads := reads_item ',' rfl
        (reads_blanks (spacing.isBlank_gap level))
        (item.readsUpTo_spaced spacing level ofItem)
        (closes_spacedItems spacing items level ofItems closes)
      simpa [spacedItems, itemTokens] using reads

theorem closes_spacedMembers (spacing : Spacing) :
    (members : List (String × Value)) → (level : Nat) → {documents : List (List TextUnit × Document)} →
    memberDocumentsOf? members = some documents → {rest : List Char} →
    {restTokens : List Token} → Closes rest restTokens →
    Closes (spacedMembers spacing level members ++ rest)
      (memberTokens documents ++ restTokens)
  | [], level, _, known, rest, restTokens, closes => by
      rw [memberDocumentsOf?] at known
      obtain rfl := Option.some.inj known
      exact closes
  | (key, value) :: members, level, _, known, rest, restTokens, closes => by
      obtain ⟨document, later, ofValue, ofMembers, rfl⟩ :=
        memberDocumentsOf?_cons known
      have reads := reads_member ',' key rfl
        (reads_blanks (spacing.isBlank_gap level))
        (reads_blanks spacing.isBlank_space)
        (value.readsUpTo_spaced spacing level ofValue)
        (closes_spacedMembers spacing members level ofMembers closes)
      simpa [spacedMembers, memberTokens] using reads

end

/-! ## Whole texts -/

/-- A blank at the end of a text makes no difference. -/
theorem Lexer.finish_of_step_blank {lexer : Lexer} {tokens : List Token}
    (stepped : lexer.step ' ' = some ⟨.between, tokens⟩) :
    lexer.finish = some tokens.reverse := by
  obtain ⟨mode, found⟩ := lexer
  cases mode with
  | between =>
      obtain ⟨_, rfl⟩ := Lexer.mk.inj (Option.some.inj stepped)
      rfl
  | bare run =>
      have ends : endsRun ' ' = true := rfl
      rw [step_bare, if_pos ends] at stepped
      obtain ⟨token, bare, stepped⟩ := Option.bind_eq_some_iff.1 stepped
      obtain ⟨_, rfl⟩ := Lexer.mk.inj (Option.some.inj stepped)
      simp [finish, bare]
  | text units => cases stepped
  | escape units => cases stepped
  | hex units code digitsRead => cases stepped

theorem ReadsUpTo.tokens?_eq {text : List Char} {tokens : List Token}
    (reads : ReadsUpTo text tokens) : tokens? text = some tokens := by
  have all := reads [] ' ' rfl
  rw [List.foldlM_append, List.append_nil] at all
  obtain ⟨last, read, stepped⟩ := Option.bind_eq_some_iff.1 all
  rw [foldlM_step_singleton] at stepped
  rw [tokens?, Lexer.start, read]
  simpa using Lexer.finish_of_step_blank stepped

theorem Value.parse?_spaced {value : Value} {document : Document}
    (known : value.document? = some document) (spacing : Spacing) :
    Document.parse? (String.ofList (value.spaced spacing 0)) =
      some document := by
  have tokens := (value.readsUpTo_spaced spacing 0 known).tokens?_eq
  rw [Document.parse?, String.toList_ofList, tokens]
  exact document.ofTokens?_tokens

/-- A value without floating-point numbers is read back as its document. -/
theorem Value.parse?_renderIndented {value : Value} {document : Document}
    (known : value.document? = some document) :
    Document.parse? value.renderIndented = some document := by
  rw [renderIndented, ← value.spaced_lines]
  exact parse?_spaced known .lines

theorem Value.parse?_render {value : Value} {document : Document}
    (known : value.document? = some document) :
    Document.parse? value.render = some document := by
  rw [render, ← value.spaced_none 0]
  exact parse?_spaced known .none

end Json

end ProxyLint
