import ProxyLint.Proofs.Json.Printing
import ProxyLint.Proofs.Text.Keyed

/-!
# Values in normal form

Many documents mean the same value: keys may be repeated or in any order, and
texts and numbers can be spelled in several ways.  The document that a value is
written as means this value again, and it is nested no deeper than the document
from which the value was read.
-/

namespace ProxyLint

namespace Json

mutual

/-- Whether all numbers of a value are integers. -/
def Value.integersOnly : Value → Bool
  | .number value => value.literal?.isSome
  | .array items => itemsIntegersOnly items
  | .object members => membersIntegersOnly members
  | .null | .boolean _ | .text _ => true

def itemsIntegersOnly : List Value → Bool
  | [] => true
  | item :: items => item.integersOnly && itemsIntegersOnly items

def membersIntegersOnly : List (String × Value) → Bool
  | [] => true
  | (_, value) :: members => value.integersOnly && membersIntegersOnly members

end

mutual

/-- Only floating-point numbers cannot be written as documents. -/
theorem Value.isSome_document? :
    (value : Value) → value.document?.isSome = value.integersOnly
  | .null => by rw [Value.document?, Value.integersOnly]; rfl
  | .boolean _ => by rw [Value.document?, Value.integersOnly]; rfl
  | .text _ => by rw [Value.document?, Value.integersOnly]; rfl
  | .number value => by
      rw [Value.document?, Value.integersOnly]
      exact Option.isSome_map
  | .array items => by
      rw [Value.document?, Value.integersOnly, ← isSome_documentsOf? items]
      exact Option.isSome_map
  | .object members => by
      rw [Value.document?, Value.integersOnly, ← isSome_memberDocumentsOf? members]
      exact Option.isSome_map

theorem isSome_documentsOf? : (items : List Value) →
    (documentsOf? items).isSome = itemsIntegersOnly items
  | [] => by rw [documentsOf?, itemsIntegersOnly]; rfl
  | item :: items => by
      rw [itemsIntegersOnly, ← item.isSome_document?,
        ← isSome_documentsOf? items, documentsOf?]
      cases item.document? <;> cases documentsOf? items <;> rfl

theorem isSome_memberDocumentsOf? : (members : List (String × Value)) →
    (memberDocumentsOf? members).isSome = membersIntegersOnly members
  | [] => by rw [memberDocumentsOf?, membersIntegersOnly]; rfl
  | (key, value) :: members => by
      rw [membersIntegersOnly, ← value.isSome_document?,
        ← isSome_memberDocumentsOf? members, memberDocumentsOf?]
      cases value.document? <;> cases memberDocumentsOf? members <;> rfl

end

/-- The document that a value is written as means the value, and it is not
nested too deeply. -/
def Value.Rereads (bound : Nat) (value : Value) : Prop :=
  ∀ written, value.document? = some written →
    written.value? = some value ∧ written.depth ≤ bound

theorem Value.Rereads.mono {bound larger : Nat} {value : Value}
    (rereads : value.Rereads bound) (within : bound ≤ larger) :
    value.Rereads larger := fun written known =>
  ⟨(rereads written known).1,
    Nat.le_trans (rereads written known).2 within⟩

theorem valuesOf?_cons {document : Document} {documents : List Document}
    {values : List Value}
    (read : valuesOf? (document :: documents) = some values) :
    ∃ value later, document.value? = some value ∧
      valuesOf? documents = some later ∧ values = value :: later := by
  simp only [valuesOf?, Option.bind_eq_bind, Option.bind_eq_some_iff,
    Option.pure_def, Option.some.injEq] at read
  obtain ⟨value, ofDocument, later, ofDocuments, rfl⟩ := read
  exact ⟨value, later, ofDocument, ofDocuments, rfl⟩

theorem membersOf?_cons {key : List TextUnit} {document : Document}
    {documents : List (List TextUnit × Document)}
    {members : List (String × Value)}
    (read : membersOf? ((key, document) :: documents) = some members) :
    ∃ name value later, document.value? = some value ∧
      membersOf? documents = some later ∧
      members = (name, value) :: later := by
  simp only [membersOf?, Option.bind_eq_bind, Option.bind_eq_some_iff,
    Option.pure_def, Option.some.injEq] at read
  obtain ⟨name, _, value, ofDocument, later, ofDocuments, rfl⟩ := read
  exact ⟨name, value, later, ofDocument, ofDocuments, rfl⟩

/-- Entries that are read again can be written in any selection. -/
theorem membersOf?_memberDocumentsOf? {bound : Nat}
    {entries : List (String × Value)} {written : List (List TextUnit × Document)}
    (rereads : ∀ entry ∈ entries, entry.2.Rereads bound)
    (known : memberDocumentsOf? entries = some written) :
    membersOf? written = some entries ∧ depthOfMembers written ≤ bound := by
  induction entries generalizing written with
  | nil =>
      rw [memberDocumentsOf?] at known
      obtain rfl := Option.some.inj known
      rw [membersOf?, depthOfMembers]
      exact ⟨rfl, Nat.zero_le _⟩
  | cons entry entries ih =>
      obtain ⟨key, value⟩ := entry
      obtain ⟨document, later, ofValue, ofEntries, rfl⟩ :=
        memberDocumentsOf?_cons known
      obtain ⟨means, within⟩ :=
        rereads (key, value) List.mem_cons_self document ofValue
      obtain ⟨meanLater, withinLater⟩ := ih
        (fun entry member => rereads entry (List.mem_cons_of_mem _ member))
        ofEntries
      rw [membersOf?, depthOfMembers, textOf?_unitsOf, means, meanLater]
      exact ⟨rfl, Nat.max_le.2 ⟨within, withinLater⟩⟩

mutual

theorem Document.rereads : (document : Document) → {value : Value} →
    document.value? = some value → value.Rereads document.depth
  | .null, _, read => by
      rw [Document.value?] at read
      obtain rfl := Option.some.inj read
      intro written known
      rw [Value.document?] at known
      obtain rfl := Option.some.inj known
      exact ⟨by rw [Document.value?], Nat.le_refl _⟩
  | .boolean truth, _, read => by
      rw [Document.value?] at read
      obtain rfl := Option.some.inj read
      intro written known
      rw [Value.document?] at known
      obtain rfl := Option.some.inj known
      exact ⟨by rw [Document.value?], Nat.le_refl _⟩
  | .number literal, _, read => by
      rw [Document.value?] at read
      obtain ⟨number, ofLiteral, rfl⟩ := Option.map_eq_some_iff.1 read
      intro written known
      rw [Value.document?] at known
      obtain ⟨own, integer, rfl⟩ := Option.map_eq_some_iff.1 known
      rw [Document.value?, NumberLiteral.number?_literal? ofLiteral integer]
      exact ⟨rfl, Nat.le_refl _⟩
  | .text units, _, read => by
      rw [Document.value?] at read
      obtain ⟨text, _, rfl⟩ := Option.map_eq_some_iff.1 read
      intro written known
      rw [Value.document?] at known
      obtain rfl := Option.some.inj known
      rw [Document.value?, textOf?_unitsOf]
      exact ⟨rfl, Nat.le_refl _⟩
  | .array items, _, read => by
      rw [Document.value?] at read
      obtain ⟨values, ofItems, rfl⟩ := Option.map_eq_some_iff.1 read
      intro written known
      rw [Value.document?] at known
      obtain ⟨documents, ofValues, rfl⟩ := Option.map_eq_some_iff.1 known
      obtain ⟨means, within⟩ := valuesOf?_documentsOf? items ofItems ofValues
      rw [Document.value?, means, Document.depth, Document.depth]
      exact ⟨rfl, Nat.succ_le_succ within⟩
  | .object members, _, read => by
      rw [Document.value?] at read
      obtain ⟨entries, ofMembers, read⟩ := Option.bind_eq_some_iff.1 read
      obtain rfl := Option.some.inj read
      intro written known
      rw [Value.document?] at known
      obtain ⟨documents, ofEntries, rfl⟩ := Option.map_eq_some_iff.1 known
      have rereads := membersOf?_rereads members ofMembers
      obtain ⟨means, within⟩ := membersOf?_memberDocumentsOf?
        (fun entry member => rereads entry (Keyed.ofList_subset _ member))
        ofEntries
      rw [Document.value?, means, Document.depth, Document.depth]
      refine ⟨?_, Nat.succ_le_succ within⟩
      exact congrArg (fun entries => some (Value.object entries))
        (Keyed.increasing_ofList entries).ofList_eq

theorem valuesOf?_documentsOf? : (items : List Document) →
    {values : List Value} → valuesOf? items = some values →
    {written : List Document} → documentsOf? values = some written →
    valuesOf? written = some values ∧
      depthOfItems written ≤ depthOfItems items
  | [], _, read, written, known => by
      rw [valuesOf?] at read
      obtain rfl := Option.some.inj read
      rw [documentsOf?] at known
      obtain rfl := Option.some.inj known
      exact ⟨by rw [valuesOf?], Nat.le_refl _⟩
  | item :: items, _, read, written, known => by
      obtain ⟨value, values, ofItem, ofItems, rfl⟩ := valuesOf?_cons read
      obtain ⟨document, later, ofValue, ofValues, rfl⟩ :=
        documentsOf?_cons known
      obtain ⟨means, within⟩ := item.rereads ofItem document ofValue
      obtain ⟨meanLater, withinLater⟩ :=
        valuesOf?_documentsOf? items ofItems ofValues
      rw [valuesOf?, means, meanLater, depthOfItems, depthOfItems]
      exact ⟨rfl, by omega⟩

theorem membersOf?_rereads : (members : List (List TextUnit × Document)) →
    {entries : List (String × Value)} → membersOf? members = some entries →
    ∀ entry ∈ entries, entry.2.Rereads (depthOfMembers members)
  | [], _, read => by
      rw [membersOf?] at read
      obtain rfl := Option.some.inj read
      intro entry member
      cases member
  | (key, document) :: members, _, read => by
      obtain ⟨name, value, later, ofDocument, ofMembers, rfl⟩ :=
        membersOf?_cons read
      rw [depthOfMembers]
      intro entry member
      rcases List.mem_cons.1 member with rfl | member
      · exact (document.rereads ofDocument).mono (Nat.le_max_left _ _)
      · exact (membersOf?_rereads members ofMembers entry member).mono
          (Nat.le_max_right _ _)

end

end Json

end ProxyLint
