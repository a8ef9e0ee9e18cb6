import ProxyLint.Json.Parser

/-!
# Reading documents

The tokens of a document bring the reader from a place where a value is
expected to one where the document is complete, whatever containers are open
around it.
-/

namespace ProxyLint

namespace Json

mutual

/-- The tokens that a document consists of. -/
def Document.tokens : Document → List Token
  | .null => [.null]
  | .boolean value => [.boolean value]
  | .number literal => [.number literal]
  | .text units => [.text units]
  | .array [] => [.openArray, .closeArray]
  | .array (item :: items) =>
      .openArray :: (item.tokens ++ (itemTokens items ++ [.closeArray]))
  | .object [] => [.openObject, .closeObject]
  | .object ((key, document) :: members) =>
      .openObject :: .text key :: .colon ::
        (document.tokens ++ (memberTokens members ++ [.closeObject]))

/-- Further items with the commas in front of them. -/
def itemTokens : List Document → List Token
  | [] => []
  | item :: items => .comma :: (item.tokens ++ itemTokens items)

/-- Further members with the commas in front of them. -/
def memberTokens : List (List TextUnit × Document) → List Token
  | [] => []
  | (key, document) :: members =>
      .comma :: .text key :: .colon :: (document.tokens ++ memberTokens members)

end

theorem Document.tokens_eq_cons (document : Document) :
    ∃ first rest, document.tokens = first :: rest ∧ first ≠ .closeArray := by
  cases document with
  | null => exact ⟨.null, [], by rw [tokens], by simp⟩
  | boolean value => exact ⟨.boolean value, [], by rw [tokens], by simp⟩
  | number literal => exact ⟨.number literal, [], by rw [tokens], by simp⟩
  | text units => exact ⟨.text units, [], by rw [tokens], by simp⟩
  | array items =>
      cases items with
      | nil => exact ⟨.openArray, _, by rw [tokens], by simp⟩
      | cons item items => exact ⟨.openArray, _, by rw [tokens], by simp⟩
  | object members =>
      cases members with
      | nil => exact ⟨.openObject, _, by rw [tokens], by simp⟩
      | cons member members => exact ⟨.openObject, _, by rw [tokens], by simp⟩

theorem Reader.step_firstItem {token : Token} (other : token ≠ .closeArray)
    (stack : List Frame) :
    step (.firstItem stack) token = step (.value (.items [] :: stack)) token := by
  cases token with
  | closeArray => exact absurd rfl other
  | _ => rfl

/-- The first item of an array is read like any other value. -/
theorem Reader.foldlM_firstItem (document : Document) (stack : List Frame) :
    document.tokens.foldlM Reader.step (.firstItem stack) =
      document.tokens.foldlM Reader.step (.value (.items [] :: stack)) := by
  obtain ⟨first, rest, tokens, other⟩ := document.tokens_eq_cons
  rw [tokens, List.foldlM_cons, List.foldlM_cons, step_firstItem other]

mutual

theorem Document.foldlM_tokens : (document : Document) →
    (stack : List Frame) →
    document.tokens.foldlM Reader.step (.value stack) =
      some (.complete stack document)
  | .null, stack => by rw [Document.tokens]; rfl
  | .boolean value, stack => by rw [Document.tokens]; rfl
  | .number literal, stack => by rw [Document.tokens]; rfl
  | .text units, stack => by rw [Document.tokens]; rfl
  | .array [], stack => by rw [Document.tokens]; rfl
  | .array (item :: items), stack => by
      have first := Reader.foldlM_firstItem item stack
      rw [item.foldlM_tokens] at first
      rw [Document.tokens, List.foldlM_cons]
      change (item.tokens ++
        (itemTokens items ++ [Token.closeArray])).foldlM
          Reader.step (.firstItem stack) = _
      rw [List.foldlM_append, first]
      exact foldlM_itemTokens items item [] stack
  | .object [], stack => by rw [Document.tokens]; rfl
  | .object ((key, document) :: members), stack => by
      have first := document.foldlM_tokens (.members [] key :: stack)
      rw [Document.tokens, List.foldlM_cons]
      change (document.tokens ++
        (memberTokens members ++ [Token.closeObject])).foldlM
          Reader.step (.value (.members [] key :: stack)) = _
      rw [List.foldlM_append, first]
      exact foldlM_memberTokens members key document [] stack

theorem foldlM_itemTokens : (items : List Document) → (document : Document) →
    (finished : List Document) → (stack : List Frame) →
    (itemTokens items ++ [Token.closeArray]).foldlM Reader.step
        (.complete (.items finished :: stack) document) =
      some (.complete stack (.array (finished.reverse ++ document :: items)))
  | [], document, finished, stack => by
      rw [itemTokens, ← List.reverse_cons]
      rfl
  | item :: items, document, finished, stack => by
      have first := item.foldlM_tokens (.items (document :: finished) :: stack)
      rw [itemTokens]
      change (item.tokens ++ itemTokens items ++ [Token.closeArray]).foldlM
        Reader.step (.value (.items (document :: finished) :: stack)) = _
      rw [List.append_assoc, List.foldlM_append, first]
      have rest := foldlM_itemTokens items item (document :: finished) stack
      rw [List.reverse_cons, List.append_assoc] at rest
      exact rest

theorem foldlM_memberTokens : (members : List (List TextUnit × Document)) →
    (key : List TextUnit) → (document : Document) →
    (finished : List (List TextUnit × Document)) → (stack : List Frame) →
    (memberTokens members ++ [Token.closeObject]).foldlM Reader.step
        (.complete (.members finished key :: stack) document) =
      some (.complete stack
        (.object (finished.reverse ++ (key, document) :: members)))
  | [], key, document, finished, stack => by
      rw [memberTokens, ← List.reverse_cons]
      rfl
  | (next, value) :: members, key, document, finished, stack => by
      have first := value.foldlM_tokens
        (.members ((key, document) :: finished) next :: stack)
      rw [memberTokens]
      change (value.tokens ++ memberTokens members ++ [Token.closeObject]).foldlM
        Reader.step
          (.value (.members ((key, document) :: finished) next :: stack)) = _
      rw [List.append_assoc, List.foldlM_append, first]
      have rest := foldlM_memberTokens members next value
        ((key, document) :: finished) stack
      rw [List.reverse_cons, List.append_assoc] at rest
      exact rest

end

/-- Every document is read from its tokens. -/
theorem Document.ofTokens?_tokens (document : Document) :
    ofTokens? document.tokens = some document := by
  rw [ofTokens?, Reader.start, document.foldlM_tokens []]
  rfl

end Json

end ProxyLint
