import ProxyLint.Json.Number
import ProxyLint.Text.Keyed

/-!
# JSON values

A value is what a document means to a strict reader: strings are texts,
numbers are numbers, and an object has its keys in increasing order without
repetition.  Of several members with one key the last one counts.  Values are
also what the program writes, with members in the order it puts them.
-/

namespace ProxyLint

namespace Json

inductive Value where
  | null
  | boolean (value : Bool)
  | number (value : Number)
  | text (value : String)
  | array (items : List Value)
  | object (members : List (String × Value))
deriving Inhabited

mutual

/-- The value of a document, if its strings and numbers are acceptable. -/
def Document.value? : Document → Option Value
  | .null => some .null
  | .boolean value => some (.boolean value)
  | .number literal => .number <$> literal.number?
  | .text units => .text <$> textOf? units
  | .array items => .array <$> valuesOf? items
  | .object members => do return .object (Keyed.ofList (← membersOf? members))

def valuesOf? : List Document → Option (List Value)
  | [] => some []
  | item :: items => do return (← item.value?) :: (← valuesOf? items)

def membersOf? :
    List (List TextUnit × Document) → Option (List (String × Value))
  | [] => some []
  | (key, document) :: members => do
      return (← textOf? key, ← document.value?) :: (← membersOf? members)

end

mutual

/-- How many containers are open at the innermost place of a document. -/
def Document.depth : Document → Nat
  | .array items => depthOfItems items + 1
  | .object members => depthOfMembers members + 1
  | _ => 0

def depthOfItems : List Document → Nat
  | [] => 0
  | item :: items => max item.depth (depthOfItems items)

def depthOfMembers : List (List TextUnit × Document) → Nat
  | [] => 0
  | (_, document) :: members => max document.depth (depthOfMembers members)

end

end Json

end ProxyLint
