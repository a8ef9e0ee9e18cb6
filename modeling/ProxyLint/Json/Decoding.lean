import ProxyLint.Json.Value

/-!
# Decoding documents

A record is read from an object, or from an array that gives its fields in
order.  Members with other keys are ignored whatever they hold, but a field
must not be given twice and every key must be a proper text.  An enumerated
value is its name, or an object with the name as its only key and null under
it.
-/

namespace ProxyLint

namespace Json

namespace Document

def text? : Document → Option String
  | .text units => textOf? units
  | _ => none

/-- A natural number that is written as an integer and fits 64 bits. -/
def natural? : Document → Option Nat
  | .number literal => literal.natural?
  | _ => none

/-- An optional value, null if it is absent. -/
def nullable? {α : Type} (decode : Document → Option α) :
    Document → Option (Option α)
  | .null => some none
  | document => some <$> decode document

def list? {α : Type} (decode : Document → Option α) :
    Document → Option (List α)
  | .array items => items.mapM decode
  | _ => none

/-- The name of an enumerated value. -/
def choice? : Document → Option String
  | .text units => textOf? units
  | .object [(key, .null)] => textOf? key
  | _ => none

/-- The members of an object with their keys as texts. -/
def keyed? (members : List (List TextUnit × Document)) :
    Option (List (String × Document)) :=
  members.mapM fun member => do return (← textOf? member.1, member.2)

/-- The value under a key, unless the key occurs twice. -/
def unique? (key : String) (members : List (String × Document)) :
    Option (Option Document) :=
  match members.filter fun member => member.1 == key with
  | [] => some none
  | [member] => some (some member.2)
  | _ => none

/-- The fields of a record in the order of their names.  A field may be
missing. -/
def fields? (names : List String) : Document → Option (List (Option Document))
  | .array items =>
      if items.length ≤ names.length then
        some (items.map some ++
          List.replicate (names.length - items.length) none)
      else none
  | .object members => do
      let members ← keyed? members
      names.mapM fun name => unique? name members
  | _ => none

/-- A field that must be given. -/
def required? {α : Type} (decode : Document → Option α)
    (field : Option Document) : Option α :=
  field.bind decode

/-- A field with a default value. -/
def optional? {α : Type} (decode : Document → Option α) (default : α)
    (field : Option Document) : Option α :=
  match field with
  | none => some default
  | some document => decode document

end Document

end Json

end ProxyLint
