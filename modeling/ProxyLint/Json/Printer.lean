import ProxyLint.Json.Value

/-!
# Writing JSON

A value has a compact form without blanks and a form with one item a line,
indented by two spaces a level.  Strings escape the quote, the backslash and
the control characters, and nothing else.
-/

namespace ProxyLint

namespace Json

def hexDigit (value : Nat) : Char :=
  Char.ofNat (if value < 10 then '0'.toNat + value else 'a'.toNat + value - 10)

/-- A character inside a string literal. -/
def writtenCharacter (character : Char) : List Char :=
  if character = '"' then ['\\', '"']
  else if character = '\\' then ['\\', '\\']
  else if character = '\x08' then ['\\', 'b']
  else if character = '\x0c' then ['\\', 'f']
  else if character = '\n' then ['\\', 'n']
  else if character = '\r' then ['\\', 'r']
  else if character = '\t' then ['\\', 't']
  else if character.toNat < 0x20 then
    ['\\', 'u', '0', '0', hexDigit (character.toNat / 16),
      hexDigit (character.toNat % 16)]
  else [character]

def writtenText (text : String) : List Char :=
  '"' :: (text.toList.flatMap writtenCharacter ++ ['"'])

def writtenBoolean (value : Bool) : List Char :=
  if value then ['t', 'r', 'u', 'e'] else ['f', 'a', 'l', 's', 'e']

mutual

/-- The form without blanks. -/
def Value.compact : Value → List Char
  | .null => ['n', 'u', 'l', 'l']
  | .boolean value => writtenBoolean value
  | .number value => value.written
  | .text value => writtenText value
  | .array [] => ['[', ']']
  | .array (item :: items) =>
      '[' :: (item.compact ++ compactItems items ++ [']'])
  | .object [] => ['{', '}']
  | .object ((key, value) :: members) =>
      '{' :: (writtenText key ++ ':' :: value.compact ++
        compactMembers members ++ ['}'])

def compactItems : List Value → List Char
  | [] => []
  | item :: items => ',' :: (item.compact ++ compactItems items)

def compactMembers : List (String × Value) → List Char
  | [] => []
  | (key, value) :: members =>
      ',' :: (writtenText key ++ ':' :: value.compact ++ compactMembers members)

end

/-- A new line with the indentation of a level. -/
def newLine (level : Nat) : List Char :=
  '\n' :: List.replicate (2 * level) ' '

mutual

/-- The form with one item a line, inside containers of the given number. -/
def Value.indented (level : Nat) : Value → List Char
  | .null => ['n', 'u', 'l', 'l']
  | .boolean value => writtenBoolean value
  | .number value => value.written
  | .text value => writtenText value
  | .array [] => ['[', ']']
  | .array (item :: items) =>
      '[' :: (newLine (level + 1) ++ item.indented (level + 1) ++
        indentedItems (level + 1) items ++ newLine level ++ [']'])
  | .object [] => ['{', '}']
  | .object ((key, value) :: members) =>
      '{' :: (newLine (level + 1) ++ writtenText key ++ ':' :: ' ' ::
        value.indented (level + 1) ++ indentedMembers (level + 1) members ++
        newLine level ++ ['}'])

def indentedItems (level : Nat) : List Value → List Char
  | [] => []
  | item :: items =>
      ',' :: (newLine level ++ item.indented level ++ indentedItems level items)

def indentedMembers (level : Nat) : List (String × Value) → List Char
  | [] => []
  | (key, value) :: members =>
      ',' :: (newLine level ++ writtenText key ++ ':' :: ' ' ::
        value.indented level ++ indentedMembers level members)

end

namespace Value

def render (value : Value) : String :=
  String.ofList value.compact

def renderIndented (value : Value) : String :=
  String.ofList (value.indented 0)

end Value

end Json

end ProxyLint
