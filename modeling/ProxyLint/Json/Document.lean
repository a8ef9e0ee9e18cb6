/-!
# JSON as written

A document keeps everything that the text of a JSON value says: number
literals digit by digit, object members in order with repeated keys, and
escapes that name half of a surrogate pair.  Whether such a half or a huge
number is acceptable depends on who reads the document, so it is decided
later.
-/

namespace ProxyLint

namespace Json

/-- One character of a string literal.  An escape can name a surrogate, which
is no character by itself. -/
inductive TextUnit where
  | character (value : Char)
  | surrogate (code : Nat)
deriving DecidableEq, Repr

structure ExponentLiteral where
  negative : Bool
  digits : List Char
deriving DecidableEq, Repr

/-- A number literal cut into its parts.  The fraction is empty if the literal
has no decimal point. -/
structure NumberLiteral where
  negative : Bool
  whole : List Char
  fraction : List Char
  exponent : Option ExponentLiteral
deriving DecidableEq, Repr

inductive Document where
  | null
  | boolean (value : Bool)
  | number (literal : NumberLiteral)
  | text (units : List TextUnit)
  | array (items : List Document)
  | object (members : List (List TextUnit × Document))

def NumberLiteral.ofNat (value : Nat) : NumberLiteral where
  negative := false
  whole := Nat.toDigits 10 value
  fraction := []
  exponent := none

/-- The units of a text without surrogates. -/
def unitsOf (text : String) : List TextUnit :=
  text.toList.map .character

/-- The two halves of a surrogate pair give one character. -/
def joinSurrogates? (high low : Nat) : Option Char :=
  if 0xD800 ≤ high ∧ high ≤ 0xDBFF ∧ 0xDC00 ≤ low ∧ low ≤ 0xDFFF then
    some (Char.ofNat (0x10000 + (high - 0xD800) * 0x400 + (low - 0xDC00)))
  else none

/-- The characters of a string literal, if its surrogates are paired. -/
def charactersOf? : List TextUnit → Option (List Char)
  | [] => some []
  | .character value :: rest => (value :: ·) <$> charactersOf? rest
  | .surrogate high :: .surrogate low :: rest => do
      return (← joinSurrogates? high low) :: (← charactersOf? rest)
  | .surrogate _ :: _ => none

/-- The text of a string literal, if its surrogates are paired. -/
def textOf? (units : List TextUnit) : Option String :=
  String.ofList <$> charactersOf? units

@[simp]
theorem charactersOf?_map_character (characters : List Char) :
    charactersOf? (characters.map .character) = some characters := by
  induction characters with
  | nil => rfl
  | cons head tail ih => simp [charactersOf?, ih]

@[simp]
theorem textOf?_unitsOf (text : String) : textOf? (unitsOf text) = some text := by
  simp [textOf?, unitsOf]

end Json

end ProxyLint
