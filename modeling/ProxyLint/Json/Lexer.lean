import ProxyLint.Json.Document

/-!
# JSON tokens

The lexer reads one character at a time.  Everything between punctuation,
blanks and quotes is a bare run, which must spell a number, a truth value or
null.  Only four characters are blank in JSON.
-/

namespace ProxyLint

namespace Json

inductive Token where
  | openArray
  | closeArray
  | openObject
  | closeObject
  | colon
  | comma
  | null
  | boolean (value : Bool)
  | number (literal : NumberLiteral)
  | text (units : List TextUnit)
deriving DecidableEq, Repr

def isBlank (character : Char) : Bool :=
  character = ' ' || character = '\n' || character = '\r' || character = '\t'

/-- A whole part has a leading zero only if it is zero. -/
def isWholePart : List Char → Bool
  | [] => false
  | [_] => true
  | head :: _ => head != '0'

/-- The exponent of a number literal, from the letter on. -/
def exponentLiteral? : List Char → Option (Option ExponentLiteral)
  | [] => some none
  | letter :: rest =>
      if letter = 'e' ∨ letter = 'E' then
        let (negative, digits) :=
          match rest with
          | '-' :: digits => (true, digits)
          | '+' :: digits => (false, digits)
          | digits => (false, digits)
        if digits.isEmpty || !digits.all Char.isDigit then none
        else some (some ⟨negative, digits⟩)
      else none

/-- What follows the whole part of a number literal. -/
def fractionLiteral? (negative : Bool) (whole : List Char) :
    List Char → Option NumberLiteral
  | '.' :: rest =>
      let fraction := rest.takeWhile Char.isDigit
      if fraction.isEmpty then none
      else do
        return ⟨negative, whole, fraction,
          ← exponentLiteral? (rest.dropWhile Char.isDigit)⟩
  | rest => do
      return ⟨negative, whole, [], ← exponentLiteral? rest⟩

def unsignedLiteral? (negative : Bool) (characters : List Char) :
    Option NumberLiteral :=
  let whole := characters.takeWhile Char.isDigit
  if isWholePart whole then
    fractionLiteral? negative whole (characters.dropWhile Char.isDigit)
  else none

def numberLiteral? : List Char → Option NumberLiteral
  | '-' :: rest => unsignedLiteral? true rest
  | characters => unsignedLiteral? false characters

/-- The token that a bare run of characters spells. -/
def bareToken? (characters : List Char) : Option Token :=
  if characters = ['n', 'u', 'l', 'l'] then some .null
  else if characters = ['t', 'r', 'u', 'e'] then some (.boolean true)
  else if characters = ['f', 'a', 'l', 's', 'e'] then some (.boolean false)
  else .number <$> numberLiteral? characters

/-- The value of a hexadecimal digit in either case. -/
def hexValue? (character : Char) : Option Nat :=
  if character.isDigit then some (character.toNat - '0'.toNat)
  else if 'a' ≤ character ∧ character ≤ 'f' then
    some (character.toNat - 'a'.toNat + 10)
  else if 'A' ≤ character ∧ character ≤ 'F' then
    some (character.toNat - 'A'.toNat + 10)
  else none

/-- The unit that four hexadecimal digits name. -/
def unitOfCode (code : Nat) : TextUnit :=
  if 0xD800 ≤ code ∧ code ≤ 0xDFFF then .surrogate code
  else .character (Char.ofNat code)

/-- What the lexer is in the middle of.  Unfinished runs and strings are kept
last character first. -/
inductive LexerMode where
  | between
  | bare (run : List Char)
  | text (units : List TextUnit)
  | escape (units : List TextUnit)
  | hex (units : List TextUnit) (code : Nat) (digitsRead : Nat)
deriving DecidableEq, Repr

structure Lexer where
  mode : LexerMode
  /-- The tokens read so far, last one first. -/
  tokens : List Token
deriving DecidableEq, Repr

namespace Lexer

def start : Lexer where
  mode := .between
  tokens := []

def punctuation? : Char → Option Token
  | '[' => some .openArray
  | ']' => some .closeArray
  | '{' => some .openObject
  | '}' => some .closeObject
  | ':' => some .colon
  | ',' => some .comma
  | _ => none

/-- The characters that no bare run contains. -/
def endsRun (character : Char) : Bool :=
  isBlank character || character = '"' || (punctuation? character).isSome

def stepBetween (lexer : Lexer) (character : Char) : Lexer :=
  if isBlank character then { lexer with mode := .between }
  else if character = '"' then { lexer with mode := .text [] }
  else
    match punctuation? character with
    | some token => ⟨.between, token :: lexer.tokens⟩
    | none => { lexer with mode := .bare [character] }

/-- The character that a one-letter escape stands for. -/
def escaped? : Char → Option Char
  | '"' => some '"'
  | '\\' => some '\\'
  | '/' => some '/'
  | 'b' => some '\x08'
  | 'f' => some '\x0c'
  | 'n' => some '\n'
  | 'r' => some '\r'
  | 't' => some '\t'
  | _ => none

def step (lexer : Lexer) (character : Char) : Option Lexer :=
  match lexer.mode with
  | .between => some (lexer.stepBetween character)
  | .bare run =>
      if endsRun character then do
        let token ← bareToken? run.reverse
        return { lexer with tokens := token :: lexer.tokens }.stepBetween
          character
      else some { lexer with mode := .bare (character :: run) }
  | .text units =>
      if character = '"' then
        some ⟨.between, .text units.reverse :: lexer.tokens⟩
      else if character = '\\' then some { lexer with mode := .escape units }
      else if character.toNat < 0x20 then none
      else some { lexer with mode := .text (.character character :: units) }
  | .escape units =>
      if character = 'u' then some { lexer with mode := .hex units 0 0 }
      else do
        let value ← escaped? character
        return { lexer with mode := .text (.character value :: units) }
  | .hex units code digitsRead => do
      let next := code * 16 + (← hexValue? character)
      if digitsRead = 3 then
        return { lexer with mode := .text (unitOfCode next :: units) }
      else
        return { lexer with mode := .hex units next (digitsRead + 1) }

def finish (lexer : Lexer) : Option (List Token) :=
  match lexer.mode with
  | .between => some lexer.tokens.reverse
  | .bare run => do
      return (← bareToken? run.reverse) :: lexer.tokens |>.reverse
  | .text _ | .escape _ | .hex _ _ _ => none

end Lexer

def tokens? (text : List Char) : Option (List Token) := do
  (← text.foldlM Lexer.step Lexer.start).finish

end Json

end ProxyLint
