import ProxyLint.Configuration.Token
import ProxyLint.Text.Blank

/-!
# Reading tokens

The lexer reads a configuration one character at a time.  Its state is the
current line, the tokens read so far and what it is in the middle of.  Only a
quoted word that never ends makes a text unreadable, so a step cannot fail.
-/

namespace ProxyLint

/-- What the lexer is in the middle of.  The characters of an unfinished word
are kept last one first. -/
inductive LexerMode where
  | between
  | comment
  | quoted (quote : Char) (startLine : Nat) (word : List Char)
  | escaped (quote : Char) (startLine : Nat) (word : List Char)
  | bare (word : List Char)
  | braced (word : List Char)
deriving DecidableEq, Repr

structure Lexer where
  line : Nat
  mode : LexerMode
  /-- The tokens read so far, last one first. -/
  tokens : List LocatedToken
deriving DecidableEq, Repr

namespace Lexer

def start : Lexer where
  line := 1
  mode := .between
  tokens := []

def emit (lexer : Lexer) (token : Token) (line : Nat) : Lexer :=
  { lexer with mode := .between, tokens := ⟨token, line⟩ :: lexer.tokens }

def emitWord (lexer : Lexer) (word : List Char) (line : Nat) : Lexer :=
  lexer.emit (.word (String.ofList word.reverse)) line

/-- A newline starts a new line, every other character stays on the line. -/
def countLine (lexer : Lexer) (character : Char) : Lexer :=
  if character = '\n' then { lexer with line := lexer.line + 1 } else lexer

/-- Read a character that is not inside a word, a quote or a comment. -/
def stepBetween (lexer : Lexer) (character : Char) : Lexer :=
  if Text.isBlank character then lexer.countLine character
  else match character with
    | '#' => { lexer with mode := .comment }
    | ';' => lexer.emit .semicolon lexer.line
    | '{' => lexer.emit .opening lexer.line
    | '}' => lexer.emit .closing lexer.line
    | '"' => { lexer with mode := .quoted '"' lexer.line [] }
    | '\'' => { lexer with mode := .quoted '\'' lexer.line [] }
    | _ => { lexer with mode := .bare [character] }

/-- A bare word ends before a blank, a semicolon or a brace.  Only the opening
brace right after a dollar sign belongs to the word. -/
def endsBareWord (word : List Char) (character : Char) : Bool :=
  Text.isBlank character || character = ';' || character = '}' ||
    (character = '{' && word.head? != some '$')

def step (lexer : Lexer) (character : Char) : Lexer :=
  match lexer.mode with
  | .between => lexer.stepBetween character
  | .comment =>
      if character = '\n' then
        { lexer with mode := .between, line := lexer.line + 1 }
      else lexer
  | .quoted quote startLine word =>
      if character = quote then lexer.emitWord word startLine
      else if character = '\\' then
        { lexer with mode := .escaped quote startLine word }
      else
        { lexer.countLine character with
          mode := .quoted quote startLine (character :: word) }
  | .escaped quote startLine word =>
      if character = quote ∨ character = '\\' then
        { lexer with mode := .quoted quote startLine (character :: word) }
      else
        { lexer.countLine character with
          mode := .quoted quote startLine (character :: '\\' :: word) }
  | .bare word =>
      if endsBareWord word character then
        (lexer.emitWord word lexer.line).stepBetween character
      else if character = '{' then
        { lexer with mode := .braced (character :: word) }
      else
        { lexer with mode := .bare (character :: word) }
  | .braced word =>
      if character = '\n' then
        (lexer.emitWord word lexer.line).stepBetween character
      else if character = '}' then
        { lexer with mode := .bare (character :: word) }
      else
        { lexer with mode := .braced (character :: word) }

def finish (lexer : Lexer) : Except ParseError (List LocatedToken) :=
  match lexer.mode with
  | .between | .comment => .ok lexer.tokens.reverse
  | .quoted _ startLine _ | .escaped _ startLine _ =>
      .error ⟨.unterminatedQuote, startLine⟩
  | .bare word | .braced word =>
      .ok (lexer.emitWord word lexer.line).tokens.reverse

end Lexer

def tokens (text : String) : Except ParseError (List LocatedToken) :=
  (text.toList.foldl Lexer.step Lexer.start).finish

end ProxyLint
