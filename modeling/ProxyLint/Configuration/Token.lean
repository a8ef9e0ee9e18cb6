/-!
# Tokens of a configuration

A configuration is a sequence of words, semicolons and braces.  Every token
remembers the line on which it starts, counted from one.  The module also
names the five ways in which a configuration can be malformed.
-/

namespace ProxyLint

inductive Token where
  | word (text : String)
  | semicolon
  | opening
  | closing
deriving DecidableEq, Repr

structure LocatedToken where
  token : Token
  line : Nat
deriving DecidableEq, Repr

inductive ParseFault where
  | unexpectedClose
  | unclosedBlock
  | missingSemicolon
  | emptyDirective
  | unterminatedQuote
deriving DecidableEq, Repr

structure ParseError where
  fault : ParseFault
  line : Nat
deriving DecidableEq, Repr

namespace ParseFault

/-- The wording of a fault, without its line. -/
def description : ParseFault → String
  | unexpectedClose => "unexpected \"\x7d\""
  | unclosedBlock => "block is never closed"
  | missingSemicolon => "directive is not terminated by \";\""
  | emptyDirective => "empty directive"
  | unterminatedQuote => "unterminated quoted string"

end ParseFault

namespace ParseError

def message (error : ParseError) : String :=
  s!"Line {error.line}: {error.fault.description}"

end ParseError

end ProxyLint
