import ProxyLint.Json.Lexer

/-!
# Reading a JSON document

The reader is a pushdown automaton over tokens.  Its stack holds the arrays
and objects that are still open, so no text nests too deeply for it.  It
accepts exactly one value and nothing after it.
-/

namespace ProxyLint

namespace Json

/-- A container that is still open.  What it holds so far is kept last one
first, and an object knows the key whose value is being read. -/
inductive Frame where
  | items (finished : List Document)
  | members (finished : List (List TextUnit × Document)) (key : List TextUnit)

/-- What the reader expects next. -/
inductive Reader where
  | value (stack : List Frame)
  | firstItem (stack : List Frame)
  | firstKey (stack : List Frame)
  | nextKey (stack : List Frame) (finished : List (List TextUnit × Document))
  | colon (stack : List Frame) (finished : List (List TextUnit × Document))
      (key : List TextUnit)
  | complete (stack : List Frame) (document : Document)

namespace Reader

def start : Reader :=
  .value []

def stepValue (stack : List Frame) : Token → Option Reader
  | .null => some (.complete stack .null)
  | .boolean truth => some (.complete stack (.boolean truth))
  | .number literal => some (.complete stack (.number literal))
  | .text units => some (.complete stack (.text units))
  | .openArray => some (.firstItem stack)
  | .openObject => some (.firstKey stack)
  | _ => none

def step : Reader → Token → Option Reader
  | .value stack, token => stepValue stack token
  | .firstItem stack, .closeArray => some (.complete stack (.array []))
  | .firstItem stack, token => stepValue (.items [] :: stack) token
  | .firstKey stack, .closeObject => some (.complete stack (.object []))
  | .firstKey stack, .text key => some (.colon stack [] key)
  | .firstKey _, _ => none
  | .nextKey stack finished, .text key => some (.colon stack finished key)
  | .nextKey _ _, _ => none
  | .colon stack finished key, .colon =>
      some (.value (.members finished key :: stack))
  | .colon _ _ _, _ => none
  | .complete (.items finished :: stack) document, .comma =>
      some (.value (.items (document :: finished) :: stack))
  | .complete (.items finished :: stack) document, .closeArray =>
      some (.complete stack (.array (document :: finished).reverse))
  | .complete (.members finished key :: stack) document, .comma =>
      some (.nextKey stack ((key, document) :: finished))
  | .complete (.members finished key :: stack) document, .closeObject =>
      some (.complete stack (.object ((key, document) :: finished).reverse))
  | .complete _ _, _ => none

def finish : Reader → Option Document
  | .complete [] document => some document
  | _ => none

end Reader

namespace Document

def ofTokens? (tokens : List Token) : Option Document := do
  (← tokens.foldlM Reader.step Reader.start).finish

def parse? (text : String) : Option Document := do
  ofTokens? (← tokens? text.toList)

end Document

end Json

end ProxyLint
