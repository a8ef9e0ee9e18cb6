import ProxyLint.Configuration.Tree
import ProxyLint.Text.Blank

/-!
# The written form of a directive

Findings and log lines quote a directive on one line.  Arguments that could
not stand bare are put into double quotes, and a block ends with its opening
brace.  Backslashes are copied as they are.
-/

namespace ProxyLint

/-- The characters that end a word or a directive. -/
def isDelimiter (character : Char) : Bool :=
  Text.isBlank character || character = ';' || character = '{' ||
    character = '}'

/-- Put a backslash before every double quote. -/
def escapeQuotes : List Char → List Char
  | [] => []
  | character :: rest =>
      if character = '"' then '\\' :: '"' :: escapeQuotes rest
      else character :: escapeQuotes rest

def needsQuotes (argument : List Char) : Bool :=
  argument.isEmpty || argument.any isDelimiter

/-- An argument as it follows the name of its directive. -/
def writtenArgument (argument : List Char) : List Char :=
  if needsQuotes argument then
    ' ' :: '"' :: (escapeQuotes argument ++ ['"'])
  else ' ' :: argument

/-- An optional line as log entries and descriptions show it. -/
def writtenLine : Option Nat → String
  | some line => s!"Some({line})"
  | none => "None"

namespace ConfigTree

/-- A directive on one line, ending with a semicolon or an opening brace. -/
def written (tree : ConfigTree) (id : Nat) : String :=
  String.ofList
    ((tree.name id).toList ++
      (tree.arguments id).flatMap (fun argument =>
        writtenArgument argument.toList) ++
      if tree.isBlock id then [' ', '{'] else [';'])

end ConfigTree

end ProxyLint
