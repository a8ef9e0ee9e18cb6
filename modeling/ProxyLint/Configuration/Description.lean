import ProxyLint.Configuration.Written
import ProxyLint.Text.Escape
import ProxyLint.Text.Search
import ProxyLint.Text.Visibility

/-!
# Descriptions of directives

A description shows the fields of a directive for people who look for faults
in the linter itself.  Texts are quoted, and characters that cannot be shown
are named by their number.
-/

namespace ProxyLint

namespace Text

/-- A character inside a quoted text. -/
def quotedCharacter (character : Char) : List Char :=
  if character = '\x00' then ['\\', '0']
  else if character = '\t' then ['\\', 't']
  else if character = '\r' then ['\\', 'r']
  else if character = '\n' then ['\\', 'n']
  else if character = '"' then ['\\', '"']
  else if character = '\\' then ['\\', '\\']
  else if isShowable character then [character]
  else numberedCharacter character

def quoted (text : String) : String :=
  String.ofList ('"' :: (text.toList.flatMap quotedCharacter ++ ['"']))

end Text

namespace ConfigTree

/-- The number, name, arguments and line of a directive. -/
def description (tree : ConfigTree) (id : Nat) : String :=
  let arguments := Text.joined ", " ((tree.arguments id).map Text.quoted)
  s!"Directive \x7b id: NodeId({id}), name: {Text.quoted (tree.name id)}, " ++
  s!"args: [{arguments}], line: {writtenLine (tree.line id)} \x7d"

end ConfigTree

end ProxyLint
