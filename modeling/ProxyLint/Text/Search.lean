/-!
# Pieces of a text

Cutting a text at a separator, looking for a pattern inside it, and letter
case.  Only the twenty-six ASCII letters have a case here, because host names,
variable names and option values are compared that way.
-/

namespace ProxyLint

namespace Text

/-- Replace the capital ASCII letters of a text by small ones. -/
def lowerAscii (text : String) : String :=
  String.ofList (text.toList.map Char.toLower)

/-- The pieces between the occurrences of a separator.  There is always one
piece more than there are separators. -/
def pieces (separator : Char) : List Char → List (List Char)
  | [] => [[]]
  | character :: rest =>
      if character = separator then
        [] :: pieces separator rest
      else
        match pieces separator rest with
        | [] => [[character]]
        | piece :: others => (character :: piece) :: others

/-- Whether the pattern stands somewhere in the text. -/
def occurs (pattern : List Char) : List Char → Bool
  | [] => pattern.isEmpty
  | character :: rest =>
      pattern.isPrefixOf (character :: rest) || occurs pattern rest

/-- Put a separator between the members of a list of texts. -/
def joined (separator : String) (texts : List String) : String :=
  separator.intercalate texts

end Text

end ProxyLint
