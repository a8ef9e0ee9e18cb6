/-!
# Blank characters

Separators between words, quoting of arguments and trimming of lists all use
one notion of a blank: the Unicode property White_Space, which has twenty-five
characters.  Zero-width spaces and the byte order mark are not blank.
-/

namespace ProxyLint

namespace Text

/-- The characters with the Unicode property White_Space. -/
def isBlank (character : Char) : Bool :=
  let code := character.toNat
  (9 ≤ code && code ≤ 13) || code == 0x20 || code == 0x85 || code == 0xA0 ||
    code == 0x1680 || (0x2000 ≤ code && code ≤ 0x200A) || code == 0x2028 ||
    code == 0x2029 || code == 0x202F || code == 0x205F || code == 0x3000

/-- A text with no character other than blanks, the empty text included. -/
def isBlankText (text : String) : Bool :=
  text.toList.all isBlank

/-- Drop the blanks at the start of a list of characters. -/
def dropBlanks (characters : List Char) : List Char :=
  characters.dropWhile isBlank

/-- Drop the blanks at both ends of a text. -/
def trim (text : String) : String :=
  String.ofList (dropBlanks (dropBlanks text.toList).reverse).reverse

theorem isBlank_of_isWhitespace {character : Char}
    (whitespace : character.isWhitespace = true) :
    isBlank character = true := by
  simp only [Char.isWhitespace, Bool.or_eq_true, decide_eq_true_eq] at whitespace
  rcases whitespace with ((rfl | rfl) | rfl) | rfl <;> rfl

end Text

end ProxyLint
