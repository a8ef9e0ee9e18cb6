/-!
# Characters named by their number

A character that must not be written as it is can be named by its number in
hexadecimal digits.  A text that goes to a terminal must not command it, so
the controls that can start or end a command are named there.
-/

namespace ProxyLint

namespace Text

def hexDigits (value : Nat) : List Char :=
  Nat.toDigits 16 value

/-- A character named by its number in braces. -/
def numberedCharacter (character : Char) : List Char :=
  '\\' :: 'u' :: '{' :: (hexDigits character.toNat ++ ['}'])

/-- A control of the ASCII range named by two hexadecimal digits. -/
def numberedControl (control : Char) : List Char :=
  let digits := hexDigits control.toNat
  '\\' :: 'x' :: (List.replicate (2 - digits.length) '0' ++ digits)

/-- The controls of the ASCII range with which a text can command a terminal:
bell, backspace, form feed, escape and delete. -/
def terminalControls : List Char :=
  ['\x07', '\x08', '\x0c', '\x1b', '\x7f']

/-- Whether a character is one of the controls behind the ASCII range. -/
def isLateControl (character : Char) : Bool :=
  0x80 ≤ character.toNat && character.toNat ≤ 0x9F

def terminalCharacter (character : Char) : List Char :=
  if terminalControls.contains character then numberedControl character
  else if isLateControl character then numberedCharacter character
  else [character]

def forTerminal (text : String) : String :=
  String.ofList (text.toList.flatMap terminalCharacter)

end Text

end ProxyLint
