import ProxyLint.Text.Search

/-!
# Addresses

A host that is an address is never looked up by name.  The module recognises
addresses of version four in dotted decimal form and of version six in every
form of their text: full, compressed once by two colons, and with the last two
groups written as an address of version four.
-/

namespace ProxyLint

namespace Host

/-- The number that decimal digits stand for. -/
def decimalValue (digits : List Char) : Nat :=
  digits.foldl
    (fun value digit => value * 10 + (digit.toNat - '0'.toNat)) 0

/-- A number of at most 255 in one to three digits without a leading zero. -/
def isOctet (text : List Char) : Bool :=
  !text.isEmpty && text.all Char.isDigit && text.length ≤ 3 &&
    (text.length == 1 || text.head? != some '0') && decimalValue text ≤ 255

/-- An address of version four: four octets between dots. -/
def isVersionFour (text : List Char) : Bool :=
  let octets := Text.pieces '.' text
  octets.length == 4 && octets.all isOctet

/-- Remove a port behind the only colon of a text. -/
def withoutPort (text : List Char) : List Char :=
  match Text.pieces ':' text with
  | [address, port] => if port.all Char.isDigit then address else text
  | _ => text

def isHexDigit (character : Char) : Bool :=
  character.isDigit || ('a' ≤ character && character ≤ 'f') ||
    ('A' ≤ character && character ≤ 'F')

/-- One to four hexadecimal digits. -/
def isGroup (text : List Char) : Bool :=
  !text.isEmpty && text.length ≤ 4 && text.all isHexDigit

/-- The texts between colons, none if the text is empty. -/
def groups (text : List Char) : List (List Char) :=
  if text.isEmpty then [] else Text.pieces ':' text

/-- How many groups a list of texts stands for.  The last one may be an address
of version four, which counts twice. -/
def groupCount? : List (List Char) → Option Nat
  | [] => some 0
  | [last] =>
      if isGroup last then some 1
      else if isVersionFour last then some 2
      else none
  | group :: rest =>
      if isGroup group then (· + 1) <$> groupCount? rest else none

/-- Cut a text at the first pair of colons. -/
def cutAtCompression : List Char → Option (List Char × List Char)
  | [] => none
  | ':' :: ':' :: rest => some ([], rest)
  | character :: rest =>
      (cutAtCompression rest).map fun (before, after) =>
        (character :: before, after)

/-- An address of version six: eight groups, or at most seven of them around
the place where groups of zero are left out. -/
def isVersionSix (text : List Char) : Bool :=
  match cutAtCompression text with
  | none => groupCount? (groups text) == some 8
  | some (before, after) =>
      (groups before).all isGroup &&
        (groupCount? (groups after)).any fun count =>
          (groups before).length + count ≤ 7

def withoutBrackets (text : List Char) : List Char :=
  match text with
  | '[' :: rest =>
      if rest.getLast? = some ']' then rest.dropLast else text
  | _ => text

end Host

/-- An address of version four, with a port if one is allowed. -/
def isIpv4 (host : String) (allowPort : Bool) : Bool :=
  Host.isVersionFour
    (if allowPort then Host.withoutPort host.toList else host.toList)

/-- An address of version six, in brackets if these are allowed. -/
def isIpv6 (host : String) (allowBrackets : Bool) : Bool :=
  Host.isVersionSix
    (if allowBrackets then Host.withoutBrackets host.toList else host.toList)

/-- An address of either version with the trimmings that a target may have. -/
def isAddress (host : String) : Bool :=
  isIpv6 host true || isIpv4 host true

end ProxyLint
