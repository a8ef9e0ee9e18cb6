import ProxyLint.Text.Search

/-!
# Proxy targets

The first argument of a proxy directive, or of a server in a group, names a
host between an optional scheme and an optional port.  A target that mentions
a Unix socket names no host, and neither does one that starts with a character
which no host contains.
-/

namespace ProxyLint

inductive TargetFault where
  | unixSocket
  | unrecognized
deriving DecidableEq, Repr

structure ProxyTarget where
  scheme : Option String
  /-- The host as written, with variables and brackets. -/
  host : String
  port : Option String
deriving DecidableEq, Repr

namespace TargetFault

def message : TargetFault → String
  | unixSocket => "unix socket target"
  | unrecognized => "unrecognized target"

end TargetFault

namespace ProxyTarget

/-- The characters that end a host. -/
def endsHost (character : Char) : Bool :=
  character = '/' || character = '?' || character = '#' || character = ':'

def isSchemeStart (character : Char) : Bool :=
  'a' ≤ character && character ≤ 'z'

def isSchemeCharacter (character : Char) : Bool :=
  isSchemeStart character || character.isDigit || character = '+' ||
    character = '.' || character = '-'

def isBracketedCharacter (character : Char) : Bool :=
  character.isDigit || ('a' ≤ character && character ≤ 'f') ||
    ('A' ≤ character && character ≤ 'F') || character = ':' || character = '.'

/-- A bracketed address at the start of a text, and what follows it. -/
def bracketedHost? : List Char → Option (List Char × List Char)
  | '[' :: rest =>
      let inside := rest.takeWhile isBracketedCharacter
      match rest.dropWhile isBracketedCharacter with
      | ']' :: after =>
          if inside.isEmpty then none
          else some ('[' :: (inside ++ [']']), after)
      | _ => none
  | _ => none

/-- The host at the start of a text, and what follows it. -/
def hostAt? (text : List Char) : Option (List Char × List Char) :=
  match bracketedHost? text with
  | some found => some found
  | none =>
      let host := text.takeWhile fun character => !endsHost character
      if host.isEmpty then none
      else some (host, text.dropWhile fun character => !endsHost character)

/-- The digits after a colon at the start of a text. -/
def portAt? : List Char → Option (List Char)
  | ':' :: rest =>
      let digits := rest.takeWhile Char.isDigit
      if digits.isEmpty then none else some digits
  | _ => none

/-- The scheme at the start of a text, and what follows its mark. -/
def schemeAt? (text : List Char) : Option (List Char × List Char) :=
  if text.head?.any isSchemeStart then
    match text.dropWhile isSchemeCharacter with
    | ':' :: '/' :: '/' :: rest =>
        some (text.takeWhile isSchemeCharacter, rest)
    | _ => none
  else none

def withoutScheme? (text : List Char) : Option ProxyTarget := do
  let (host, rest) ← hostAt? text
  return {
    scheme := none
    host := String.ofList host
    port := String.ofList <$> portAt? rest }

/-- A scheme counts only if a host follows it. -/
def ofCharacters? (text : List Char) : Option ProxyTarget :=
  match schemeAt? text with
  | none => withoutScheme? text
  | some (scheme, rest) =>
      match withoutScheme? rest with
      | some target => some { target with scheme := some (String.ofList scheme) }
      | none => withoutScheme? text

/-- Cut a target into scheme, host and port. -/
def extract (raw : String) : Except TargetFault ProxyTarget :=
  if Text.occurs ['u', 'n', 'i', 'x', ':'] raw.toList then .error .unixSocket
  else
    match ofCharacters? raw.toList with
    | some target => .ok target
    | none => .error .unrecognized

end ProxyTarget

end ProxyLint
