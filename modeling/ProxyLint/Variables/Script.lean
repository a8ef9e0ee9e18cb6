/-!
# Scripts

An argument may mention variables, either with a bare name after the dollar
sign or with a name in braces.  A script is such an argument cut into literal
fragments and variables.  A bare name that starts with a digit is that digit
alone, because captures are numbered from one to nine.
-/

namespace ProxyLint

inductive ScriptFault where
  | unterminatedVariable
  | invalidName
deriving DecidableEq, Repr

structure ScriptError where
  fault : ScriptFault
  /-- The text that was to be read as a script. -/
  text : String
deriving DecidableEq, Repr

inductive Segment where
  | literal (text : String)
  | variable (name : String)
deriving DecidableEq, Repr

namespace ScriptError

def message (error : ScriptError) : String :=
  match error.fault with
  | .unterminatedVariable => s!"unterminated variable in \"{error.text}\""
  | .invalidName => s!"invalid variable name in \"{error.text}\""

end ScriptError

namespace Script

def isNameCharacter (character : Char) : Bool :=
  character.isAlphanum || character = '_'

def isName (name : List Char) : Bool :=
  !name.isEmpty && name.all isNameCharacter

/-- The name after a dollar sign, and what follows the variable. -/
def nameAt : List Char → Except ScriptFault (List Char × List Char)
  | '{' :: rest =>
      match rest.dropWhile (· != '}') with
      | [] => .error .unterminatedVariable
      | _ :: after =>
          if isName (rest.takeWhile (· != '}')) then
            .ok (rest.takeWhile (· != '}'), after)
          else .error .invalidName
  | rest =>
      if rest.head?.any Char.isDigit then .ok (rest.take 1, rest.drop 1)
      else if (rest.takeWhile isNameCharacter).isEmpty then .error .invalidName
      else .ok (rest.takeWhile isNameCharacter, rest.dropWhile isNameCharacter)

theorem length_dropWhile_le {α : Type} (test : α → Bool) (list : List α) :
    (list.dropWhile test).length ≤ list.length :=
  (List.dropWhile_sublist test).length_le

theorem length_le_of_nameAt {text name after : List Char}
    (found : nameAt text = .ok (name, after)) :
    after.length ≤ text.length := by
  unfold nameAt at found
  split at found
  · next rest =>
    split at found
    · cases found
    · next closing tail dropped =>
      split at found
      · cases found
        have bound := length_dropWhile_le (· != '}') rest
        rw [dropped] at bound
        simp only [List.length_cons] at bound ⊢
        omega
      · cases found
  · split at found
    · cases found
      simp
    · split at found
      · cases found
      · cases found
        exact length_dropWhile_le ..

/-- The pending literal fragment, last character first, as a segment. -/
def flush (fragment : List Char) (segments : List Segment) : List Segment :=
  if fragment.isEmpty then segments
  else .literal (String.ofList fragment.reverse) :: segments

/-- Cut the rest of a text into segments behind a pending literal fragment. -/
def split (fragment : List Char) (text : List Char) :
    Except ScriptFault (List Segment) :=
  match text with
  | [] => .ok (flush fragment [])
  | '$' :: rest =>
      match found : nameAt rest with
      | .error fault => .error fault
      | .ok (name, after) =>
          have := length_le_of_nameAt found
          (fun segments =>
            flush fragment (.variable (String.ofList name) :: segments)) <$>
            split [] after
  | character :: rest => split (character :: fragment) rest
termination_by text.length

end Script

def segments (text : String) : Except ScriptError (List Segment) :=
  match Script.split [] text.toList with
  | .ok segments => .ok segments
  | .error fault => .error ⟨fault, text⟩

end ProxyLint
