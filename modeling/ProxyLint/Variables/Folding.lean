import ProxyLint.Configuration.Scope
import ProxyLint.Variables.Builtin
import ProxyLint.Variables.Script

/-!
# Folding variables

A variable is known when the configuration is loaded if a `set` directive in
an enclosing block assigns it a value that is itself known.  The nearest block
wins, and inside one block the last assignment.  The value is seen from its
own assignment.  Request variables, captures and everything else are unknown.

Chains of assignments are followed through at most eight variables, and a
variable is unknown while its own value is being worked out.
-/

namespace ProxyLint

namespace Variable

/-- The length of the longest chain of assignments that is followed. -/
def chainLimit : Nat := 8

/-- Captures of a regular expression have numbers for names. -/
def isCapture (name : String) : Bool :=
  name.toList.all Char.isDigit

end Variable

/-- A segment of a script together with its value, if that is known. -/
structure FoldedSegment where
  segment : Segment
  value : Option String
deriving DecidableEq, Repr

namespace Segment

def name? : Segment → Option String
  | .literal _ => none
  | .variable name => some name

/-- The value of a segment, given the values of variables. -/
def value? (variableValue : String → Option String) : Segment → Option String
  | .literal text => some text
  | .variable name => variableValue name

end Segment

/-- The text of a script in which every segment has a value. -/
def concatenate? (values : List (Option String)) : Option String :=
  match values with
  | [] => some ""
  | none :: _ => none
  | some value :: rest => (value ++ ·) <$> concatenate? rest

namespace ConfigTree

/-- The visible assignments of a variable, nearest block first. -/
def assignments (tree : ConfigTree) (name : String) (scope : Nat) : List Nat :=
  (tree.visible "set" scope).filter fun directive =>
    tree.firstArgument? directive == some ("$" ++ name)

/-- The assignment that counts: the last one in the nearest block that has
one. -/
def assignment? (tree : ConfigTree) (name : String) (scope : Nat) :
    Option Nat := do
  let found := tree.assignments name scope
  let nearest := tree.parent? (← found.head?)
  (found.filter fun directive => tree.parent? directive == nearest).getLast?

/-- The text that the assignment of a variable gives it. -/
def assignedText? (tree : ConfigTree) (assignment : Nat) : Option String :=
  (tree.arguments assignment)[1]?

/-- The value of a variable, following at most `depth` assignments and none of
the variables whose values are being worked out. -/
def foldVariable (tree : ConfigTree) (depth : Nat) (visiting : List String)
    (scope : Nat) (name : String) : Option String :=
  match depth with
  | 0 => none
  | depth + 1 =>
      if Variable.isBuiltin name || Variable.isCapture name ||
          visiting.contains name then none
      else do
        let assignment ← tree.assignment? name scope
        let text ← tree.assignedText? assignment
        let parts ← (segments text).toOption
        concatenate? (parts.map (Segment.value?
          (tree.foldVariable depth (name :: visiting) assignment)))

def variableValue (tree : ConfigTree) (scope : Nat) (name : String) :
    Option String :=
  tree.foldVariable Variable.chainLimit [] scope name

/-- The segments of a script with their values as seen from a directive. -/
def compile (tree : ConfigTree) (scope : Nat) (text : String) :
    Except ScriptError (List FoldedSegment) :=
  (fun parts => parts.map fun segment =>
    ⟨segment, segment.value? (tree.variableValue scope)⟩) <$> segments text

end ConfigTree

/-- What is known of a host before any request. -/
inductive HostResolution where
  | resolved (host : String)
  | requestDependent
  | malformed (error : ScriptError)
deriving DecidableEq, Repr

namespace ConfigTree

/-- The host that a script stands for as seen from a directive. -/
def resolveHost (tree : ConfigTree) (scope : Nat) (text : String) :
    HostResolution :=
  match tree.compile scope text with
  | .error error => .malformed error
  | .ok parts =>
      match concatenate? (parts.map FoldedSegment.value) with
      | some host => .resolved host
      | none => .requestDependent

end ConfigTree

def HostResolution.host? : HostResolution → Option String
  | .resolved host => some host
  | _ => none

end ProxyLint
