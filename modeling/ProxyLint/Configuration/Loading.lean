import ProxyLint.Configuration.Parser
import ProxyLint.Findings.Fault
import ProxyLint.Findings.LogEntry

/-!
# Loading a configuration file

A file is loaded from what was read of it.  The two ways to fail are a file
without text and a text that is no configuration.
-/

namespace ProxyLint

inductive LoadFailure where
  | unreadable (path : String) (failure : ReadFailure)
  | malformed (error : ParseError)
deriving DecidableEq, Repr

namespace LoadFailure

def message : LoadFailure → String
  | unreadable path failure => s!"Cannot read {path}: {failure.message}"
  | malformed error => error.message

def lintError : LoadFailure → LintError
  | unreadable _ failure => .reading failure
  | malformed error => .ofParseError error

/-- The failure as it is shown next to the path. -/
def report : LoadFailure → String
  | unreadable path failure => s!"Cannot read {path}: {failure.message}"
  | malformed error => (LintError.ofParseError error).message

end LoadFailure

namespace ConfigTree

def load (path : String) (content : Except ReadFailure String) :
    Except LoadFailure ConfigTree :=
  match content with
  | .error failure => .error (.unreadable path failure)
  | .ok text => (parse text).mapError .malformed

/-- The entry that a loaded file leaves in the log. -/
def loadedEntry (path : String) (tree : ConfigTree) : LogEntry :=
  .debug s!"Parsed {tree.size} directive(s) from {path}"

end ConfigTree

end ProxyLint
