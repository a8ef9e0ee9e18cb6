import ProxyLint.Findings.Finding
import ProxyLint.Findings.LogEntry

/-!
# Rules

A rule names the directives it wants to see and audits them one at a time.  An
audit has no effects: it gives findings, log entries and possibly a failure.
-/

namespace ProxyLint

/-- The outcome of one audit.  Findings made before a failure still count. -/
structure Audit where
  findings : List Finding
  log : List LogEntry
  failure : Option LintError
deriving DecidableEq, Repr

structure Rule where
  name : String
  summary : String
  description : String
  helpUrl : String
  directives : List String
  audit : ConfigTree → Nat → Audit

def Rule.concerns (rule : Rule) (tree : ConfigTree) (id : Nat) : Bool :=
  rule.directives.contains (tree.name id)

end ProxyLint
