import ProxyLint.Configuration.Written
import ProxyLint.Findings.Severity

/-!
# Findings

A finding is one problem that a rule reports.  It keeps a snapshot of the
directive it is about and of further directives as evidence, so that it can be
read without the tree.
-/

namespace ProxyLint

/-- A directive as it was when a finding was made. -/
structure Snapshot where
  node : Nat
  line : Option Nat
  text : String
deriving DecidableEq, Repr

structure Finding where
  rule : String
  severity : Severity
  summary : String
  message : String
  primary : Snapshot
  evidence : List Snapshot
deriving DecidableEq, Repr

def ConfigTree.snapshot (tree : ConfigTree) (id : Nat) : Snapshot where
  node := id
  line := tree.line id
  text := tree.written id

def countSeverity (severity : Severity) (findings : List Finding) : Nat :=
  (findings.filter fun finding => finding.severity == severity).length

/-- The number of findings of each severity that occurs, medium first. -/
def severityCounts (findings : List Finding) : List (Severity × Nat) :=
  ([.medium, .high].map fun severity =>
    (severity, countSeverity severity findings)).filter fun entry =>
      entry.2 != 0

def findingsAtLeast (minimum : Severity) (findings : List Finding) :
    List Finding :=
  findings.filter fun finding => finding.severity.reaches minimum

end ProxyLint
