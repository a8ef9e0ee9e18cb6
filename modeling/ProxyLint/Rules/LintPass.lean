import ProxyLint.Rules.Rule

/-!
# Linting a tree

A pass visits the directives of a tree in document order and hands each one to
every rule that asks for it, in the order of the rules.  A failing audit is
counted and logged, and the pass goes on.  Findings are appended to those that
were reported before.
-/

namespace ProxyLint

structure LintSummary where
  directivesVisited : Nat
  auditsRun : Nat
  auditsFailed : Nat
  findings : Nat
deriving DecidableEq, Repr

structure LintPass where
  /-- All findings, those reported before the pass first. -/
  reported : List Finding
  summary : LintSummary
  log : List LogEntry
deriving DecidableEq, Repr

namespace LintPass

def start (reported : List Finding) : LintPass where
  reported := reported
  summary := ⟨0, 0, 0, 0⟩
  log := []

def failureEntry (rule : Rule) (tree : ConfigTree) (id : Nat)
    (error : LintError) : LogEntry :=
  .warn (s!"Rule {rule.name} failed on '{tree.written id}' " ++
    s!"(line {writtenLine (tree.line id)}), " ++
    s!"skipping directive: {error.message}")

/-- Take in the outcome of an audit. -/
def record (pass : LintPass) (rule : Rule) (tree : ConfigTree) (id : Nat)
    (audit : Audit) : LintPass where
  reported := pass.reported ++ audit.findings
  summary := {
    directivesVisited := pass.summary.directivesVisited
    auditsRun := pass.summary.auditsRun + 1
    auditsFailed :=
      pass.summary.auditsFailed + if audit.failure.isSome then 1 else 0
    findings := pass.summary.findings + audit.findings.length }
  log := pass.log ++ audit.log ++
    (audit.failure.map (failureEntry rule tree id)).toList

/-- Let a rule audit a directive, if it concerns the rule. -/
def auditWith (tree : ConfigTree) (id : Nat) (pass : LintPass) (rule : Rule) :
    LintPass :=
  if rule.concerns tree id then pass.record rule tree id (rule.audit tree id)
  else pass

def countVisit (pass : LintPass) : LintPass :=
  { pass with
    summary := { pass.summary with
      directivesVisited := pass.summary.directivesVisited + 1 } }

/-- Let every rule audit a directive. -/
def visit (rules : List Rule) (tree : ConfigTree) (pass : LintPass) (id : Nat) :
    LintPass :=
  rules.foldl (auditWith tree id) pass.countVisit

def finishedEntry (summary : LintSummary) : LogEntry :=
  .debug (s!"Lint pass finished: {summary.directivesVisited} directive(s), " ++
    s!"{summary.auditsRun} audit(s), {summary.findings} finding(s)")

def finish (pass : LintPass) : LintPass :=
  { pass with log := pass.log ++ [finishedEntry pass.summary] }

end LintPass

/-- Lint a tree, appending to the findings that were reported before. -/
def lint (rules : List Rule) (tree : ConfigTree) (reported : List Finding) :
    LintPass :=
  (tree.walk.foldl (LintPass.visit rules tree) (LintPass.start reported)).finish

end ProxyLint
