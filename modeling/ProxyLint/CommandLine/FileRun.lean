import ProxyLint.Configuration.Loading
import ProxyLint.Reports.FileReport
import ProxyLint.Rules.LintPass

/-!
# Linting files

Every file is read, parsed and linted on its own.  Reports come in the order
of the paths, and a file that fails leaves an entry in the log instead of a
report.
-/

namespace ProxyLint

inductive ExitStatus where
  | clean
  | unusableSettings
  | unreadableFile
  | findingsReported
deriving DecidableEq, Repr

structure FileRun where
  reports : List FileReport
  failures : Nat
  log : List LogEntry
deriving DecidableEq, Repr

namespace ExitStatus

def code : ExitStatus → Nat
  | clean => 0
  | unusableSettings => 1
  | unreadableFile => 2
  | findingsReported => 3

end ExitStatus

def lintFile (rules : List Rule) (read : String → Except ReadFailure String)
    (path : String) : Except LoadFailure (List Finding) := do
  let tree ← ConfigTree.load path (read path)
  return (lint rules tree []).reported

namespace FileRun

def startedEntry (rules : List Rule) (paths : List String) : LogEntry :=
  let names := Text.joined ", " (rules.map Rule.name)
  .info s!"Linting {paths.length} file(s) with rule(s): {names}"

def failedEntry (path : String) (failure : LoadFailure) : LogEntry :=
  .error s!"{path}: {failure.report}"

/-- Add the outcome of a file that comes before all others. -/
def cons (path : String) (now : Instant) (minimum : Severity)
    (outcome : Except LoadFailure (List Finding)) (run : FileRun) : FileRun :=
  match outcome with
  | .ok findings =>
      { run with
        reports := .ofFindings path now findings minimum :: run.reports }
  | .error failure =>
      { run with
        failures := run.failures + 1
        log := failedEntry path failure :: run.log }

def ofPaths (rules : List Rule) (read : String → Except ReadFailure String)
    (now : Instant) (minimum : Severity) : List String → FileRun
  | [] => ⟨[], 0, []⟩
  | path :: paths =>
      cons path now minimum (lintFile rules read path)
        (ofPaths rules read now minimum paths)

/-- A failure weighs more than findings. -/
def exitStatus (run : FileRun) : ExitStatus :=
  if run.failures > 0 then .unreadableFile
  else if run.reports.any fun report => !report.findings.isEmpty then
    .findingsReported
  else .clean

end FileRun

/-- Lint files, keeping the findings that reach a minimal severity. -/
def lintFiles (rules : List Rule) (read : String → Except ReadFailure String)
    (now : Instant) (minimum : Severity) (paths : List String) : FileRun :=
  let run := FileRun.ofPaths rules read now minimum paths
  { run with log := FileRun.startedEntry rules paths :: run.log }

end ProxyLint
