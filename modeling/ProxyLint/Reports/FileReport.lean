import ProxyLint.Findings.Finding
import ProxyLint.Reports.Instant

/-!
# Reports

A report has the findings of one file that reach the minimal severity.  Its
text form is for people, one block of lines for each finding.
-/

namespace ProxyLint

structure FileReport where
  path : String
  generatedAt : Instant
  findings : List Finding
deriving DecidableEq, Repr

namespace FileReport

/-- The report of a file, without the findings below a severity. -/
def ofFindings (path : String) (generatedAt : Instant)
    (findings : List Finding) (minimum : Severity) : FileReport where
  path := path
  generatedAt := generatedAt
  findings := findingsAtLeast minimum findings

def highestSeverity? (report : FileReport) : Option Severity :=
  if report.findings.isEmpty then none
  else if report.findings.any fun finding => finding.severity == .high then
    some .high
  else some .medium

/-- Where a directive stands, as far as that is known. -/
def location (path : String) (snapshot : Snapshot) : String :=
  match snapshot.line with
  | some line => s!"{path}:{line}"
  | none => path

def evidenceLine (path : String) (snapshot : Snapshot) : String :=
  s!"    evidence: {location path snapshot}: {snapshot.text}\n"

def findingLines (path : String) (finding : Finding) : String :=
  s!"{location path finding.primary}: [{finding.severity.label}] " ++
  s!"{finding.rule}: {finding.summary}\n" ++
  s!"    {finding.primary.text}\n" ++
  s!"    reason: {finding.message}\n" ++
  String.join (finding.evidence.map (evidenceLine path))

def renderText (report : FileReport) : String :=
  if report.findings.isEmpty then s!"{report.path}: no issues found\n"
  else String.join (report.findings.map (findingLines report.path))

end FileReport

end ProxyLint
