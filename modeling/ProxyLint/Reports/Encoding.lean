import ProxyLint.Json.Printer
import ProxyLint.Reports.FileReport

/-!
# Reports as JSON

Reports are written as one array with one item a line.  A finding without
evidence has no such member, and an unknown line is null.
-/

namespace ProxyLint

namespace Snapshot

def value (snapshot : Snapshot) : Json.Value :=
  .object [("node", .number (.natural snapshot.node)),
    ("line", (snapshot.line.map fun line =>
      Json.Value.number (.natural line)).getD .null),
    ("text", .text snapshot.text)]

end Snapshot

namespace Finding

def value (finding : Finding) : Json.Value :=
  .object ([("rule", .text finding.rule),
    ("severity", .text finding.severity.label),
    ("summary", .text finding.summary),
    ("message", .text finding.message),
    ("primary", finding.primary.value)] ++
    if finding.evidence.isEmpty then []
    else [("evidence", .array (finding.evidence.map Snapshot.value))])

end Finding

namespace FileReport

def value (report : FileReport) : Json.Value :=
  .object [("path", .text report.path),
    ("generated_at", .text report.generatedAt.render),
    ("findings", .array (report.findings.map Finding.value))]

def renderJson (reports : List FileReport) : String :=
  (Json.Value.array (reports.map value)).renderIndented

end FileReport

end ProxyLint
