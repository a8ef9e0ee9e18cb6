import ProxyLint.Json.Decoding
import ProxyLint.Json.Parser
import ProxyLint.Reports.FileReport
import ProxyLint.Settings.Decoding

/-!
# Reports from JSON

Findings and reports are read back from their JSON form.  Evidence and lines
may be left out.
-/

namespace ProxyLint

namespace Snapshot

def ofDocument? (document : Json.Document) : Option Snapshot := do
  match ← document.fields? ["node", "line", "text"] with
  | [node, line, text] =>
      return {
        node := ← Json.Document.required? Json.Document.natural? node
        line := ← Json.Document.optional?
          (Json.Document.nullable? Json.Document.natural?) none line
        text := ← Json.Document.required? Json.Document.text? text }
  | _ => none

end Snapshot

namespace Finding

def ofDocument? (document : Json.Document) : Option Finding := do
  match ← document.fields?
      ["rule", "severity", "summary", "message", "primary", "evidence"] with
  | [rule, severity, summary, message, primary, evidence] =>
      return {
        rule := ← Json.Document.required? Json.Document.text? rule
        severity := ← Json.Document.required? Severity.ofDocument? severity
        summary := ← Json.Document.required? Json.Document.text? summary
        message := ← Json.Document.required? Json.Document.text? message
        primary := ← Json.Document.required? Snapshot.ofDocument? primary
        evidence := ← Json.Document.optional?
          (Json.Document.list? Snapshot.ofDocument?) [] evidence }
  | _ => none

end Finding

namespace Instant

def ofDocument? (document : Json.Document) : Option Instant := do
  ofText? (← document.text?)

end Instant

namespace FileReport

def ofDocument? (document : Json.Document) : Option FileReport := do
  match ← document.fields? ["path", "generated_at", "findings"] with
  | [path, generatedAt, findings] =>
      return {
        path := ← Json.Document.required? Json.Document.text? path
        generatedAt := ← Json.Document.required? Instant.ofDocument? generatedAt
        findings := ← Json.Document.required?
          (Json.Document.list? Finding.ofDocument?) findings }
  | _ => none

def listOfText? (text : String) : Option (List FileReport) := do
  (← Json.Document.parse? text).list? ofDocument?

end FileReport

end ProxyLint
