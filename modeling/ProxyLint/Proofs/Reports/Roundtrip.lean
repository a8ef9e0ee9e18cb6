import ProxyLint.Proofs.Reports.Storable
import ProxyLint.Reports.Encoding

/-!
# Reading reports back

Reports whose numbers fit 64 bits and whose times the calendar has are read
back from their JSON text, whatever their texts are.  Every part of a report
survives on its own, and the whole survives because its parts do.
-/

namespace ProxyLint

open Json

/-! ## From the parts to the whole -/

theorem Severity.survives (severity : Severity) :
    Survives (fun severity => .text severity.label) ofDocument? severity := by
  refine ⟨.text (unitsOf severity.label), by rw [Value.document?], ?_⟩
  rw [ofDocument?, Document.choice?, textOf?_unitsOf]
  cases severity with
  | medium => rfl
  | high => rfl

theorem Instant.Valid.survives {instant : Instant} (valid : instant.Valid) :
    Survives (fun instant => .text instant.render) ofDocument? instant := by
  refine ⟨.text (unitsOf instant.render), by rw [Value.document?], ?_⟩
  rw [ofDocument?, Document.text?, textOf?_unitsOf, Option.bind_eq_bind,
    Option.bind_some, ofText?_render valid]

theorem Snapshot.Storable.survives {snapshot : Snapshot}
    (storable : snapshot.Storable) : Survives value ofDocument? snapshot := by
  obtain ⟨node, nodeEncoded, nodeDecoded⟩ := survives_natural storable.node
  obtain ⟨line, lineEncoded, lineDecoded⟩ := survives_nullable storable.line
  obtain ⟨text, textEncoded, textDecoded⟩ := survives_text snapshot.text
  refine ⟨record [("node", node), ("line", line), ("text", text)], ?_, ?_⟩
  · exact (writesMembers_cons "node" nodeEncoded <|
      writesMembers_cons "line" lineEncoded <|
      writesMembers_cons "text" textEncoded writesMembers_nil).document?_object
  · rw [ofDocument?, fields?_record]
    simp [Document.unique?, Document.required?, Document.optional?,
      nodeDecoded, lineDecoded, textDecoded]

theorem Finding.Storable.survives {finding : Finding}
    (storable : finding.Storable) : Survives value ofDocument? finding := by
  obtain ⟨rule, ruleEncoded, ruleDecoded⟩ := survives_text finding.rule
  obtain ⟨severity, severityEncoded, severityDecoded⟩ :=
    finding.severity.survives
  obtain ⟨summary, summaryEncoded, summaryDecoded⟩ :=
    survives_text finding.summary
  obtain ⟨message, messageEncoded, messageDecoded⟩ :=
    survives_text finding.message
  obtain ⟨primary, primaryEncoded, primaryDecoded⟩ := storable.primary.survives
  obtain ⟨evidence, evidenceEncoded, evidenceDecoded⟩ :=
    survives_list fun snapshot member =>
      (storable.evidence snapshot member).survives
  -- evidence is the last member, and left out if there is none
  have common {values : List (String × Value)}
      {members : List (String × Document)}
      (last : WritesMembers values members) :=
    writesMembers_cons "rule" ruleEncoded <|
      writesMembers_cons "severity" severityEncoded <|
      writesMembers_cons "summary" summaryEncoded <|
      writesMembers_cons "message" messageEncoded <|
      writesMembers_cons "primary" primaryEncoded last
  by_cases empty : finding.evidence = []
  · refine ⟨record [("rule", rule), ("severity", severity),
      ("summary", summary), ("message", message), ("primary", primary)],
      ?_, ?_⟩
    · rw [value, empty]
      exact (common writesMembers_nil).document?_object
    · rw [ofDocument?, fields?_record]
      simp [Document.unique?, Document.required?, Document.optional?,
        ruleDecoded, severityDecoded, summaryDecoded, messageDecoded,
        primaryDecoded, ← empty]
  · refine ⟨record [("rule", rule), ("severity", severity),
      ("summary", summary), ("message", message), ("primary", primary),
      ("evidence", evidence)], ?_, ?_⟩
    · rw [value, if_neg (by simpa using empty)]
      exact (common (writesMembers_cons "evidence" evidenceEncoded
        writesMembers_nil)).document?_object
    · rw [ofDocument?, fields?_record]
      simp [Document.unique?, Document.required?, Document.optional?,
        ruleDecoded, severityDecoded, summaryDecoded, messageDecoded,
        primaryDecoded, evidenceDecoded]

theorem FileReport.Storable.survives {report : FileReport}
    (storable : report.Storable) : Survives value ofDocument? report := by
  obtain ⟨path, pathEncoded, pathDecoded⟩ := survives_text report.path
  obtain ⟨time, timeEncoded, timeDecoded⟩ := storable.generatedAt.survives
  obtain ⟨findings, findingsEncoded, findingsDecoded⟩ :=
    survives_list fun finding member =>
      (storable.findings finding member).survives
  refine ⟨record [("path", path), ("generated_at", time),
    ("findings", findings)], ?_, ?_⟩
  · exact (writesMembers_cons "path" pathEncoded <|
      writesMembers_cons "generated_at" timeEncoded <|
      writesMembers_cons "findings" findingsEncoded
        writesMembers_nil).document?_object
  · rw [ofDocument?, fields?_record]
    simp [Document.unique?, Document.required?, pathDecoded, timeDecoded,
      findingsDecoded]

namespace FileReport

theorem listOfText?_renderJson {reports : List FileReport}
    (storable : ∀ report ∈ reports, report.Storable) :
    listOfText? (renderJson reports) = some reports := by
  obtain ⟨document, encoded, decoded⟩ :=
    survives_list fun report member => (storable report member).survives
  rw [listOfText?, renderJson, Value.parse?_renderIndented encoded]
  exact decoded

/-- Reports that are in range, or that were read from any text, are read back
from their JSON text, and give the same text again. -/
theorem json_roundtrip {reports : List FileReport}
    (produced : (∀ report ∈ reports, report.Storable) ∨
      ∃ text, listOfText? text = some reports) :
    listOfText? (renderJson reports) = some reports ∧
      (listOfText? (renderJson reports)).map renderJson =
        some (renderJson reports) := by
  have storable : ∀ report ∈ reports, report.Storable := by
    rcases produced with inRange | ⟨text, read⟩
    · exact inRange
    · exact storable_of_listOfText? read
  have readBack := listOfText?_renderJson storable
  exact ⟨readBack, congrArg (Option.map renderJson) readBack⟩

/-- A leap second, the largest numbers, and texts with quotes, backslashes,
control characters and characters beyond the basic plane. -/
def extreme : FileReport where
  path := "C:\\sites\\\"ünïcode\" \x01\x1f\x7f\t\n\r"
  generatedAt := ⟨9999, 12, 31, 23, 59, 60, 123456000⟩
  findings := [
    ⟨"resolver", .high, "", "😀", ⟨2 ^ 64 - 1, some (2 ^ 64 - 1), "a\\;"⟩,
      [⟨0, none, "\x7b"⟩, ⟨7, some 0, "\\u0041\n"⟩]⟩,
    ⟨"", .medium, "\x08\x0c", "null", ⟨1, none, "true"⟩, []⟩]

theorem json_roundtrip_extreme :
    (∀ report ∈ [extreme], report.Storable) ∧
      listOfText? (renderJson [extreme]) = some [extreme] := by
  have storable : ∀ report ∈ [extreme], report.Storable := by
    intro report member
    obtain rfl := List.mem_singleton.1 member
    refine ⟨⟨by decide, by decide, by decide⟩, fun finding found => ?_⟩
    simp only [extreme, List.mem_cons, List.not_mem_nil, or_false] at found
    rcases found with rfl | rfl
    · refine ⟨⟨by decide, by simp⟩, fun snapshot evident => ?_⟩
      simp only [List.mem_cons, List.not_mem_nil, or_false] at evident
      rcases evident with rfl | rfl
      · exact ⟨by decide, by simp⟩
      · exact ⟨by decide, by simp⟩
    · exact ⟨⟨by decide, by simp⟩, by simp⟩
  exact ⟨storable, (json_roundtrip (.inl storable)).1⟩

end FileReport

end ProxyLint
