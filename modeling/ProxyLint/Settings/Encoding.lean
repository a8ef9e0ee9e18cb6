import ProxyLint.Json.Printer
import ProxyLint.Settings.Settings

/-!
# Settings as JSON

The written form of settings gives every field, in a fixed order and without
blanks.
-/

namespace ProxyLint

namespace RuleSettings

def value : RuleSettings → Json.Value
  | .missingResolver directives =>
      .object [("type", .text "missing_resolver"),
        ("directives", .array (directives.map .text))]
  | .custom factory settings =>
      .object [("type", .text "custom"), ("factory", .text factory),
        ("config", settings)]

end RuleSettings

namespace ReportSettings

def value (settings : ReportSettings) : Json.Value :=
  .object [("min_severity", .text settings.minSeverity.label),
    ("format", .text settings.format.label)]

end ReportSettings

namespace LintSettings

def value (settings : LintSettings) : Json.Value :=
  .object [("rules", .array (settings.rules.map RuleSettings.value)),
    ("report", settings.report.value)]

def render (settings : LintSettings) : String :=
  settings.value.render

end LintSettings

end ProxyLint
