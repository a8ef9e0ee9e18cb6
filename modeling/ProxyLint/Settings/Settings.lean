import ProxyLint.Findings.Severity
import ProxyLint.Json.Value
import ProxyLint.Text.Blank

/-!
# Settings

Settings say which rules to run and how to report.  Rules that are not part of
the library are named by their factory and carry a JSON value of their own.
-/

namespace ProxyLint

inductive OutputFormat where
  | text
  | json
deriving DecidableEq, Repr

inductive RuleSettings where
  | missingResolver (directives : List String)
  | custom (factory : String) (settings : Json.Value)

structure ReportSettings where
  minSeverity : Severity
  format : OutputFormat
deriving DecidableEq, Repr

structure LintSettings where
  rules : List RuleSettings
  report : ReportSettings

namespace OutputFormat

def label : OutputFormat → String
  | text => "text"
  | json => "json"

def ofText (word : String) : Except SettingsFault OutputFormat :=
  let lowered := Text.lowerAscii word
  if lowered = "text" then .ok .text
  else if lowered = "json" then .ok .json
  else .error (.unknownFormat lowered)

end OutputFormat

namespace ReportSettings

def default : ReportSettings where
  minSeverity := .medium
  format := .text

end ReportSettings

namespace RuleSettings

def default : RuleSettings :=
  .missingResolver []

/-- The type of the rule, under which its factory is registered. -/
def typeName : RuleSettings → String
  | .missingResolver _ => "missing_resolver"
  | .custom factory _ => factory

def validate : RuleSettings → Except SettingsFault Unit
  | .missingResolver directives =>
      if directives.any Text.isBlankText then .error .blankDirectiveName
      else .ok ()
  | .custom factory settings =>
      if factory.isEmpty then .error .emptyFactoryName
      else
        match settings with
        | .null => .error .nullSettings
        | _ => .ok ()

end RuleSettings

namespace LintSettings

/-- Settings for some rules with the usual report. -/
def ofRules (rules : List RuleSettings) : LintSettings where
  rules := rules
  report := .default

def default : LintSettings :=
  ofRules [.default]

/-- The first fault of any rule. -/
def validateRules : List RuleSettings → Except SettingsFault Unit
  | [] => .ok ()
  | rule :: rules =>
      match rule.validate with
      | .error fault => .error fault
      | .ok _ => validateRules rules

def validate (settings : LintSettings) : Except SettingsFault Unit :=
  if settings.rules.isEmpty then .error .noRules
  else validateRules settings.rules

end LintSettings

end ProxyLint
