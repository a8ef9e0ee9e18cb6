import ProxyLint.Json.Decoding
import ProxyLint.Json.Parser
import ProxyLint.Settings.Settings

/-!
# Settings from JSON

The settings of a rule are marked by a member `type`, which may stand anywhere
in the object, or first in the array form.  They are read as a whole before
their fields are known, so every text and number in them must be acceptable
and they must not nest too deeply.
-/

namespace ProxyLint

namespace Severity

def ofDocument? (document : Json.Document) : Option Severity := do
  let name ← document.choice?
  if name = medium.label then some medium
  else if name = high.label then some high
  else none

end Severity

namespace OutputFormat

def ofDocument? (document : Json.Document) : Option OutputFormat := do
  let name ← document.choice?
  if name = text.label then some text
  else if name = json.label then some json
  else none

end OutputFormat

namespace RuleSettings

/-- How many containers may be open at once in a JSON text. -/
def depthLimit : Nat := 127

/-- The type of a rule and the rest of its settings. -/
def tagged? : Json.Document → Option (String × Json.Document)
  | .array (tag :: fields) => do return (← tag.text?, .array fields)
  | .object members => do
      let keyed ← Json.Document.keyed? members
      let tag ← (← Json.Document.unique? "type" keyed)
      return (← tag.text?, .object (members.filter fun member =>
        Json.textOf? member.1 != some "type"))
  | _ => none

/-- The settings of a rule of a given type. -/
def ofFields? (type : String) (document : Json.Document) :
    Option RuleSettings :=
  if type = "missing_resolver" then do
    match ← document.fields? ["directives"] with
    | [directives] =>
        return .missingResolver (← Json.Document.optional?
          (Json.Document.list? Json.Document.text?) [] directives)
    | _ => none
  else if type = "custom" then do
    match ← document.fields? ["factory", "config"] with
    | [factory, settings] =>
        return .custom (← Json.Document.required? Json.Document.text? factory)
          (← Json.Document.required? Json.Document.value? settings)
    | _ => none
  else none

/-- The settings of a rule that stand inside the given number of containers. -/
def ofDocument? (depthAround : Nat) (document : Json.Document) :
    Option RuleSettings :=
  if document.depth + depthAround ≤ depthLimit && document.value?.isSome then do
    let (type, fields) ← tagged? document
    ofFields? type fields
  else none

/-- The settings of a single rule that a JSON text gives. -/
def ofText? (text : String) : Option RuleSettings := do
  ofDocument? 0 (← Json.Document.parse? text)

end RuleSettings

namespace ReportSettings

def ofDocument? (document : Json.Document) : Option ReportSettings := do
  match ← document.fields? ["min_severity", "format"] with
  | [minSeverity, format] =>
      return {
        minSeverity := ← Json.Document.optional? Severity.ofDocument?
          default.minSeverity minSeverity
        format := ← Json.Document.optional? OutputFormat.ofDocument?
          default.format format }
  | _ => none

end ReportSettings

namespace LintSettings

/-- How many containers are open around each of the rules. -/
def depthAroundRules : Nat := 2

def ofDocument? (document : Json.Document) : Option LintSettings := do
  match ← document.fields? ["rules", "report"] with
  | [rules, report] =>
      return {
        rules := ← Json.Document.required? (Json.Document.list?
          (RuleSettings.ofDocument? depthAroundRules)) rules
        report := ← Json.Document.optional? ReportSettings.ofDocument?
          .default report }
  | _ => none

def ofText? (text : String) : Option LintSettings := do
  ofDocument? (← Json.Document.parse? text)

/-- The usable settings in a file that was read. -/
def load (content : Except ReadFailure String) :
    Except LintError LintSettings := do
  let text ← content.mapError .reading
  match ofText? text with
  | none => .error .json
  | some settings => do
      settings.validate.mapError .settings
      return settings

end LintSettings

end ProxyLint
