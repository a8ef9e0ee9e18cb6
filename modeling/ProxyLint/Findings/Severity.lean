import ProxyLint.Findings.Fault
import ProxyLint.Text.Search

/-!
# Severity

Findings are of medium or of high severity, and high is above medium.
-/

namespace ProxyLint

inductive Severity where
  | medium
  | high
deriving DecidableEq, Repr

namespace Severity

def label : Severity → String
  | medium => "MEDIUM"
  | high => "HIGH"

def reaches : Severity → Severity → Bool
  | high, _ => true
  | medium, medium => true
  | medium, high => false

def ofText (text : String) : Except SettingsFault Severity :=
  let lowered := Text.lowerAscii text
  if lowered = "medium" then .ok .medium
  else if lowered = "high" then .ok .high
  else .error (.unknownSeverity lowered)

end Severity

end ProxyLint
