import ProxyLint.Configuration.Token
import ProxyLint.Variables.Script

/-!
# Errors

Each part of the linter has its own causes of failure.  This module has the
faults of settings and of reading files, and the one type that carries every
failure to the user together with its wording.
-/

namespace ProxyLint

inductive SettingsFault where
  | noRules
  | blankDirectiveName
  | emptyFactoryName
  | nullSettings
  | unknownRuleType (name : String)
  | foreignSettings (ruleType : String)
  | unknownSeverity (text : String)
  | unknownFormat (text : String)
  | other (message : String)
deriving DecidableEq, Repr

inductive ReadFailure where
  | missing
  | notUnicode
  | other (message : String)
deriving DecidableEq, Repr

inductive LintError where
  | parse (message : String)
  | script (message : String)
  | audit (rule message : String)
  | settings (fault : SettingsFault)
  | reading (failure : ReadFailure)
  | json
  | other (message : String)
deriving DecidableEq, Repr

namespace SettingsFault

def message : SettingsFault → String
  | noRules => "No rules configured"
  | blankDirectiveName => "missing_resolver directive names cannot be empty"
  | emptyFactoryName => "Custom rule factory cannot be empty"
  | nullSettings => "Custom rule config cannot be null"
  | unknownRuleType name => s!"Unknown rule type: {name}"
  | foreignSettings ruleType =>
      s!"Invalid config for missing_resolver rule: {ruleType}"
  | unknownSeverity text =>
      s!"Unknown severity '{text}'. Valid severities: medium, high"
  | unknownFormat text =>
      s!"Unknown output format '{text}'. Valid formats: text, json"
  | other message => message

end SettingsFault

namespace ReadFailure

def message : ReadFailure → String
  | missing => "No such file or directory (os error 2)"
  | notUnicode => "stream did not contain valid UTF-8"
  | other message => message

end ReadFailure

namespace LintError

/-- The wording of an error.  What is wrong with a JSON text is left out. -/
def message : LintError → String
  | parse message => s!"Parse error: {message}"
  | script message => s!"Script error: {message}"
  | audit rule message => s!"Rule error ({rule}): {message}"
  | settings fault => s!"Configuration error: {fault.message}"
  | reading failure => s!"I/O error: {failure.message}"
  | json => "JSON error:"
  | other message => message

/-- The wording of an error together with its cause, where it has one. -/
def messageWithCause : LintError → String
  | reading failure => s!"I/O error: {failure.message}: {failure.message}"
  | error => error.message

def ofParseError (error : ParseError) : LintError :=
  .parse error.message

def ofScriptError (error : ScriptError) : LintError :=
  .script error.message

end LintError

end ProxyLint
