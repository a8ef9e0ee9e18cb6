import ProxyLint.Findings.LogEntry
import ProxyLint.Settings.Decoding

/-!
# Options

The program takes its files from the command line and everything else from
environment variables.  Options are checked before anything is read, and then
become settings, either from a settings file or from the variables alone.
-/

namespace ProxyLint

structure Options where
  files : List String
  settingsPath : Option String
  rules : List String
  directives : List String
  minSeverity : Option String
  format : Option String
  logLevel : String
deriving DecidableEq, Repr

inductive OptionsFault where
  | noFiles
  | noRules
  | unsupportedRule (entry : String)
  | settings (fault : SettingsFault)
  | unknownLogLevel (text : String)
  | unloadable (path : String) (error : LintError)
deriving DecidableEq, Repr

namespace LogLevel

def ofText? (text : String) : Option LogLevel :=
  let lowered := Text.lowerAscii text
  if lowered = "trace" then some .trace
  else if lowered = "debug" then some .debug
  else if lowered = "info" then some .info
  else if lowered = "warn" then some .warn
  else if lowered = "error" then some .error
  else none

end LogLevel

namespace OptionsFault

def supportedRules : List String := ["missing_resolver"]

def supportedList : String := Text.joined ", " supportedRules

def message : OptionsFault → String
  | noFiles =>
      "No configuration files given. Usage: resolvelint <nginx.conf>..."
  | noRules =>
      "RESOLVELINT_RULES must name at least one rule. " ++
      s!"Supported rules: {supportedList}"
  | unsupportedRule entry =>
      s!"RESOLVELINT_RULES entry '{entry}' is not supported. " ++
      s!"Supported rules: {supportedList}"
  | settings fault => (LintError.settings fault).message
  | unknownLogLevel text =>
      s!"RESOLVELINT_LOG_LEVEL '{text}' is not valid. " ++
      "Valid levels: trace, debug, info, warn, error"
  | unloadable path error => s!"Cannot load {path}: {error.messageWithCause}"

end OptionsFault

namespace Options

/-- The trimmed entries between commas, without empty ones. -/
def splitList (text : String) : List String :=
  ((Text.pieces ',' text.toList).map fun piece =>
    Text.trim (String.ofList piece)).filter fun entry => !entry.isEmpty

/-- The environment variables that the program looks at. -/
def variableNames : List String :=
  ["RESOLVELINT_CONFIG", "RESOLVELINT_RULES", "RESOLVELINT_DIRECTIVES",
    "RESOLVELINT_MIN_SEVERITY", "RESOLVELINT_FORMAT", "RESOLVELINT_LOG_LEVEL"]

/-- The options that arguments and environment variables give. -/
def ofEnvironment (arguments : List String)
    (variableValue : String → Option String) : Options where
  files := arguments
  settingsPath := variableValue "RESOLVELINT_CONFIG"
  rules :=
    ((variableValue "RESOLVELINT_RULES").map splitList).getD
      ["missing_resolver"]
  directives :=
    ((variableValue "RESOLVELINT_DIRECTIVES").map splitList).getD []
  minSeverity := variableValue "RESOLVELINT_MIN_SEVERITY"
  format := variableValue "RESOLVELINT_FORMAT"
  logLevel := (variableValue "RESOLVELINT_LOG_LEVEL").getD "warn"

/-- Check the names of rules, which count only without a settings file. -/
def checkRules (options : Options) : Except OptionsFault Unit :=
  if options.settingsPath.isSome then .ok ()
  else if options.rules.isEmpty then .error .noRules
  else
    match options.rules.find? fun entry =>
        !OptionsFault.supportedRules.contains entry with
    | some entry => .error (.unsupportedRule entry)
    | none => .ok ()

def severity? (options : Options) : Except OptionsFault (Option Severity) :=
  match options.minSeverity with
  | none => .ok none
  | some text => (some <$> Severity.ofText text).mapError .settings

def format? (options : Options) : Except OptionsFault (Option OutputFormat) :=
  match options.format with
  | none => .ok none
  | some text => (some <$> OutputFormat.ofText text).mapError .settings

def checkLogLevel (options : Options) : Except OptionsFault Unit :=
  match LogLevel.ofText? options.logLevel with
  | some _ => .ok ()
  | none => .error (.unknownLogLevel options.logLevel)

/-- Check everything that can be checked before a file is read. -/
def validate (options : Options) : Except OptionsFault Unit := do
  if options.files.isEmpty then .error .noFiles
  options.checkRules
  discard options.severity?
  discard options.format?
  options.checkLogLevel

/-- The settings before severity and format are overridden. -/
def baseSettings (options : Options)
    (read : String → Except ReadFailure String) :
    Except OptionsFault LintSettings :=
  match options.settingsPath with
  | some path => (LintSettings.load (read path)).mapError (.unloadable path)
  | none =>
      .ok (.ofRules (options.rules.map fun _ =>
        .missingResolver options.directives))

/-- Let the options override severity and format. -/
def override (options : Options) (settings : LintSettings) :
    Except OptionsFault LintSettings := do
  let severity ← options.severity?
  let format ← options.format?
  return { settings with
    report := {
      minSeverity := severity.getD settings.report.minSeverity
      format := format.getD settings.report.format } }

def settings (options : Options)
    (read : String → Except ReadFailure String) :
    Except OptionsFault LintSettings := do
  let settings ← options.override (← options.baseSettings read)
  settings.validate.mapError .settings
  return settings

/-- The files that the program reads.  Unusable options make it read none. -/
def pathsToRead (options : Options) : List String :=
  match options.validate with
  | .ok _ => options.settingsPath.toList ++ options.files
  | .error _ => []

/-- The log level, or the usual one if the options name none. -/
def level (options : Options) : LogLevel :=
  (LogLevel.ofText? options.logLevel).getD .warn

end Options

end ProxyLint
