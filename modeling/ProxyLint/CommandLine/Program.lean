import ProxyLint.CommandLine.FileRun
import ProxyLint.CommandLine.Options
import ProxyLint.Reports.Encoding
import ProxyLint.Rules.Registry

/-!
# The program

The whole program as a function of its options, of the files it may read and
of the time.  It gives the text for standard output, a complaint about unusable
options, the log and the exit status.
-/

namespace ProxyLint

structure Outcome where
  status : ExitStatus
  output : String
  /-- What is written to standard error outside the log. -/
  complaint : Option String
  log : List LogEntry
deriving DecidableEq, Repr

namespace Outcome

def ofUnusableOptions (fault : OptionsFault) : Outcome where
  status := .unusableSettings
  output := ""
  complaint := some s!"Configuration validation error: {fault.message}"
  log := []

def ofUnusableSettings (message : String) : Outcome where
  status := .unusableSettings
  output := ""
  complaint := none
  log := [.error message]

/-- The text of all reports in a format. -/
def rendered (format : OutputFormat) (reports : List FileReport) : String :=
  match format with
  | .text => String.join (reports.map FileReport.renderText)
  | .json => FileReport.renderJson reports

def ofRun (format : OutputFormat) (run : FileRun) : Outcome where
  status := run.exitStatus
  output := rendered format run.reports
  complaint := none
  log := run.log

/-- The log at a level as it is written to a terminal. -/
def terminalLog (outcome : Outcome) (level : LogLevel) : List LogEntry :=
  (outcome.log.filter fun entry => entry.reaches level).map
    LogEntry.forTerminal

/-- The texts of the errors in the log. -/
def errors (outcome : Outcome) : List String :=
  (outcome.terminalLog .error).map LogEntry.text

/-- What is written to standard error at a log level, one line each. -/
def complaints (outcome : Outcome) (level : LogLevel) : List String :=
  outcome.complaint.toList ++ (outcome.terminalLog level).map LogEntry.line

end Outcome

def runProgram (options : Options) (read : String → Except ReadFailure String)
    (now : Instant) : Outcome :=
  match options.validate with
  | .error fault => .ofUnusableOptions fault
  | .ok _ =>
      match options.settings read with
      | .error fault =>
          .ofUnusableSettings s!"Configuration error: {fault.message}"
      | .ok settings =>
          match Registry.standard.createRules settings with
          | .error error =>
              .ofUnusableSettings s!"Cannot create rules: {error.message}"
          | .ok rules =>
              .ofRun settings.report.format
                (lintFiles rules read now settings.report.minSeverity
                  options.files)

end ProxyLint
