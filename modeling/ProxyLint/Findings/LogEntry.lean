import ProxyLint.Text.Escape

/-!
# Log entries

What the linter has to say besides its findings.  Entries are collected in
order and given back as a value.
-/

namespace ProxyLint

inductive LogLevel where
  | trace
  | debug
  | info
  | warn
  | error
deriving DecidableEq, Repr

structure LogEntry where
  level : LogLevel
  text : String
deriving DecidableEq, Repr

namespace LogLevel

def label : LogLevel → String
  | trace => "TRACE"
  | debug => "DEBUG"
  | info => "INFO"
  | warn => "WARN"
  | error => "ERROR"

/-- More serious levels have larger ranks. -/
def rank : LogLevel → Nat
  | trace => 0
  | debug => 1
  | info => 2
  | warn => 3
  | error => 4

end LogLevel

namespace LogEntry

/-- Whether an entry is at least as serious as a level. -/
def reaches (entry : LogEntry) (level : LogLevel) : Bool :=
  level.rank ≤ entry.level.rank

def line (entry : LogEntry) : String :=
  s!"{entry.level.label} {entry.text}"

/-- The entry with its text as it is written to a terminal. -/
def forTerminal (entry : LogEntry) : LogEntry :=
  { entry with text := Text.forTerminal entry.text }

def debug (text : String) : LogEntry := ⟨.debug, text⟩

def info (text : String) : LogEntry := ⟨.info, text⟩

def warn (text : String) : LogEntry := ⟨.warn, text⟩

def error (text : String) : LogEntry := ⟨.error, text⟩

end LogEntry

end ProxyLint
