import ProxyLint.CommandLine.Program
import Std.Time.DateTime.Timestamp

/-!
# The command

Reads the environment, the files and the clock, runs the program and writes
what it gives.
-/

namespace ProxyLint

/-- Why the system could not read a file. -/
def failureOfSystemError : IO.Error → ReadFailure
  | .noFileOrDirectory _ _ _ => .missing
  | error => .other (toString error)

def readText (path : String) : IO (Except ReadFailure String) := do
  try
    let bytes ← IO.FS.readBinFile path
    match String.fromUTF8? bytes with
    | some text => return .ok text
    | none => return .error .notUnicode
  catch error =>
    return .error (failureOfSystemError error)

def readOptions (arguments : List String) : IO Options := do
  let entries ← Options.variableNames.mapM fun name => do
    return (name, ← IO.getEnv name)
  return .ofEnvironment arguments fun name => (entries.lookup name).join

def readFiles (options : Options) :
    IO (String → Except ReadFailure String) := do
  let files ← options.pathsToRead.mapM fun path => do
    return (path, ← readText path)
  return fun path => (files.lookup path).getD (.error .missing)

def readClock : IO Instant := do
  let now ← Std.Time.Timestamp.now
  return .ofClock now.toSecondsSinceUnixEpoch.val.toNat 0

end ProxyLint

open ProxyLint in
def main (arguments : List String) : IO UInt32 := do
  let options ← readOptions arguments
  let outcome := runProgram options (← readFiles options) (← readClock)
  for complaint in outcome.complaints options.level do
    IO.eprintln complaint
  IO.print outcome.output
  return outcome.status.code.toUInt32
