import LintReport.CommandLine.Run
import LintReport.Log.Hierarchy
import Std.Time.DateTime.Timestamp

/-! # The program

Reads the output of a linter from a file or from the standard input, and prints its
diagnostics as JSON. The log goes to the standard error. -/

namespace LintReport.CommandLine

/-- The values that some variables have in the environment of the program. -/
def environmentOf : List String → IO (Keyed String)
  | [] => return []
  | name :: names => do
      let others ← environmentOf names
      match ← IO.getEnv name with
      | some value => return (name, value) :: others
      | none => return others

/-- What the program reads: only the input that the arguments name. The standard input keeps
its line ends. -/
def readSources (arguments : Arguments) : IO Sources := do
  match arguments.inputPath? with
  | some path =>
      let bytes := (← IO.FS.readBinFile path).toList
      return { standardInput := [], lineEnds := .kept, file := fun _ => bytes }
  | none =>
      let bytes := (← (← IO.getStdin).readBinToEnd).toList
      return { standardInput := bytes, lineEnds := .kept, file := fun _ => [] }

/-- Writes the lines of the records that are let through. -/
def writeLog (log : Log.Logging IO.FS.Stream) (records : List Log.Record) : IO Unit := do
  let now ← Std.Time.Timestamp.now
  let created := now.toNanosecondsSinceUnixEpoch.val / 1000
  for (outlet, told) in log.told (records.map fun record => { record with created }) do
    match told with
    | .ok line => outlet.putStrLn line
    | .error _ => pure ()

/-- Writes a message to the standard error, and gives the exit status back. -/
def failWith (message : String) (status : UInt32) : IO UInt32 := do
  IO.eprintln message
  return status

/-- Makes the check that the arguments ask for, and prints its result. -/
def runProgram (settings : Settings) (log : Log.Logging IO.FS.Stream) (arguments : Arguments) :
    IO UInt32 := do
  match execute settings arguments (← readSources arguments) with
  | .error fault => failWith fault.message 1
  | .ok step =>
      writeLog log step.records
      match ending step with
      | .error error => failWith error.message 1
      | .ok (text, status) =>
          IO.print text
          return status

end LintReport.CommandLine

open LintReport LintReport.CommandLine

/-- Reads the settings and the arguments, and runs the program. -/
def main (words : List String) : IO UInt32 := do
  match Settings.ofEnvironment (← environmentOf Settings.variableNames) with
  | .error problem => failWith problem.message 1
  | .ok settings =>
      match CommandLine.parse .late words with
      | .error .helpRequested =>
          IO.println usage
          return 0
      | .error error => failWith (usage ++ "\n" ++ error.line) 2
      | .ok arguments =>
          match Log.Logging.setUp {} (← IO.getStderr) (← IO.getEnv "LOG_LEVEL") with
          | .error problem => failWith problem.message 1
          | .ok log => runProgram settings log arguments
