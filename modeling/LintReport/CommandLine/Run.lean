import LintReport.CommandLine.Arguments
import LintReport.Text.Encoding

/-! # Running from the command line

What the program does once its arguments are read: the input is read as text, one check
is made with an empty collection, and the result is printed as indented JSON. The input is
a file, which may hold any bytes and whose line ends are made alike, or the standard input,
which has to be UTF-8 and whose line ends are treated as the host has set it up. -/

namespace LintReport.CommandLine

open Json

/-- The name under which the program reports wrong arguments. -/
def programName : String := "parse_output.py"

/-- How the program is used. -/
def usage : String :=
  s!"usage: {programName} [-h] [--input INPUT] (--file FILE | --workspace WORKSPACE) " ++
    "[--tool TOOL] [--command \x7b" ++ ",".intercalate runCommands ++ "\x7d]"

/-- The line that reports wrong arguments. -/
def UsageError.line (error : UsageError) : String :=
  s!"{programName}: error: {error.message}"

/-- The file to read the output from; a path that says nothing stands for the standard
input. -/
def Arguments.inputPath? (arguments : Arguments) : Option String :=
  arguments.input.bind Label.filled?

/-- The target of the run. A path of a file that says nothing counts as no file at
all. -/
def Arguments.target (arguments : Arguments) : CheckTarget :=
  match arguments.file.bind Label.filled? with
  | some path => .file path
  | none => .workspace arguments.workspace

/-- The check that the arguments ask for. -/
def Arguments.request (arguments : Arguments) (output : String) : CheckRequest :=
  { tool := arguments.tool
    command := arguments.command
    target := arguments.target
    output }

/-- What a stream makes of the line ends in its text. -/
inductive LineEnds where
  /-- They stay as they are. -/
  | kept
  /-- Every one of them is read as a newline. -/
  | unified
  deriving DecidableEq, Repr

/-- The text that a stream gives for a text. -/
def LineEnds.read : LineEnds → List Char → List Char
  | .kept, text => text
  | .unified, text => Text.unifyLineEnds text

/-- The text of an input. -/
def textOfBytes (lineEnds : LineEnds) (bytes : List UInt8) : String :=
  String.ofList (lineEnds.read (Text.Utf8.decode bytes))

/-- The exit status of the program: zero if the output was understood and the tool did
not fail. -/
def exitStatus : Outcome → UInt32
  | .issuesFound => 0
  | .noIssues => 0
  | .unparsedOutput => 1
  | .toolError => 1

/-- What the program prints for a result. -/
def printed (result : CheckResult) : String :=
  result.toValue.print (.indented 2) ++ "\n"

/-- The checker that the settings ask for. -/
def checkerOf (settings : Settings) : Checker :=
  { registry := ⟨[{ source := settings.source }]⟩, settings }

/-- Makes the check that the arguments ask for, on the text of the input. -/
def run (settings : Settings) (arguments : Arguments) (output : String) : Checker.Step :=
  (checkerOf settings).check .empty (arguments.request output)

/-- What the program can read: the bytes on its standard input, what this makes of line ends,
and the bytes of each file. -/
structure Sources where
  standardInput : List UInt8
  lineEnds : LineEnds
  file : String → List UInt8

/-- The text of the input that the arguments name. -/
def Arguments.inputText (arguments : Arguments) (sources : Sources) :
    Except Text.Utf8.Fault String :=
  match arguments.inputPath? with
  | some path => .ok (textOfBytes .unified (sources.file path))
  | none =>
      match Text.Utf8.fault? sources.standardInput with
      | some fault => .error fault
      | none => .ok (textOfBytes sources.lineEnds sources.standardInput)

/-- Makes the check that the arguments ask for, on the input that they name. -/
def execute (settings : Settings) (arguments : Arguments) (sources : Sources) :
    Except Text.Utf8.Fault Checker.Step :=
  match arguments.inputText sources with
  | .error fault => .error fault
  | .ok output => .ok (run settings arguments output)

/-- Why the program prints no result. -/
inductive EndFault where
  /-- The check has none. -/
  | refused (error : CheckError)
  /-- It cannot be copied. -/
  | uncopied (fault : CopyFault)
  /-- It cannot be written out. -/
  | unwritable
  deriving DecidableEq, Repr

/-- The sentence for the end of the program without a result. -/
def EndFault.message : EndFault → String
  | .refused error => error.message
  | .uncopied fault => fault.message
  | .unwritable => "the result cannot be written out"

/-- How the program ends after a check: with the text that it prints and its exit status,
or with an error. -/
def ending (step : Checker.Step) : Except EndFault (String × UInt32) :=
  match step.answer with
  | .error error => .error (.refused error)
  | .ok result =>
      match result.copied with
      | .error fault => .error (.uncopied fault)
      | .ok value =>
          match value.dump (.indented 2) with
          | some text => .ok (text ++ "\n", exitStatus result.outcome)
          | none => .error .unwritable

end LintReport.CommandLine
