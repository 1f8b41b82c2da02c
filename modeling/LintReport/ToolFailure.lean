import LintReport.Number.Numeral
import LintReport.Text.Basic

/-! # Failures of the tool itself

A linter that fails says so in its output, with `ERROR` lines in place of issues. A
broken configuration is told apart by its own sentence, mostly with the line and the
column at which the configuration file could not be read. -/

namespace LintReport

open Text

/-- What kind of failure a tool reports. -/
inductive FailureKind where
  /-- The configuration could not be built. -/
  | configuration
  /-- The run itself failed. -/
  | execution
  deriving DecidableEq, Repr

/-- The word for a kind of failure. -/
def FailureKind.name : FailureKind → String
  | .configuration => "configuration"
  | .execution => "execution"

/-- A failure that a tool reports. -/
structure ToolFailure where
  kind : FailureKind
  line : Option Int := none
  column : Option Int := none
  errorLines : List String := []
  deriving DecidableEq, Repr

namespace ToolFailure

/-- What every failure is marked with. -/
def errorMark : List Char := "ERROR".toList

/-- The sentence that tells of a broken configuration. -/
def configurationPhrase : List Char := "Failed to build the configuration".toList

/-- Whether a text says that the tool failed. -/
def isMarked (text : List Char) : Bool :=
  occurs errorMark text

/-- The digits of a line and a column of the configuration file, when the sentence that
gives them starts right here. -/
def placeHere? (text : List Char) : Option (List Char × List Char) :=
  match after? "TOML parse error at line ".toList text with
  | none => none
  | some rest =>
      let line := rest.takeWhile isDigit
      match after? ", column ".toList (rest.dropWhile isDigit) with
      | none => none
      | some rest =>
          let column := rest.takeWhile isDigit
          if line = [] ∨ column = [] then none else some (line, column)

/-- The digits of the first line and column of the configuration file in a text. -/
def place? : List Char → Option (List Char × List Char)
  | [] => none
  | char :: rest => (placeHere? (char :: rest)).or (place? rest)

/-- The failure that an output reports, if it reports one. A line or column with too
many digits cannot be read. -/
def detect? (output : String) : Except Numeral.TooManyDigits (Option ToolFailure) :=
  let text := output.toList
  if !isMarked text then .ok none
  else if occurs configurationPhrase text then
    match place? text with
    | none => .ok (some { kind := .configuration })
    | some (line, column) =>
        match Numeral.ofDigits line, Numeral.ofDigits column with
        | .ok line, .ok column =>
            .ok (some { kind := .configuration, line := some line, column := some column })
        | .error problem, _ => .error problem
        | _, .error problem => .error problem
  else
    .ok (some
      { kind := .execution
        errorLines := ((lines text).filter isMarked).map String.ofList })

/-- One sentence about a failure of the given command. -/
def describe (failure : ToolFailure) (command : String) : String :=
  match failure.kind, failure.line with
  | .configuration, some line =>
      let column := (failure.column.map toString).getD "None"
      s!"Mago {command}: Configuration error in mago.toml at line {line}, column {column}"
  | .configuration, none => s!"Mago {command}: Failed to build configuration"
  | .execution, _ => s!"Mago {command}: Execution error occurred"

end ToolFailure

end LintReport
