import LintReport.Keyed
import LintReport.Number.Numeral
import LintReport.Text.Quoted

/-! # Settings

What can be set from the environment. -/

namespace LintReport

open Text

/-- What can be set from the environment. -/
structure Settings where
  version : String := "0.1.0"
  /-- The tag of every diagnostic. -/
  source : String := "mago"
  /-- Whether outputs are written to the log as they come in. -/
  logsRawOutput : Bool := true
  /-- The most characters that an output may have. -/
  maxOutputChars : Int := 5000000
  deriving DecidableEq, Repr

namespace Settings

/-- A setting that should be a number and is none. -/
structure NotANumber where
  text : String
  fault : Numeral.Fault
  deriving DecidableEq, Repr

/-- The sentence for a setting that is no number; a long text is cut off. -/
def NotANumber.message (problem : NotANumber) : String :=
  match problem.fault with
  | .tooLong digits => digits.message
  | .malformed =>
      "invalid literal for int() with base 10: " ++
        String.ofList ((quoted problem.text.toList).take 200)

/-- The variables of an environment that settings are read from. -/
def variableNames : List String :=
  ["APP_VERSION", "DIAGNOSTIC_SOURCE", "LOG_RAW_OUTPUT", "MAX_OUTPUT_CHARS"]

/-- The words that switch a setting on. -/
def onWords : List String := ["1", "true", "yes", "on"]

/-- Whether a text switches a setting on, whatever its case and the blanks around it. -/
def isOn (text : String) : Bool :=
  onWords.contains (String.ofList ((trim text.toList).map Char.toLower))

/-- The settings of an environment. -/
def ofEnvironment (environment : Keyed String) : Except NotANumber Settings :=
  let defaults : Settings := {}
  let limit := (environment.get? "MAX_OUTPUT_CHARS").getD (toString defaults.maxOutputChars)
  match Numeral.read limit.toList with
  | .error fault => .error ⟨limit, fault⟩
  | .ok maxOutputChars =>
      .ok
        { version := (environment.get? "APP_VERSION").getD defaults.version
          source := (environment.get? "DIAGNOSTIC_SOURCE").getD defaults.source
          logsRawOutput :=
            ((environment.get? "LOG_RAW_OUTPUT").map isOn).getD defaults.logsRawOutput
          maxOutputChars }

end Settings

end LintReport
