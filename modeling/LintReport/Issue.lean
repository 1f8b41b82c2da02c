import LintReport.Json.Value
import LintReport.Number.Numeral
import LintReport.SourcePath
import LintReport.Text.Basic

/-! # Issues

One finding of a linter, whatever format it was reported in: how serious it is, where it stands
and what it says. Lines and columns count from zero; reports count them from one, in any JSON
value that denotes a whole number (`Ordinal.ofValue`). -/

namespace LintReport

open Json

/-! ## Severities

A word is read without regard to the case of its ASCII letters, and a word that names no severity
is taken for the most serious one. -/

/-- How serious a diagnostic is. -/
inductive Severity where
  | error
  | warning
  | info
  | hint
  deriving DecidableEq, Repr

namespace Severity

/-- All severities, the most serious one first. -/
def all : List Severity := [.error, .warning, .info, .hint]

/-- The word for a severity. -/
def name : Severity → String
  | .error => "error"
  | .warning => "warning"
  | .info => "info"
  | .hint => "hint"

/-- The number that the language server protocol gives a severity. -/
def protocolNumber : Severity → Nat
  | .error => 1
  | .warning => 2
  | .info => 3
  | .hint => 4

/-- The severity that a word names exactly. -/
def ofName? (word : String) : Option Severity :=
  all.find? fun severity => severity.name == word

/-- The severity that a word names when blanks around it and the case of its letters do
not count. -/
def ofWord (word : List Char) : Severity :=
  (ofName? (String.ofList ((Text.trim word).map Char.toLower))).getD .error

/-- The severity that a JSON value names; only a string names one. -/
def ofValue (value : Json.Value) : Severity :=
  match value with
  | .string word => ofWord word.toList
  | _ => .error

/-- Every severity is named by its own word. -/
@[simp]
theorem ofName?_name (severity : Severity) : ofName? severity.name = some severity := by
  cases severity <;> decide

end Severity

/-! ## Positions and spans

A span reaches from its start up to its stop. -/

/-- A place in a file. -/
structure Position where
  line : Int
  column : Int
  deriving DecidableEq, Repr

/-- A stretch of a file. -/
structure Span where
  start : Position
  stop : Position
  deriving DecidableEq, Repr

/-- The span of one column at a place. -/
def Span.marker (line column : Int) : Span :=
  ⟨⟨line, column⟩, ⟨line, column + 1⟩⟩

/-- A place as a JSON object. -/
def Position.toValue (position : Position) : Value :=
  .object [("line", .int position.line), ("column", .int position.column)]

/-- A span as a JSON object. -/
def Span.toValue (span : Span) : Value :=
  .object [("start", span.start.toValue), ("end", span.stop.toValue)]

end LintReport

namespace LintReport.Ordinal

open Json

/-! ## Lines and columns counted from one

What does not denote a whole number, or denotes one below the first, is replaced by a default. -/

/-- The whole number that a value denotes: a whole number itself, a floating-point
number without its fractional part, or a numeral. -/
def whole? : Value → Option Int
  | .int value => some value
  | .float value => value.truncate?
  | .string text => (Numeral.read text.toList).toOption
  | _ => none

/-- The ordinal that a value denotes. -/
def ofValue? (value : Value) : Option Int :=
  (whole? value).filter (1 ≤ ·)

/-- The ordinal that a value denotes, a default when it denotes none. -/
def ofValue (value : Value) (default : Int := 1) : Int :=
  (ofValue? value).getD default

/-- The ordinal that a run of digits denotes, the first one when it denotes none. -/
def ofDigits (digits : List Char) : Int :=
  ofValue (.string (String.ofList digits))

theorem le_of_ofValue? {value : Value} {ordinal : Int} (denoted : ofValue? value = some ordinal) :
    1 ≤ ordinal := by
  simpa using (Option.filter_eq_some_iff.mp denoted).2

/-- An ordinal with a default that is one is never below the first. -/
theorem one_le_ofValue (value : Value) {default : Int} (positive : 1 ≤ default) :
    1 ≤ ofValue value default := by
  unfold ofValue
  cases denoted : ofValue? value with
  | none => exact positive
  | some ordinal => exact le_of_ofValue? denoted

end LintReport.Ordinal

namespace LintReport

/-! ## Findings -/

/-- One finding. The end is given only if the report gives it. -/
structure Issue where
  file : String
  line : Int
  message : String
  column : Int := 0
  endLine : Option Int := none
  endColumn : Option Int := none
  severity : Severity := .error
  code : Json.Value := .null
  notes : List String := []
  help : Option String := none
  deriving DecidableEq

/-- The span of an issue: without an end it is one column wide. -/
def Issue.span (issue : Issue) : Span :=
  { start := ⟨issue.line, issue.column⟩
    stop := ⟨issue.endLine.getD issue.line, issue.endColumn.getD (issue.column + 1)⟩ }

/-- Which file issues belong to. -/
inductive Placement where
  /-- Every issue belongs to the given file. -/
  | pinned (file : String)
  /-- An issue belongs to the file that it names, below the given root. -/
  | under (root : String)
  deriving DecidableEq, Repr

/-- The file of an issue that names the given one. -/
def Placement.file : Placement → String → String
  | .pinned file, _ => file
  | .under root, reported => SourcePath.resolve reported root

/-- The file of an issue that may name one. -/
def Placement.file? : Placement → Option String → Option String
  | .pinned file, _ => some file
  | .under root, reported => reported.map (Placement.under root).file

end LintReport
