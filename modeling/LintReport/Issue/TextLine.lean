import LintReport.Issue
import LintReport.Text.Basic

/-! # Issues reported as text lines

A line `path:line:column: severity: message`, in which the column may be missing. The
path is as short as the rest of the line allows, and it may hold colons itself. The
severity is one of the four words in any case, and the letter `i` in it may also be
the Turkish dotted capital or dotless small one. -/

namespace LintReport

open Text

/-- What a text line says after its path, as it is written. -/
structure TextLine.Remark where
  line : List Char
  column : Option (List Char)
  severity : List Char
  message : List Char
  deriving DecidableEq, Repr

/-- The parts of a text line. -/
structure TextLine where
  path : List Char
  remark : TextLine.Remark
  deriving DecidableEq, Repr

namespace TextLine

/-- Whether a character is a spelling of a small letter of ASCII. -/
def spells (letter char : Char) : Bool :=
  char.toLower == letter || (letter == 'i' && (char == '\u0130' || char == '\u0131'))

/-- A spelling of a word at the start of a text, and the rest. -/
def spelledWord? : List Char → List Char → Option (List Char × List Char)
  | [], text => some ([], text)
  | _ :: _, [] => none
  | letter :: word, char :: text =>
      if spells letter char then
        (spelledWord? word text).map fun (spelling, rest) => (char :: spelling, rest)
      else none

/-- The spelling of a severity's word with a colon after it, and the rest. -/
def severityOf? (text : List Char) : Option (List Char × List Char) :=
  Severity.all.findSome? fun severity =>
    match spelledWord? severity.name.toList text with
    | some (spelling, ':' :: rest) => some (spelling, rest)
    | _ => none

/-- The first line of a text, if it is not empty and nothing follows it but its line
end. -/
def onlyLine? (text : List Char) : Option (List Char) :=
  let line := text.takeWhile (· ≠ '\n')
  let rest := text.dropWhile (· ≠ '\n')
  if line ≠ [] ∧ (rest = [] ∨ rest = ['\n']) then some line else none

/-- The message: the only line that is left when as many blanks are skipped as can
be. -/
def messageOf? : List Char → Option (List Char)
  | [] => none
  | char :: rest =>
      if isBlank char then (messageOf? rest).or (onlyLine? (char :: rest))
      else onlyLine? (char :: rest)

/-- The remark that stands after its line and column. -/
def Remark.afterPlace? (line : List Char) (column : Option (List Char)) (text : List Char) :
    Option Remark :=
  match severityOf? (text.dropWhile isBlank) with
  | none => none
  | some (severity, rest) =>
      (messageOf? rest).map fun message => { line, column, severity, message }

/-- The remark that stands after the colon of a path. A digit after the colon of the
line starts a column. -/
def Remark.ofText? (text : List Char) : Option Remark :=
  match text.takeWhile isDigit, text.dropWhile isDigit with
  | [], _ => none
  | line, ':' :: rest =>
      match rest.takeWhile isDigit, rest.dropWhile isDigit with
      | [], _ => afterPlace? line none rest
      | column, ':' :: rest => afterPlace? line (some column) rest
      | _, _ => none
  | _, _ => none

/-- The remark that stands right here, with the colon of a path before it. -/
def Remark.here? : List Char → Option Remark
  | ':' :: text => ofText? text
  | _ => none

/-- The parts of a text line. The path takes in one more character only when no remark
stands right after it. -/
def ofText? : List Char → Option TextLine
  | [] => none
  | char :: rest =>
      if char = '\n' then none
      else match Remark.here? rest with
        | some remark => some { path := [char], remark }
        | none => (ofText? rest).map fun line => { line with path := char :: line.path }

/-- The issue that a text line reports. -/
def toIssue (placement : Placement) (line : TextLine) : Issue :=
  { file := placement.file (String.ofList line.path)
    line := Ordinal.ofDigits line.remark.line - 1
    column := (line.remark.column.map Ordinal.ofDigits).getD 1 - 1
    severity := Severity.ofWord line.remark.severity
    message := String.ofList line.remark.message }

end TextLine

end LintReport
