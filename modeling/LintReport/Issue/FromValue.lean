import LintReport.Issue
import LintReport.Json.Printer

/-! # Issues reported as JSON

Reading an issue from a JSON value. Its place comes from one annotation, the primary
one if there is one and the first one otherwise; an older format gives a line and a
column in the issue itself. An issue without a message is dropped, and so is one
that names no file when the file is to be taken from it. -/

namespace LintReport.Issue

open Json

/-- Whether an annotation is a primary one. -/
def isPrimary (mark : Value) : Bool :=
  mark.get? "kind" == some (.string "Primary")

/-- The annotation that decides where an issue stands. -/
def anchor? (raw : Value) : Option Value :=
  match (raw.get? "annotations").bind Value.items? with
  | some (first :: rest) => some (((first :: rest).find? isPrimary).getD first)
  | _ => none

/-- The file that an annotation names: its path, or else its name. -/
def anchoredFile? (anchor : Value) : Option String :=
  let file := (anchor.getD "span").getD "file_id"
  ((file.get? "path").bind Value.filledString?).or ((file.get? "name").bind Value.filledString?)

/-- The file that an issue names. -/
def reportedFile? (raw : Value) : Option String :=
  ((anchor? raw).bind anchoredFile?).or ((raw.get? "file").bind Value.filledString?)

/-- Where an issue stands, its lines and columns counted from one. -/
structure Extent where
  line : Int
  column : Int
  endLine : Int
  endColumn : Int
  deriving DecidableEq, Repr

/-- The extent of the span of an annotation. A missing end is that of one column. -/
def anchoredExtent (anchor : Value) : Extent :=
  let span := anchor.getD "span"
  let start := span.getD "start"
  let stop := span.getD "end"
  let line := Ordinal.ofValue (start.getD "line")
  let column := Ordinal.ofValue (start.getD "column")
  { line
    column
    endLine := Ordinal.ofValue (stop.getD "line") line
    endColumn := Ordinal.ofValue (stop.getD "column") (column + 1) }

/-- The extent of an issue; without any place it is the first column of its file. -/
def extent (raw : Value) : Extent :=
  match anchor? raw with
  | some anchor => anchoredExtent anchor
  | none =>
      let line := Ordinal.ofValue (raw.getD "line")
      let column := if raw.entries.has "line" then Ordinal.ofValue (raw.getD "column") else 1
      { line, column, endLine := line, endColumn := column + 1 }

/-- The message of an issue, if it says anything. -/
def message? (raw : Value) : Option String :=
  ((raw.get? "message").bind Value.string?).filter fun message =>
    !Text.isBlankText message.toList

/-- The notes of an issue, each shown as text. -/
def notesOf (raw : Value) : List String :=
  (((raw.get? "notes").bind Value.items?).getD []).map Value.shown

/-- The code of an issue, `null` for one that says nothing. -/
def codeOf (raw : Value) : Value :=
  let code := raw.getD "code"
  if code.isVoid then .null else code

/-- The issue that a value reports. -/
def ofValue? (placement : Placement) (raw : Value) : Option Issue :=
  match message? raw, placement.file? (reportedFile? raw) with
  | some message, some file =>
      let extent := extent raw
      some
        { file
          message
          line := extent.line - 1
          column := extent.column - 1
          endLine := some (extent.endLine - 1)
          endColumn := some (extent.endColumn - 1)
          severity := Severity.ofValue (raw.getD "level")
          code := codeOf raw
          notes := notesOf raw
          help := (raw.get? "help").bind Value.filledString? }
  | _, _ => none

end LintReport.Issue
