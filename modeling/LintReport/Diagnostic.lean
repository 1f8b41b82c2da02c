import LintReport.Issue

/-! # Diagnostics

What an editor shows for an issue: a message at a span of a file, with the notes and
the help of the issue as related information at the same place. A diagnostic is handed out
as a JSON object of its own, with a copy of its code, and a code in which too many
containers nest is not copied (`Diagnostic.copied`). -/

namespace LintReport

open Json

/-- A further message that belongs to a diagnostic. -/
structure RelatedInformation where
  file : String
  span : Span
  message : String
  deriving DecidableEq, Repr

/-- A message at a span of a file. -/
structure Diagnostic where
  file : String
  span : Span
  message : String
  severity : Severity
  source : String
  code : Value := .null
  related : List RelatedInformation := []
  deriving DecidableEq

/-- The messages that go with an issue: its notes in order, and then its help unless
that is empty. -/
def Issue.furtherMessages (issue : Issue) : List String :=
  issue.notes.map ("Note: " ++ ·) ++
    ((issue.help.filter (· ≠ "")).map ("Help: " ++ ·)).toList

namespace Diagnostic

/-- The diagnostic that shows an issue and is tagged with a source. -/
def ofIssue (issue : Issue) (source : String) : Diagnostic :=
  { file := issue.file
    span := issue.span
    message := issue.message
    severity := issue.severity
    source
    code := issue.code
    related := issue.furtherMessages.map fun message => ⟨issue.file, issue.span, message⟩ }

end Diagnostic

/-- Related information as a JSON object. -/
def RelatedInformation.toValue (information : RelatedInformation) : Value :=
  .object
    [("file", .string information.file), ("range", information.span.toValue),
      ("message", .string information.message)]

/-- A diagnostic as a JSON object. -/
def Diagnostic.toValue (diagnostic : Diagnostic) : Value :=
  .object
    [("file", .string diagnostic.file), ("range", diagnostic.span.toValue),
      ("message", .string diagnostic.message), ("severity", .string diagnostic.severity.name),
      ("source", .string diagnostic.source), ("code", diagnostic.code),
      ("related_information", .array (diagnostic.related.map RelatedInformation.toValue)),
      ("lsp_severity", .int diagnostic.severity.protocolNumber)]

/-- The number of containers that may nest in a value that is copied. Each of them takes two of
the thousand calls that may be open at a time, and a few are open before the first. -/
def copyDepth : Nat := 497

/-- Why a value is not copied. -/
inductive CopyFault where
  /-- Too many containers nest in it. -/
  | tooDeep
  deriving DecidableEq, Repr

/-- The sentence for a fault of copying. -/
def CopyFault.message : CopyFault → String
  | .tooDeep => "maximum recursion depth exceeded"

/-- Whether the code of a diagnostic can be copied. -/
def Diagnostic.isCopyable (diagnostic : Diagnostic) : Bool :=
  diagnostic.code.depth ≤ copyDepth

/-- A diagnostic as a JSON object that shares nothing with it. -/
def Diagnostic.copied (diagnostic : Diagnostic) : Except CopyFault Value :=
  if diagnostic.isCopyable then .ok diagnostic.toValue else .error .tooDeep

/-- A copy is the diagnostic as it is written, and there is one as long as its code is not too
deep. -/
theorem Diagnostic.copied_eq_ok_iff {diagnostic : Diagnostic} {value : Value} :
    diagnostic.copied = .ok value ↔
      diagnostic.code.depth ≤ copyDepth ∧ value = diagnostic.toValue := by
  by_cases copyable : diagnostic.code.depth ≤ copyDepth
  · simp [copied, isCopyable, copyable, eq_comm]
  · simp [copied, isCopyable, copyable]

/-- Whether the codes of all diagnostics can be copied. -/
def Diagnostic.areCopyable (byFile : Keyed (List Diagnostic)) : Bool :=
  byFile.all fun (_, diagnostics) => diagnostics.all isCopyable

theorem Diagnostic.areCopyable_iff {byFile : Keyed (List Diagnostic)} :
    areCopyable byFile ↔
      ∀ entry ∈ byFile, ∀ diagnostic ∈ entry.2, diagnostic.code.depth ≤ copyDepth := by
  simp [areCopyable, isCopyable]

/-- Diagnostics as a JSON array. -/
def Diagnostic.arrayOf (diagnostics : List Diagnostic) : Value :=
  .array (diagnostics.map Diagnostic.toValue)

/-- Diagnostics by file as a JSON object. -/
def Diagnostic.objectOf (byFile : Keyed (List Diagnostic)) : Value :=
  .object (byFile.map fun (file, diagnostics) => (file, arrayOf diagnostics))

end LintReport
