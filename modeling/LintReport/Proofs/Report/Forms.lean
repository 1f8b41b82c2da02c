import LintReport.Proofs.Issue.Ordinal
import LintReport.Proofs.Issue.Severity
import LintReport.Proofs.Issue.Written
import LintReport.Proofs.Json.Bare
import LintReport.Proofs.Json.Printed
import LintReport.Proofs.Report.Shapes

/-! # The forms of an issue

An issue in plain words (`PlainIssue`) may be reported as a text line, as a flat JSON
object or as a JSON object with an annotation. Each form is read in its own way, with a
conversion of the place and with defaults of its own, and all of them give the same
diagnostic (`ReportParser.forms_agree`). -/

namespace LintReport

open Json Text

/-! ## Places -/

namespace Ordinal

/-- A number short enough to be read is read from its digits. -/
theorem ofDigits_toDigits {number : Nat} (positive : 1 ≤ number)
    (short : (Nat.toDigits 10 number).length ≤ Numeral.maxDigits) :
    ofDigits (Nat.toDigits 10 number) = number := by
  refine ofValue_of_whole? ?_ positive 1
  rw [whole?, String.toList_ofList, Numeral.read_toDigits short]
  rfl

end Ordinal

/-! ## Plain issues -/

/-- A path that a text line can start with: it does not look like JSON, it is one line
without a blank at its start, and it holds no place of its own. -/
structure IsPlainPath (path : List Char) : Prop where
  filled : path ≠ []
  single : '\n' ∉ path
  starts : StartsWithout isBlank path
  bare : ∀ mark ∈ ['{', '[', '"'], path.head? ≠ some mark
  noPlace : ∀ char, [':', char] <:+: path → isDigit char = false

/-- A message that a text line can end with: one line without blanks at its ends. -/
structure IsPlainMessage (message : List Char) : Prop where
  filled : message ≠ []
  single : '\n' ∉ message
  starts : StartsWithout isBlank message
  ends : EndsWithout isBlank message

/-- A line or column that counts from one and is short enough to be read. -/
structure IsOrdinal (number : Nat) : Prop where
  positive : 1 ≤ number
  short : (Nat.toDigits 10 number).length ≤ Numeral.maxDigits

/-- An issue in plain words. -/
structure PlainIssue where
  path : String
  line : Nat
  column : Option Nat
  severity : Severity
  keyword : String
  message : String
  plainPath : IsPlainPath path.toList
  plainLine : IsOrdinal line
  plainColumn : ∀ number ∈ column, IsOrdinal number
  spelled : keyword.toList.map Char.toLower = severity.name.toList
  plainMessage : IsPlainMessage message.toList

namespace PlainIssue

/-- The column with the colon before it. -/
def columnText (issue : PlainIssue) : String :=
  (issue.column.map fun number => ":" ++ toString number).getD ""

/-- The issue as a text line. -/
def text (issue : PlainIssue) : String :=
  issue.path ++ ":" ++ toString issue.line ++ issue.columnText ++ ": " ++ issue.keyword ++ ": " ++
    issue.message

/-- The entries for the line and the column. -/
def place (issue : PlainIssue) : List (String × Value) :=
  ("line", .int issue.line) :: (issue.column.map fun number => ("column", Value.int number)).toList

/-- The issue as a flat JSON object. -/
def flat (issue : PlainIssue) : Value :=
  .object (("message", .string issue.message) :: ("level", .string issue.keyword) ::
    ("file", .string issue.path) :: issue.place)

/-- The issue as a JSON object with an annotation. -/
def annotated (issue : PlainIssue) : Value :=
  .object
    [("message", .string issue.message), ("level", .string issue.keyword),
      ("annotations", .array
        [.object
          [("kind", .string "Primary"),
            ("span", .object
              [("file_id", .object [("path", .string issue.path)]),
                ("start", .object issue.place)])]])]

/-- The diagnostic of the issue in a file: one column wide, without a code and without
related information. -/
def diagnostic (issue : PlainIssue) (source file : String) : Diagnostic :=
  { file
    span :=
      ⟨⟨issue.line - 1, issue.column.getD 1 - 1⟩, ⟨issue.line - 1, issue.column.getD 1⟩⟩
    message := issue.message
    severity := issue.severity
    source }

/-- The parts of the text line. -/
def parts (issue : PlainIssue) : TextLine :=
  { path := issue.path.toList
    remark :=
      { line := Nat.toDigits 10 issue.line
        column := issue.column.map (Nat.toDigits 10)
        severity := issue.keyword.toList
        message := issue.message.toList } }

variable (issue : PlainIssue)

/-! ## Reading the text line -/

/-- The text of a plain issue is a line of the grammar. -/
theorem toList_text : issue.text.toList = issue.parts.written := by
  cases column : issue.column <;>
    simp [text, columnText, column, parts, TextLine.written, TextLine.Remark.written,
      TextLine.writtenColumn, Nat.toList_repr]

theorem isNumber_toDigits (number : Nat) : TextLine.IsNumber (Nat.toDigits 10 number) :=
  ⟨Nat.toDigits_ne_nil, fun char member => isDigit_of_isDigit (isDigit_of_mem_toDigits char member)⟩

/-- A plain issue leaves nothing open that the grammar decides by preference. -/
theorem isPlain_remark : issue.parts.remark.IsPlain issue.severity where
  line := isNumber_toDigits issue.line
  column := by
    intro digits member
    obtain ⟨number, _, rfl⟩ := Option.map_eq_some_iff.mp member
    exact isNumber_toDigits number
  severity := issue.spelled
  filled := issue.plainMessage.filled
  single := issue.plainMessage.single
  starts := issue.plainMessage.starts

/-- The text of a plain issue is matched as its parts. -/
theorem ofText?_text : TextLine.ofText? issue.text.toList = some issue.parts := by
  rw [toList_text]
  exact TextLine.ofText?_written issue.plainPath.noPlace issue.plainPath.filled
    issue.plainPath.single issue.isPlain_remark

theorem head?_text : issue.text.toList.head? = issue.path.toList.head? := by
  rw [toList_text]
  exact List.head?_append_of_ne_nil _ issue.plainPath.filled

/-- The text has no blanks around it. -/
theorem trim_text : trim issue.text.toList = issue.text.toList := by
  have suffix : issue.message.toList <:+ issue.text.toList := by
    refine ⟨issue.path.toList ++ ':' :: (issue.parts.remark.line ++ ':' ::
      (TextLine.writtenColumn issue.parts.remark.column ++
        ' ' :: (issue.keyword.toList ++ [':', ' ']))), ?_⟩
    simp [toList_text, TextLine.written, TextLine.Remark.written, parts]
  refine trim_eq_self (fun char start => ?_) ?_
  · rw [head?_text] at start
    exact issue.plainPath.starts char start
  · exact issue.plainMessage.ends.of_suffix issue.plainMessage.filled suffix

/-- The text is one line. -/
theorem newline_notMem_text : '\n' ∉ issue.text.toList := by
  have digits : ∀ number, '\n' ∉ Nat.toDigits 10 number := by
    intro number member
    exact absurd (isDigit_of_mem_toDigits _ member) (by decide)
  have keyword : '\n' ∉ issue.keyword.toList := by
    intro member
    have spelled := TextLine.map_folded_of_toLower issue.spelled
    exact absurd (TextLine.isBlank_of_mem_spelling spelled _ member) (by decide)
  have column : '\n' ∉ TextLine.writtenColumn (issue.column.map (Nat.toDigits 10)) := by
    cases issue.column with
    | none => exact List.not_mem_nil
    | some number => simp [TextLine.writtenColumn, digits]
  simp [toList_text, TextLine.written, TextLine.Remark.written, parts, issue.plainPath.single,
    digits, column, keyword, issue.plainMessage.single]

/-- A text line is no document. -/
theorem read_text : ∃ fault, Document.read issue.text.toList = .error fault := by
  have starts : StartsWithout isSpace issue.text.toList := by
    intro char start
    rw [head?_text] at start
    cases space : isSpace char with
    | false => rfl
    | true =>
        exact absurd (issue.plainPath.starts char start) (by simp [isBlank_of_isSpace space])
  have bare : ∀ mark ∈ ['{', '[', '"'], issue.text.toList.head? ≠ some mark := by
    rw [head?_text]
    exact issue.plainPath.bare
  have colon : ':' ∈ issue.text.toList := by
    simp [toList_text, TextLine.written]
  obtain ⟨fault, failed⟩ := parse_bare starts bare colon
  exact ⟨fault, by rw [Document.read, trim_text, failed]⟩

/-- The only issue of a text line is the one with the parts of the line. -/
theorem issues_text (placement : Placement) :
    (Findings.ofOutput placement issue.text).issues = [issue.parts.toIssue placement] := by
  obtain ⟨fault, failed⟩ := issue.read_text
  have cut : lines issue.text.toList = [issue.text.toList] :=
    splitAt_of_notMem issue.newline_notMem_text
  have filled : issue.text.toList ≠ [] := by
    simp [toList_text, TextLine.written]
  have noObject : lineObject? issue.text.toList = none := by
    rw [lineObject?, if_neg]
    rw [head?_text]
    exact issue.plainPath.bare '{' (by decide)
  have reading : LineReading.ofLine placement issue.text.toList =
      .found (issue.parts.toIssue placement) := by
    simp only [LineReading.ofLine, trim_text, filled, if_false, noObject, ofText?_text]
  rw [Findings.ofOutput, failed]
  simp only [Findings.ofLines, cut, List.map_cons, List.map_nil, reading]
  rfl

/-- The text reports the diagnostic of the issue. -/
theorem diagnostic_text (placement : Placement) (source : String) :
    Diagnostic.ofIssue (issue.parts.toIssue placement) source =
      issue.diagnostic source (placement.file issue.path) := by
  have line := Ordinal.ofDigits_toDigits issue.plainLine.positive issue.plainLine.short
  have column : ((issue.column.map (Nat.toDigits 10)).map Ordinal.ofDigits).getD 1 =
      ((issue.column.getD 1 : Nat) : Int) := by
    cases given : issue.column with
    | none => rfl
    | some number =>
        have plain := issue.plainColumn number given
        exact Ordinal.ofDigits_toDigits plain.positive plain.short
  have severity := Severity.ofWord_spelled issue.spelled
  simp only [TextLine.toIssue, parts, String.ofList_toList, line, column, severity,
    Diagnostic.ofIssue, Issue.span, Issue.furtherMessages, diagnostic]
  simp

/-! ## Reading the JSON objects -/

/-- What a JSON value must give for the issue to be read from it. -/
structure IsReportedBy (raw : Value) : Prop where
  message : raw.get? "message" = some (.string issue.message)
  level : raw.getD "level" = .string issue.keyword
  file : Issue.reportedFile? raw = some issue.path
  extent : Issue.extent raw =
    ⟨issue.line, issue.column.getD 1, issue.line, issue.column.getD 1 + 1⟩
  code : raw.get? "code" = none
  notes : raw.get? "notes" = none
  help : raw.get? "help" = none

theorem isBlankText_message : isBlankText issue.message.toList = false := by
  obtain ⟨first, rest, parts⟩ := List.exists_cons_of_ne_nil issue.plainMessage.filled
  have starts := issue.plainMessage.starts
  rw [parts] at starts ⊢
  simp [isBlankText, startsWithout_cons.mp starts]

/-- An object with the fields of the issue reports the same diagnostic. -/
theorem diagnostic_value {raw : Value} (reported : issue.IsReportedBy raw) (placement : Placement)
    (source : String) :
    (Issue.ofValue? placement raw).map (Diagnostic.ofIssue · source) =
      some (issue.diagnostic source (placement.file issue.path)) := by
  have message : Issue.message? raw = some issue.message := by
    simp [Issue.message?, reported.message, Value.string?, issue.isBlankText_message]
  have file : placement.file? (some issue.path) = some (placement.file issue.path) := by
    cases placement <;> rfl
  have severity : Severity.ofValue (.string issue.keyword) = issue.severity :=
    Severity.ofWord_spelled issue.spelled
  have code : Issue.codeOf raw = .null := by
    rw [Issue.codeOf, Value.getD, reported.code]
    rfl
  have notes : Issue.notesOf raw = [] := by
    rw [Issue.notesOf, reported.notes]
    rfl
  simp only [Issue.ofValue?, message, reported.file, file, reported.extent, reported.level,
    severity, code, notes, reported.help, Option.map_some, Diagnostic.ofIssue, Issue.span,
    Issue.furtherMessages, diagnostic]
  simp

/-- The entries for a place denote its line and its column, a missing column the first. -/
theorem ofValue_place {raw : Value} (line : raw.getD "line" = .int issue.line)
    (column : raw.getD "column" = (issue.column.map fun number => Value.int number).getD .null) :
    Ordinal.ofValue (raw.getD "line") = issue.line ∧
      Ordinal.ofValue (raw.getD "column") = issue.column.getD 1 := by
  constructor
  · rw [line]
    exact Ordinal.ofValue_of_whole? rfl issue.plainLine.positive 1
  · rw [column]
    cases given : issue.column with
    | none => rfl
    | some number =>
        exact Ordinal.ofValue_of_whole? rfl (issue.plainColumn number given).positive 1

/-- The place is found under its two names, the column as null if there is none. -/
theorem getD_place : (Value.object issue.place).getD "line" = .int issue.line ∧
    (Value.object issue.place).getD "column" =
      (issue.column.map fun number => Value.int number).getD .null := by
  cases given : issue.column <;>
    simp [place, given, Value.getD, Value.get?, Value.entries, Keyed.get?]

theorem path_ne_empty : issue.path ≠ "" := by
  intro empty
  exact issue.plainPath.filled (by rw [empty]; rfl)

/-- The flat object has the fields of the issue. -/
theorem isReportedBy_flat : issue.IsReportedBy issue.flat := by
  obtain ⟨line, column⟩ := issue.getD_place
  obtain ⟨line, column⟩ : Ordinal.ofValue (issue.flat.getD "line") = issue.line ∧
      Ordinal.ofValue (issue.flat.getD "column") = issue.column.getD 1 :=
    issue.ofValue_place line column
  have absent : ∀ name, name ∉ ["message", "level", "file", "line", "column"] →
      issue.flat.get? name = none := by
    intro name other
    simp only [List.mem_cons, List.not_mem_nil, or_false, not_or] at other
    cases given : issue.column <;>
      simp [flat, place, given, Value.get?, Value.entries, Keyed.get?, Ne.symm, other]
  have noAnchor : Issue.anchor? issue.flat = none := by
    rw [Issue.anchor?, absent "annotations" (by decide)]
    rfl
  have here : issue.flat.entries.has "line" = true := by
    simp [flat, place, Value.entries, Keyed.has, Keyed.get?]
  refine ⟨rfl, rfl, ?_, ?_, absent _ (by decide), absent _ (by decide), absent _ (by decide)⟩
  · rw [Issue.reportedFile?, noAnchor]
    simp [flat, Value.get?, Value.entries, Keyed.get?, Value.filledString?, issue.path_ne_empty]
  · simp only [Issue.extent, noAnchor, here, if_true, line, column]

/-- The annotated object has them too, within its primary annotation. -/
theorem isReportedBy_annotated : issue.IsReportedBy issue.annotated := by
  obtain ⟨line, column⟩ := issue.getD_place
  obtain ⟨line, column⟩ := issue.ofValue_place line column
  have anchor : Issue.anchor? issue.annotated = some (.object
      [("kind", .string "Primary"),
        ("span", .object
          [("file_id", .object [("path", .string issue.path)]),
            ("start", .object issue.place)])]) := rfl
  refine ⟨rfl, rfl, ?_, ?_, rfl, rfl, rfl⟩
  · rw [Issue.reportedFile?, anchor]
    simp [Issue.anchoredFile?, Value.getD, Value.get?, Value.entries, Keyed.get?,
      Value.filledString?, issue.path_ne_empty]
  · have start : Issue.extent issue.annotated =
        ⟨Ordinal.ofValue ((Value.object issue.place).getD "line"),
          Ordinal.ofValue ((Value.object issue.place).getD "column"),
          Ordinal.ofValue ((Value.object issue.place).getD "line"),
          Ordinal.ofValue ((Value.object issue.place).getD "column") + 1⟩ := rfl
    rw [start, line, column]

end PlainIssue

/-! ## Outputs -/

/-- Whether an output is a document with one issue, the given value. -/
def HoldsIssue (output : String) (raw : Value) : Prop :=
  ∃ document, Document.read output.toList = .ok document ∧ document.items = [raw]

/-- Whether an output reports a plain issue in one of the three forms. -/
inductive PlainIssue.IsFormIn (issue : PlainIssue) (output : String) : Prop where
  | text (same : output = issue.text)
  | flat (holds : HoldsIssue output issue.flat)
  | annotated (holds : HoldsIssue output issue.annotated)

/-- A printed object that is no wrapper is a document with one issue. -/
theorem holdsIssue_print {entries : List (String × Value)} (layout : Layout)
    (writable : (Value.object entries).IsWritable maxDepth)
    (noWrapper : ((Value.object entries).get? "issues").bind Value.items? = none) :
    HoldsIssue ((Value.object entries).print layout) (.object entries) := by
  refine ⟨.single (.object entries), ?_, rfl⟩
  rw [Value.print, String.toList_ofList, Document.read_object (denotes_write layout writable)]
  exact congrArg Except.ok (Document.ofValue_object rfl noWrapper)

namespace PlainIssue

variable (issue : PlainIssue)

/-- A place can be written. -/
theorem isWritable_place (depth : Nat) : (Value.object issue.place).IsWritable (depth + 1) := by
  have line := issue.plainLine.short
  cases given : issue.column with
  | none => simp [place, given, Keyed.keys, Value.IsWritable, line]
  | some number =>
      have column := (issue.plainColumn number given).short
      simp [place, given, Keyed.keys, Value.IsWritable, line, column]

/-- The flat object can be written, one level above its place. -/
theorem isWritable_flat (depth : Nat) : issue.flat.IsWritable (depth + 1) := by
  obtain ⟨distinct, written⟩ := issue.isWritable_place depth
  refine ⟨?_, fun entry member => ?_⟩
  · cases given : issue.column <;> simp [place, given, Keyed.keys]
  · simp only [List.mem_cons] at member
    rcases member with rfl | rfl | rfl | member
    · exact Value.isWritable_string depth _
    · exact Value.isWritable_string depth _
    · exact Value.isWritable_string depth _
    · exact written entry member

/-- The annotated object can be written, with the levels of its annotation. -/
theorem isWritable_annotated (depth : Nat) : issue.annotated.IsWritable (depth + 5) := by
  have place := issue.isWritable_place depth
  simpa [annotated, Keyed.keys, Value.IsWritable] using place

/-- The flat object is printed as a document with the issue. -/
theorem holdsIssue_flat (layout : Layout) : HoldsIssue (issue.flat.print layout) issue.flat := by
  refine holdsIssue_print layout (issue.isWritable_flat (maxDepth - 1)) ?_
  cases given : issue.column <;> simp [place, given, Value.get?, Value.entries, Keyed.get?]

/-- The annotated object is printed as a document with the issue. -/
theorem holdsIssue_annotated (layout : Layout) :
    HoldsIssue (issue.annotated.print layout) issue.annotated :=
  holdsIssue_print layout (issue.isWritable_annotated (maxDepth - 5)) rfl

/-- Whatever form it is reported in, the issue is shown as the same diagnostic. -/
theorem diagnostics_eq {output : String} (form : issue.IsFormIn output) (placement : Placement)
    (source : String) :
    (Findings.ofOutput placement output).diagnostics source =
      [issue.diagnostic source (placement.file issue.path)] := by
  have value : ∀ raw, HoldsIssue output raw → issue.IsReportedBy raw →
      (Findings.ofOutput placement output).diagnostics source =
        [issue.diagnostic source (placement.file issue.path)] := by
    intro raw ⟨document, read, only⟩ reported
    have told := issue.diagnostic_value reported placement source
    obtain ⟨found, same, shown⟩ := Option.map_eq_some_iff.mp told
    simp only [Findings.ofOutput, read, Findings.ofDocument, Findings.diagnostics, only,
      List.filterMap_cons, same, List.filterMap_nil, List.map_cons, List.map_nil, shown]
  cases form with
  | text same =>
      rw [same, Findings.diagnostics, issues_text, List.map_singleton, diagnostic_text]
  | flat holds => exact value _ holds issue.isReportedBy_flat
  | annotated holds => exact value _ holds issue.isReportedBy_annotated

end PlainIssue

/-! ## Reports -/

namespace ReportParser

/-- **The forms of an issue agree.** The text line and every document that holds the flat
or the annotated object give one diagnostic, the same in all of them: in the given file
for a file, and under the file that the path leads to for a project. Both objects are held
by what they are written as. -/
theorem forms_agree (parser : ReportParser) (issue : PlainIssue) (file root : String) :
    (∀ layout, HoldsIssue (issue.flat.print layout) issue.flat ∧
      HoldsIssue (issue.annotated.print layout) issue.annotated) ∧
    ∀ output, issue.IsFormIn output →
      (parser.fileReport output file).diagnostics = [issue.diagnostic parser.source file] ∧
      (parser.projectReport output root).diagnostics =
        [(SourcePath.resolve issue.path root,
          [issue.diagnostic parser.source (SourcePath.resolve issue.path root)])] := by
  refine ⟨fun layout => ⟨issue.holdsIssue_flat layout, issue.holdsIssue_annotated layout⟩,
    fun output form => ⟨issue.diagnostics_eq form (.pinned file) parser.source, ?_⟩⟩
  rw [projectReport, issue.diagnostics_eq form (.under root) parser.source]
  rfl

end ReportParser

/-- A warning with a message that holds what looks like another place. -/
def PlainIssue.unused : PlainIssue where
  path := "a.php"
  line := 3
  column := some 5
  severity := .warning
  keyword := "Warning"
  message := "unused: 1:2"
  plainPath := by
    refine ⟨by decide, by decide, startsWithout_cons.mpr rfl, by simp, fun char place => ?_⟩
    exact absurd (place.mem List.mem_cons_self) (by decide)
  plainLine := ⟨by decide, by decide⟩
  plainColumn := fun number member => Option.some.inj member ▸ ⟨by decide, by decide⟩
  spelled := by decide
  plainMessage :=
    ⟨by decide, by decide, startsWithout_cons.mpr rfl, @endsWithout_of_getLast? _ '2' _ rfl rfl⟩

theorem ReportParser.forms_agree_unused :
    PlainIssue.unused.text.toList = "a.php:3:5: Warning: unused: 1:2".toList ∧
    ∀ output ∈ [PlainIssue.unused.text, PlainIssue.unused.flat.print .inline,
        PlainIssue.unused.annotated.print (.indented 2)],
      (({} : ReportParser).fileReport output "b.php").diagnostics =
        [{ file := "b.php"
           span := ⟨⟨2, 4⟩, ⟨2, 5⟩⟩
           message := "unused: 1:2"
           severity := .warning
           source := "mago" }] := by
  obtain ⟨printed, agree⟩ := forms_agree {} PlainIssue.unused "b.php" ""
  refine ⟨by decide, fun output member => ?_⟩
  simp only [List.mem_cons, List.not_mem_nil, or_false] at member
  rcases member with rfl | rfl | rfl
  · exact (agree _ (.text rfl)).1
  · exact (agree _ (.flat (printed .inline).1)).1
  · exact (agree _ (.annotated (printed (.indented 2)).2)).1

end LintReport
