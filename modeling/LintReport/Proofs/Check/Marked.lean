import LintReport.Proofs.Check.Result
import LintReport.Proofs.Collection.Filing
import LintReport.Proofs.Report.Forms
import LintReport.Proofs.ToolFailure.Detection

/-! # Reports and failures

A report on a run that found issues is shown as such exactly if the mark of failures is
nowhere in its text (`Checker.reported_iff_unmarked`). The mark is looked for before
anything is read, so it does not matter where in the report it stands. For a text line
that is its path, the word of its severity, or its message (`PlainIssue.marked_text_iff`),
and a severity in capital letters is enough (`Checker.result_shouted`). -/

namespace LintReport

open Text ToolFailure

/-- A text line is taken for a failure exactly if its path, the word of its severity or its
message has the mark of failures. -/
theorem PlainIssue.marked_text_iff (issue : PlainIssue) :
    errorMark <:+: issue.text.toList ↔
      errorMark <:+: issue.path.toList ∨ errorMark <:+: issue.keyword.toList ∨
        errorMark <:+: issue.message.toList := by
  have colon : ':' ∉ errorMark := by decide
  have space : ' ' ∉ errorMark := by decide
  have nothing : ¬ errorMark <:+: [] := by
    intro marked
    exact absurd (List.infix_nil.mp marked) (by decide)
  have unmarked : ∀ number, ¬ errorMark <:+: Nat.toDigits 10 number := by
    intro number marked
    have letter : 'E' ∈ Nat.toDigits 10 number := marked.mem (by decide)
    exact absurd (isDigit_of_mem_toDigits _ letter) (by decide)
  have column : ¬ errorMark <:+: TextLine.writtenColumn (issue.column.map (Nat.toDigits 10)) := by
    cases issue.column with
    | none => exact nothing
    | some number =>
        intro marked
        rcases (isInfix_append_cons_iff colon).mp marked with inside | inside
        · exact unmarked number inside
        · exact nothing inside
  have message : errorMark <:+: [] ++ ' ' :: issue.message.toList ↔
      errorMark <:+: issue.message.toList := by
    rw [isInfix_append_cons_iff space, or_iff_right nothing]
  rw [List.nil_append] at message
  rw [toList_text, TextLine.written, isInfix_append_cons_iff colon, TextLine.Remark.written,
    isInfix_append_cons_iff colon, isInfix_append_cons_iff space, isInfix_append_cons_iff colon]
  simp only [parts, message, unmarked, column, false_or]

namespace Checker

variable {checker : Checker} {request : CheckRequest}

/-- A run with a marked output gives the collection nothing. -/
theorem toolError_of_marked (marked : errorMark <:+: request.output.toList) {result : CheckResult}
    (answered : checker.result request = .ok result) :
    result.outcome = .toolError ∧ result.diagnostics = [] := by
  obtain ⟨parser, _, ⟨failure, _, rfl⟩ | ⟨none, rfl⟩⟩ := result_eq_ok_iff.mp answered
  · exact ⟨rfl, rfl⟩
  · exact absurd marked (detect?_eq_none_iff.mp none)

/-- An accepted output without an error mark is reported on. -/
theorem result_of_unmarked {parser : ReportParser} (accepted : checker.accept request = .ok parser)
    (unmarked : ¬ errorMark <:+: request.output.toList) :
    checker.result request =
      .ok (finished request (parser.report request.output request.target)) := by
  rw [result_of_accept_ok accepted, detect?_eq_none_iff.mpr unmarked]

/-- The report of an unused name shows its diagnostic in the file of the run. -/
theorem report_unused :
    (({} : ReportParser).report PlainIssue.unused.text (.file "/x.php")).diagnostics =
      [("/x.php", [PlainIssue.unused.diagnostic "mago" "/x.php"])] := by
  have shown := PlainIssue.unused.diagnostics_eq (.text rfl) (.pinned "/x.php") "mago"
  simp only [ReportParser.report, ReportParser.fileReport, shown, List.cons_ne_nil, if_false,
    Placement.file]

theorem unmarked_unused : ¬ errorMark <:+: PlainIssue.unused.text.toList := by
  rw [PlainIssue.marked_text_iff]
  decide

/-- **When a report is shown.** A run whose tool is known, whose output is short enough and
whose report shows a diagnostic is taken for no failure exactly if the mark of failures is
nowhere in the output. Then it has found issues, namely the diagnostics of its report, and
each file gains those that stand under it. With the mark the collection stays as it is, and
no result tells of issues. -/
theorem reported_iff_unmarked (checker : Checker) (collection : Collection)
    (request : CheckRequest) (parser : ReportParser)
    (known : checker.parser? request = some parser) (fits : checker.Fits request)
    (told : (parser.report request.output request.target).diagnostics ≠ []) :
    (ToolFailure.detect? request.output = .ok none ↔
      ¬ errorMark <:+: request.output.toList) ∧
    (¬ errorMark <:+: request.output.toList →
      ∃ result, (checker.check collection request).answer = .ok result ∧
        result.outcome = .issuesFound ∧
        result.diagnostics = (parser.report request.output request.target).diagnostics ∧
        ∀ file, (checker.check collection request).collection.get file =
          collection.get file ++ (result.diagnostics.get? file).getD []) ∧
    (errorMark <:+: request.output.toList →
      (checker.check collection request).collection = collection ∧
        ∀ result, (checker.check collection request).answer = .ok result →
          result.outcome = .toolError) := by
  have accepted := accept_eq_ok_iff.mpr ⟨fits, known⟩
  have filed : WellFiled [parser.source]
      (parser.report request.output request.target).diagnostics :=
    ReportParser.wellFiled_report (List.mem_singleton_self _) _ _
  refine ⟨detect?_eq_none_iff, ?_, ?_⟩
  · intro unmarked
    have answered := result_of_unmarked accepted unmarked
    refine ⟨_, by rw [answer_check, answered], ?_, rfl, ?_⟩
    · apply outcome_finished_iff.mpr
      apply Nat.pos_of_ne_zero
      intro none
      exact told (filed.eq_nil_of_total none)
    · intro file
      rw [collection_check_of_ok answered]
      exact Collection.get_mergeAll filed.distinct collection file
  · intro marked
    rw [answer_check]
    refine ⟨?_, fun result answered => (toolError_of_marked marked answered).1⟩
    cases answer : checker.result request with
    | error error => exact collection_check_of_error answer collection
    | ok result =>
        rw [collection_check_of_ok answer, (toolError_of_marked marked answer).2]
        rfl

/-- A report of an unused name is shown for its file. -/
theorem reported_unused :
    ∃ result,
      (({ registry := ⟨[{}]⟩ } : Checker).check .empty (.ofLint PlainIssue.unused.text)).answer =
        .ok result ∧
      result.outcome = .issuesFound ∧
      result.diagnostics = [("/x.php", [PlainIssue.unused.diagnostic "mago" "/x.php"])] := by
  obtain ⟨_, found, _⟩ := reported_iff_unmarked { registry := ⟨[{}]⟩ } .empty
    (.ofLint PlainIssue.unused.text) {} rfl (by decide)
    (by rw [CheckRequest.ofLint, report_unused]; exact List.cons_ne_nil _ _)
  obtain ⟨result, answered, outcome, diagnostics, _⟩ := found unmarked_unused
  exact ⟨result, answered, outcome, diagnostics.trans report_unused⟩

end Checker

/-! ## A report in capital letters -/

/-- Whether an output is a report as a linter prints it: one JSON document, or lines that
are all blank or text lines. -/
def IsReport (output : String) : Prop :=
  (∃ document, Document.read output.toList = .ok document) ∨
    ∀ line ∈ lines output.toList, isBlankText line ∨ (TextLine.ofText? (trim line)).isSome

theorem PlainIssue.isReport_text (issue : PlainIssue) : IsReport issue.text := by
  refine .inr fun line member => .inr ?_
  rw [lines, splitAt_of_notMem issue.newline_notMem_text, List.mem_singleton] at member
  rw [member, issue.trim_text, issue.ofText?_text, Option.isSome_some]

/-- An error with the word of its severity in capital letters. -/
def PlainIssue.shouted : PlainIssue where
  path := "b.php"
  line := 1
  column := some 1
  severity := .error
  keyword := "ERROR"
  message := "boom"
  plainPath := by
    refine ⟨by decide, by decide, startsWithout_cons.mpr rfl, by simp, fun char place => ?_⟩
    exact absurd (place.mem List.mem_cons_self) (by decide)
  plainLine := ⟨by decide, by decide⟩
  plainColumn := fun number member => Option.some.inj member ▸ ⟨by decide, by decide⟩
  spelled := by decide
  plainMessage :=
    ⟨by decide, by decide, startsWithout_cons.mpr rfl, @endsWithout_of_getLast? _ 'm' _ rfl rfl⟩

/-- The report of such an error is taken for a failure of the tool although its tool is
known, it is short enough and its diagnostic can be read. -/
theorem Checker.result_shouted :
    PlainIssue.shouted.text.toList = "b.php:1:1: ERROR: boom".toList ∧
    IsReport PlainIssue.shouted.text ∧
    (({} : ReportParser).fileReport PlainIssue.shouted.text "/x.php").diagnostics =
      [PlainIssue.shouted.diagnostic "mago" "/x.php"] ∧
    ({ registry := ⟨[{}]⟩ } : Checker).accept (.ofLint PlainIssue.shouted.text) = .ok {} ∧
    ToolFailure.detect? PlainIssue.shouted.text =
      .ok (some { kind := .execution, errorLines := ["b.php:1:1: ERROR: boom"] }) ∧
    ∃ result,
      ({ registry := ⟨[{}]⟩ } : Checker).result (.ofLint PlainIssue.shouted.text) = .ok result ∧
        result.outcome = .toolError ∧ result.diagnostics = [] := by
  have accepted : ({ registry := ⟨[{}]⟩ } : Checker).accept (.ofLint PlainIssue.shouted.text) =
      .ok {} :=
    accept_eq_ok_iff.mpr ⟨by decide, rfl⟩
  have detected : ToolFailure.detect? PlainIssue.shouted.text =
      .ok (some { kind := .execution, errorLines := ["b.php:1:1: ERROR: boom"] }) := by
    decide
  have answered : ({ registry := ⟨[{}]⟩ } : Checker).result (.ofLint PlainIssue.shouted.text) =
      .ok (failed (.ofLint PlainIssue.shouted.text)
        { kind := .execution, errorLines := ["b.php:1:1: ERROR: boom"] }) := by
    rw [result_of_accept_ok accepted]
    simp only [CheckRequest.ofLint, detected]
  exact ⟨by decide, PlainIssue.shouted.isReport_text,
    PlainIssue.shouted.diagnostics_eq (.text rfl) (.pinned "/x.php") "mago", accepted, detected,
    _, answered, rfl, rfl⟩

end LintReport
