import LintReport.Proofs.Issue.Grammar
import LintReport.Proofs.Keyed.Grouped
import LintReport.Proofs.Report.Attempt
import LintReport.Proofs.Text.Pieces
import LintReport.Proofs.Text.Trimmed

/-! # Sound reports

Whatever an output says, every diagnostic of its reports is fit to be shown: it has a
message that says something, a place that exists, one of the known severities, and
further messages at that same place (`Diagnostic.IsSound`). It follows from what holds of
every issue (`Issue.IsSound`), so that the many forms of an output are told apart only
where an issue is read. -/

namespace LintReport

open Text

/-! ## Issues -/

/-- What holds of every issue that is reported. -/
structure Issue.IsSound (issue : Issue) : Prop where
  message : isBlankText issue.message.toList = false
  line : 0 ≤ issue.line
  column : 0 ≤ issue.column
  endLine : 0 ≤ issue.endLine.getD issue.line
  endColumn : 0 ≤ issue.endColumn.getD (issue.column + 1)

/-- The message of an issue from JSON is tested. -/
theorem Issue.isBlankText_message? {raw : Json.Value} {message : String}
    (found : message? raw = some message) : isBlankText message.toList = false := by
  simpa using (Option.filter_eq_some_iff.mp found).2

/-- The lines and columns of an extent count from one. -/
theorem Issue.one_le_extent (raw : Json.Value) :
    1 ≤ (extent raw).line ∧ 1 ≤ (extent raw).column ∧ 1 ≤ (extent raw).endLine ∧
      1 ≤ (extent raw).endColumn := by
  have one : (1 : Int) ≤ 1 := Int.le_refl 1
  unfold extent
  split
  · next anchor _ =>
      have line := Ordinal.one_le_ofValue (((anchor.getD "span").getD "start").getD "line") one
      have column := Ordinal.one_le_ofValue (((anchor.getD "span").getD "start").getD "column") one
      exact ⟨line, column, Ordinal.one_le_ofValue _ line, Ordinal.one_le_ofValue _ (by omega)⟩
  · have line := Ordinal.one_le_ofValue (raw.getD "line") one
    have column :
        1 ≤ if raw.entries.has "line" then Ordinal.ofValue (raw.getD "column") else 1 := by
      split
      · exact Ordinal.one_le_ofValue _ one
      · exact one
    exact ⟨line, column, line, by dsimp only; omega⟩

/-- An issue from an object is sound. -/
theorem Issue.isSound_of_ofValue? {placement : Placement} {raw : Json.Value} {issue : Issue}
    (reported : ofValue? placement raw = some issue) : issue.IsSound := by
  have read := isRead_of_ofValue? reported
  obtain ⟨line, column, endLine, endColumn⟩ := one_le_extent raw
  have same (part : Span → Int) (known : 0 ≤ part (extent raw).span) : 0 ≤ part issue.span :=
    read.span ▸ known
  exact
    { message := isBlankText_message? read.message
      line := same (·.start.line) (Int.sub_nonneg_of_le line)
      column := same (·.start.column) (Int.sub_nonneg_of_le column)
      endLine := same (·.stop.line) (Int.sub_nonneg_of_le endLine)
      endColumn := same (·.stop.column) (Int.sub_nonneg_of_le endColumn) }

/-- An issue from a text line with a message is sound. -/
theorem TextLine.isSound_toIssue (placement : Placement) {line : TextLine}
    (told : isBlankText line.remark.message = false) : (line.toIssue placement).IsSound := by
  have one : (1 : Int) ≤ 1 := Int.le_refl 1
  have row : 1 ≤ Ordinal.ofDigits line.remark.line := Ordinal.one_le_ofValue _ one
  have column : 1 ≤ (line.remark.column.map Ordinal.ofDigits).getD 1 := by
    cases line.remark.column with
    | none => exact one
    | some digits => exact Ordinal.one_le_ofValue _ one
  refine ⟨?_, ?_, ?_, ?_, ?_⟩
  · rw [toIssue, String.toList_ofList]
    exact told
  all_goals simp only [toIssue, Option.getD_none]; omega

/-! ## Origins -/

namespace Origin

/-- Whether an origin can report an issue: a text line must say something. -/
def IsTold : Origin → Prop
  | .value _ => True
  | .line parts => isBlankText parts.remark.message = false

/-- An origin that is a text line has a message. -/
theorem isTold_of_mem {output : String} {origin : Origin} (member : origin ∈ ofOutput output) :
    origin.IsTold := by
  cases origin with
  | value raw => trivial
  | line parts =>
      unfold ofOutput at member
      split at member
      · simp at member
      · obtain ⟨line, there, found⟩ := List.mem_filterMap.mp member
        unfold ofLine? at found
        split at found
        · simp at found
        · obtain ⟨parts', read, same⟩ := Option.map_eq_some_iff.mp found
          rw [Origin.line.injEq] at same
          subst same
          refine TextLine.isBlankText_message (fun inside => ?_) (endsWithout_trim line) read
          exact mark_notMem_of_mem_splitAt there ((isInfix_trim line).mem inside)

/-- An issue from such an origin is sound, wherever it is placed. -/
theorem isSound_of_issue? {placement : Placement} {origin : Origin} {issue : Issue}
    (told : origin.IsTold) (reported : origin.issue? placement = some issue) : issue.IsSound := by
  cases origin with
  | value raw => exact Issue.isSound_of_ofValue? reported
  | line parts =>
      rw [issue?, Option.some.injEq] at reported
      exact reported ▸ TextLine.isSound_toIssue placement told

end Origin

/-! ## Diagnostics -/

/-- What holds of every diagnostic of a report by a parser with the given source. -/
structure Diagnostic.IsSound (source : String) (diagnostic : Diagnostic) : Prop where
  message : ∃ char ∈ diagnostic.message.toList, isBlank char = false
  severity : diagnostic.severity.name ∈ ["error", "warning", "info", "hint"]
  startLine : 0 ≤ diagnostic.span.start.line
  startColumn : 0 ≤ diagnostic.span.start.column
  stopLine : 0 ≤ diagnostic.span.stop.line
  stopColumn : 0 ≤ diagnostic.span.stop.column
  related : ∀ information ∈ diagnostic.related,
    information.file = diagnostic.file ∧ information.span = diagnostic.span
  source : diagnostic.source = source

/-- A sound issue makes a sound diagnostic. -/
theorem Issue.IsSound.diagnostic {issue : Issue} (sound : issue.IsSound) (source : String) :
    (Diagnostic.ofIssue issue source).IsSound source := by
  refine ⟨?_, ?_, sound.line, sound.column, sound.endLine, sound.endColumn, ?_, rfl⟩
  · have filled := sound.message
    rw [isBlankText, List.all_eq_false] at filled
    obtain ⟨char, member, other⟩ := filled
    exact ⟨char, member, by simpa using other⟩
  · change issue.severity.name ∈ _
    cases issue.severity <;> decide
  · intro information member
    obtain ⟨message, _, rfl⟩ := List.mem_map.mp member
    exact ⟨rfl, rfl⟩

/-- The diagnostics of findings are sound, whatever file they are placed in. -/
theorem Findings.isSound_of_mem {placement : Placement} {output source : String}
    {diagnostic : Diagnostic}
    (member : diagnostic ∈ (ofOutput placement output).diagnostics source) :
    diagnostic.IsSound source := by
  obtain ⟨issue, found, rfl⟩ := List.mem_map.mp member
  rw [issues_eq] at found
  obtain ⟨origin, there, reported⟩ := List.mem_filterMap.mp found
  exact (Origin.isSound_of_issue? (Origin.isTold_of_mem there) reported).diagnostic source

namespace ReportParser

/-- **Soundness of reports.** Reading any output comes to an end without a failure. Every
diagnostic of a file's report is sound and belongs to that file; in a project's report
every diagnostic is sound and belongs to the file it stands under, no file stands over an
empty list or comes twice, and the total counts all diagnostics. -/
theorem reports_isSound (parser : ReportParser) (output file root : String) :
    (Findings.attempt (.pinned file) output = .ok (Findings.ofOutput (.pinned file) output) ∧
      Findings.attempt (.under root) output = .ok (Findings.ofOutput (.under root) output)) ∧
    (∀ diagnostic ∈ (parser.fileReport output file).diagnostics,
      diagnostic.IsSound parser.source ∧ diagnostic.file = file) ∧
    (∀ entry ∈ (parser.projectReport output root).diagnostics,
      entry.2 ≠ [] ∧
        ∀ diagnostic ∈ entry.2, diagnostic.IsSound parser.source ∧ diagnostic.file = entry.1) ∧
    (parser.projectReport output root).diagnostics.keys.Nodup ∧
    (parser.projectReport output root).total =
      ((parser.projectReport output root).diagnostics.flatMap Prod.snd).length := by
  refine ⟨⟨Findings.attempt_eq _ _, Findings.attempt_eq _ _⟩, ?_, ?_, Keyed.nodup_keys_group _ _,
    Keyed.total_eq_length_flatMap _⟩
  · intro diagnostic member
    refine ⟨Findings.isSound_of_mem member, ?_⟩
    obtain ⟨issue, found, rfl⟩ := List.mem_map.mp member
    rw [Findings.issues_eq] at found
    obtain ⟨origin, _, reported⟩ := List.mem_filterMap.mp found
    exact Origin.file_of_pinned reported
  · -- an entry holds all diagnostics of its file and there is at least one
    intro entry member
    obtain ⟨items, filled⟩ := Keyed.of_mem_group member
    refine ⟨filled, fun diagnostic inside => ?_⟩
    rw [items] at inside
    obtain ⟨there, same⟩ := List.mem_filter.mp inside
    exact ⟨Findings.isSound_of_mem there, by simpa using same⟩

end ReportParser

end LintReport
