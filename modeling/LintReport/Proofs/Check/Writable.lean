import LintReport.Proofs.Check.Classified
import LintReport.Proofs.Check.Course
import LintReport.Proofs.Issue.Places
import LintReport.Proofs.Report.Lines

/-! # Results that can be written

Writing a result out could break down in three ways: at a number with too many digits, at a
name that comes twice in one object, and at too many containers inside each other. None of
them comes about (`Checker.isWritable_of_result`), as long as the limit on outputs is a
number that can be written itself, and the codes of issues do not nest too deep. The numbers
that a report shows are bounded by the size of its output (`ReportParser.size_report_le`). -/

namespace LintReport

open Json Numeral Text

/-! ## How much a report says

An output says no more than it has characters: every issue and every skipped line takes up
at least one of them, whether the output is one document or many lines. -/

namespace Findings

variable (placement : Placement)

/-- A document reports no more issues than it has characters. -/
theorem length_issues_ofDocument_le {output : String} {document : Document}
    (read : Document.read output.toList = .ok document) :
    (ofDocument placement document).issues.length ≤ output.length := by
  obtain ⟨value, denotes, rfl⟩ := Document.read_eq_ok_iff.mp read
  calc (ofDocument placement (.ofValue value)).issues.length
      ≤ (Document.ofValue value).items.length := List.length_filterMap_le _ _
    _ ≤ (trim output.toList).length := Document.length_items_le denotes
    _ ≤ output.toList.length := (isInfix_trim output.toList).length_le
    _ = output.length := String.length_toList

/-- Lines report and skip no more than they have characters. -/
theorem length_issues_ofLines_le (text : List Char) :
    (ofLines placement text).issues.length + (ofLines placement text).skipped ≤ text.length := by
  have account := LineReading.countP_filled
    ((lines text).map (LineReading.ofLine placement))
  have filled : ((lines text).map (LineReading.ofLine placement)).countP (· ≠ .blank) ≤
      (lines text).countP (· ≠ []) := by
    rw [List.countP_map]
    refine List.countP_mono_left fun line _ told => ?_
    simp only [Function.comp_apply, ne_eq, decide_not, Bool.not_eq_true', decide_eq_false_iff_not,
      LineReading.ofLine_eq_blank_iff] at told ⊢
    rintro rfl
    exact told rfl
  have pieces := countP_filled_splitAt_le '\n' text
  simp only [ofLines]
  unfold lines at *
  omega

/-- **An output says no more than it has characters.** -/
theorem length_issues_add_skipped_le (output : String) :
    (ofOutput placement output).issues.length + (ofOutput placement output).skipped ≤
      output.length := by
  unfold ofOutput
  split
  · next document read => exact length_issues_ofDocument_le placement read
  · exact (length_issues_ofLines_le placement output.toList).trans String.length_toList.le

end Findings

/-- Where the issues of a run on a target are placed. -/
def CheckTarget.placement : CheckTarget → Placement
  | .file path => .pinned path
  | .workspace root => .under ((root.bind Label.text?).getD "")

namespace ReportParser

variable (parser : ReportParser) (output : String) (target : CheckTarget)

/-- A report shows the diagnostics of all findings, file by file. -/
theorem flatMap_report_perm :
    ((parser.report output target).diagnostics.flatMap Prod.snd).Perm
      ((Findings.ofOutput target.placement output).diagnostics parser.source) := by
  rw [flatMap_report]
  cases target with
  | file path => exact List.Perm.refl _
  | workspace root => exact Keyed.flatMap_group_perm _ _

theorem skipped_report :
    (parser.report output target).skipped =
      (Findings.ofOutput target.placement output).skipped := by
  cases target <;> rfl

/-- The numbers that a report shows are bounded by the size of its output. -/
theorem size_report_le :
    (parser.report output target).diagnostics.length ≤
        (parser.report output target).diagnostics.total ∧
      (parser.report output target).diagnostics.total + (parser.report output target).skipped ≤
        output.length := by
  have filed := wellFiled_report (List.mem_singleton_self parser.source) output target
  refine ⟨Keyed.length_le_total filed.filled, ?_⟩
  rw [Keyed.total_eq_length_flatMap, (flatMap_report_perm parser output target).length_eq,
    Findings.diagnostics, List.length_map, skipped_report]
  exact Findings.length_issues_add_skipped_le target.placement output

end ReportParser

/-! ## Diagnostics -/

/-- A span can be written if its numbers are short. -/
theorem Span.isWritable_toValue {span : Span} (short : span.IsShort) (depth : Nat) :
    span.toValue.IsWritable (depth + 2) := by
  simp [toValue, Position.toValue, Value.isWritable_object, Value.isWritable_int, Keyed.keys,
    short.startLine, short.startColumn, short.stopLine, short.stopColumn]

/-- Related information can be written if the numbers of its span are short. -/
theorem RelatedInformation.isWritable_toValue {information : RelatedInformation}
    (short : information.span.IsShort) (depth : Nat) :
    information.toValue.IsWritable (depth + 3) := by
  have span := Span.isWritable_toValue short depth
  simp [toValue, Value.isWritable_object, Keyed.keys, span]

theorem Severity.isShort_protocolNumber (severity : Severity) :
    IsShort severity.protocolNumber := by
  cases severity <;> decide

/-- A diagnostic can be written if its places can be spelled out and its code can be
written. -/
theorem Diagnostic.isWritable_toValue {diagnostic : Diagnostic} {depth : Nat}
    (short : diagnostic.span.IsShort)
    (around : ∀ information ∈ diagnostic.related, information.span.IsShort)
    (code : diagnostic.code.IsWritable (depth + 4)) :
    diagnostic.toValue.IsWritable (depth + 5) := by
  have span := Span.isWritable_toValue short (depth + 2)
  have related : (Value.array (diagnostic.related.map RelatedInformation.toValue)).IsWritable
      (depth + 4) := by
    intro item member
    obtain ⟨information, there, rfl⟩ := List.mem_map.mp member
    exact RelatedInformation.isWritable_toValue (around information there) depth
  have severity := diagnostic.severity.isShort_protocolNumber
  simp [toValue, Value.isWritable_object, Value.isWritable_int, Keyed.keys, span, code, related,
    severity]

/-- Whether a diagnostic can be written but for the depth of its code. -/
structure Diagnostic.IsLegible (diagnostic : Diagnostic) : Prop where
  span : diagnostic.span.IsShort
  related : ∀ information ∈ diagnostic.related, information.span.IsShort
  spellable : diagnostic.code.isSpellable
  distinct : diagnostic.code.isDistinct

/-- A legible diagnostic takes four more containers than its code may have. -/
theorem Diagnostic.IsLegible.isWritable_toValue {diagnostic : Diagnostic}
    (legible : diagnostic.IsLegible) {depth : Nat} (shallow : diagnostic.code.depth ≤ depth + 4) :
    diagnostic.toValue.IsWritable (depth + 5) := by
  refine Diagnostic.isWritable_toValue legible.span legible.related ?_
  exact Value.isWritable_iff.mpr ⟨legible.spellable, legible.distinct, shallow⟩

/-- Diagnostics can be written by file, two levels above each of them. -/
theorem Diagnostic.isWritable_objectOf {byFile : Keyed (List Diagnostic)} {depth : Nat}
    (distinct : byFile.keys.Nodup)
    (each : ∀ entry ∈ byFile, ∀ diagnostic ∈ entry.2, diagnostic.toValue.IsWritable depth) :
    (objectOf byFile).IsWritable (depth + 2) := by
  constructor
  · rw [Keyed.keys, List.map_map]
    exact distinct
  · intro entry member
    obtain ⟨filed, there, rfl⟩ := List.mem_map.mp member
    intro item inside
    obtain ⟨diagnostic, listed, rfl⟩ := List.mem_map.mp inside
    exact each filed there diagnostic listed

/-! ## Failures -/

/-- Whether the place that a failure tells of can be spelled out. -/
structure ToolFailure.IsShort (failure : ToolFailure) : Prop where
  line : ∀ line ∈ failure.line, Numeral.IsShort line
  column : ∀ column ∈ failure.column, Numeral.IsShort column

instance (failure : ToolFailure) : Decidable failure.IsShort :=
  decidable_of_iff ((∀ line ∈ failure.line, Numeral.IsShort line) ∧
      ∀ column ∈ failure.column, Numeral.IsShort column)
    ⟨fun ⟨line, column⟩ => ⟨line, column⟩, fun ⟨line, column⟩ => ⟨line, column⟩⟩

/-- The place of a detected failure was read from digits, so it is short. -/
theorem ToolFailure.isShort_of_detect? {output : String} {failure : ToolFailure}
    (detected : detect? output = .ok (some failure)) : failure.IsShort := by
  unfold detect? at detected
  dsimp only at detected
  split at detected
  · cases detected
  · split at detected
    · split at detected
      · rw [Except.ok.injEq, Option.some.injEq] at detected
        subst detected
        exact ⟨by simp, by simp⟩
      · split at detected
        · next line column row place =>
            rw [Except.ok.injEq, Option.some.injEq] at detected
            subst detected
            constructor
            · intro line same
              rw [Option.mem_some] at same
              exact same ▸ isShort_of_ofDigits row
            · intro column same
              rw [Option.mem_some] at same
              exact same ▸ isShort_of_ofDigits place
        · cases detected
        · cases detected
    · rw [Except.ok.injEq, Option.some.injEq] at detected
      subst detected
      exact ⟨by simp, by simp⟩

/-- A number that may be missing can be written if it is short. -/
theorem isWritable_optionalInt {number : Option Int} (short : ∀ value ∈ number, IsShort value)
    (depth : Nat) : (optionalInt number).IsWritable depth := by
  cases number with
  | none => exact Value.isWritable_null
  | some value => exact Value.isWritable_int.mpr (short value rfl)

/-- A failure can be written if its place is short. -/
theorem ToolFailure.isWritable_toValue {failure : ToolFailure} (short : failure.IsShort)
    (depth : Nat) : failure.toValue.IsWritable (depth + 2) := by
  have line := isWritable_optionalInt short.line (depth + 1)
  have column := isWritable_optionalInt short.column (depth + 1)
  have lines : (Value.array (failure.errorLines.map Value.string)).IsWritable (depth + 1) := by
    intro item member
    obtain ⟨text, _, rfl⟩ := List.mem_map.mp member
    exact Value.isWritable_string depth text
  simp [toValue, Value.isWritable_object, Keyed.keys, line, column, lines]

/-! ## Results -/

theorem Label.isWritable_toValue (label : Label) (depth : Nat) :
    label.toValue.IsWritable (depth + 1) := by
  cases label with
  | given text => exact Value.isWritable_string (depth + 1) text
  | empty => exact fun _ member => absurd member List.not_mem_nil

theorem CheckTarget.isWritable_toValue (target : CheckTarget) (depth : Nat) :
    target.toValue.IsWritable (depth + 1) := by
  cases target with
  | file path => exact Value.isWritable_string (depth + 1) path
  | workspace root =>
      cases root with
      | none => exact Value.isWritable_null
      | some root => exact root.isWritable_toValue depth

/-- Whether the numbers that a result shows beside its diagnostics can be spelled out. -/
structure CheckResult.IsShort (result : CheckResult) : Prop where
  total : Numeral.IsShort result.total
  files : Numeral.IsShort result.diagnostics.length
  skipped : Numeral.IsShort result.skippedLines
  failure : ∀ failure ∈ result.failure, failure.IsShort

instance (result : CheckResult) : Decidable result.IsShort :=
  decidable_of_iff (Numeral.IsShort result.total ∧ Numeral.IsShort result.diagnostics.length ∧
      Numeral.IsShort result.skippedLines ∧ ∀ failure ∈ result.failure, failure.IsShort)
    ⟨fun ⟨total, files, skipped, failure⟩ => ⟨total, files, skipped, failure⟩,
      fun ⟨total, files, skipped, failure⟩ => ⟨total, files, skipped, failure⟩⟩

/-- A result can be written if its counts are short and its diagnostics can be. -/
theorem CheckResult.isWritable_toValue {result : CheckResult} {depth : Nat}
    (short : result.IsShort) (distinct : result.diagnostics.keys.Nodup)
    (each : ∀ entry ∈ result.diagnostics, ∀ diagnostic ∈ entry.2,
      diagnostic.toValue.IsWritable (depth + 5)) :
    result.toValue.IsWritable (depth + 8) := by
  have tool := result.tool.isWritable_toValue (depth + 6)
  have command := result.command.isWritable_toValue (depth + 6)
  have target := result.target.isWritable_toValue (depth + 6)
  have failure : ((result.failure.map ToolFailure.toValue).getD .null).IsWritable (depth + 7) := by
    cases told : result.failure with
    | none => exact Value.isWritable_null
    | some failure => exact ToolFailure.isWritable_toValue (short.failure failure told) (depth + 5)
  have diagnostics := Diagnostic.isWritable_objectOf distinct each
  simp [toValue, Value.isWritable_object, Value.isWritable_int, Keyed.keys, tool, command, target,
    failure, diagnostics, short.total, short.files, short.skipped]

namespace Checker

variable {checker : Checker} {request : CheckRequest} {result : CheckResult}

/-- What counts at most the characters of an output that fits is short. -/
theorem isShort_of_fits (limit : IsShort checker.settings.maxOutputChars)
    (fits : checker.Fits request) {number : Nat} (within : number ≤ request.output.length) :
    IsShort number := by
  unfold Fits at fits
  exact limit.mono (by omega)

/-- The counts of a result are short, since its output fits. -/
theorem isShort_of_result (limit : IsShort checker.settings.maxOutputChars)
    (answered : checker.result request = .ok result) : result.IsShort := by
  obtain ⟨parser, accepted, ⟨failure, detected, rfl⟩ | ⟨_, rfl⟩⟩ := result_eq_ok_iff.mp answered
  · have zero : IsShort (0 : Nat) := by decide
    refine ⟨zero, zero, zero, ?_⟩
    intro told same
    rw [failed, Option.mem_some] at same
    exact same ▸ ToolFailure.isShort_of_detect? detected
  · have short := @isShort_of_fits checker request limit (accept_eq_ok_iff.mp accepted).1
    obtain ⟨files, most⟩ := parser.size_report_le request.output request.target
    refine ⟨short ?_, short ?_, short ?_, fun failure told => nomatch told⟩
    · exact (Nat.le_add_right _ _).trans most
    · exact files.trans ((Nat.le_add_right _ _).trans most)
    · exact (Nat.le_add_left _ _).trans most

/-- Whatever diagnostic a result shows, it shows an issue that was read from the output. -/
theorem exists_origin_of_result (answered : checker.result request = .ok result)
    {entry : String × List Diagnostic} (member : entry ∈ result.diagnostics)
    {diagnostic : Diagnostic} (inside : diagnostic ∈ entry.2) :
    ∃ origin ∈ Origin.ofOutput request.output, ∃ placement issue source,
      origin.issue? placement = some issue ∧ diagnostic = .ofIssue issue source := by
  obtain ⟨parser, _, ⟨failure, _, rfl⟩ | ⟨_, rfl⟩⟩ := result_eq_ok_iff.mp answered
  · exact absurd member List.not_mem_nil
  · have listed := List.mem_flatMap.mpr ⟨entry, member, inside⟩
    have found := (parser.flatMap_report_perm request.output request.target).mem_iff.mp listed
    obtain ⟨issue, there, rfl⟩ := List.mem_map.mp found
    rw [Findings.issues_eq] at there
    obtain ⟨origin, held, reported⟩ := List.mem_filterMap.mp there
    exact ⟨origin, held, _, issue, parser.source, reported, rfl⟩

/-- Only the depth of a code can keep a diagnostic of a result from being written. -/
theorem isLegible_of_result (answered : checker.result request = .ok result)
    {entry : String × List Diagnostic} (member : entry ∈ result.diagnostics)
    {diagnostic : Diagnostic} (inside : diagnostic ∈ entry.2) : diagnostic.IsLegible := by
  obtain ⟨origin, held, placement, issue, source, reported, rfl⟩ :=
    exists_origin_of_result answered member inside
  have short := Origin.isShort_span held reported
  have code : issue.code.IsWritable maxDepth := by
    refine Origin.isWritable_code held reported fun raw there => ?_
    obtain ⟨token, denotes⟩ := Origin.denotes_of_mem there
    exact (Value.isWritable_iff.mp denotes.isWritable).2.2.trans (Nat.le_succ maxDepth)
  obtain ⟨spellable, distinct, _⟩ := Value.isWritable_iff.mp code
  refine ⟨short, ?_, spellable, distinct⟩
  intro information listed
  obtain ⟨message, _, rfl⟩ := List.mem_map.mp listed
  exact short

/-- A result is copied if the values that issues are read from do not nest too deep. -/
theorem copied_of_result (answered : checker.result request = .ok result)
    (shallow : ∀ raw, Origin.value raw ∈ Origin.ofOutput request.output →
      raw.depth ≤ copyDepth + 1) : result.copied = .ok result.toValue := by
  refine if_pos (Diagnostic.areCopyable_iff.mpr fun entry member diagnostic inside => ?_)
  obtain ⟨origin, held, placement, issue, source, reported, rfl⟩ :=
    exists_origin_of_result answered member inside
  exact (Value.isWritable_iff.mp (Origin.isWritable_code held reported shallow)).2.2

/-- **Every result can be written**, if the limit on outputs can be and the values that
issues are read from do not nest too deep. -/
theorem isWritable_of_result {depth : Nat} (limit : IsShort checker.settings.maxOutputChars)
    (answered : checker.result request = .ok result)
    (shallow : ∀ raw, Origin.value raw ∈ Origin.ofOutput request.output →
      raw.depth ≤ depth + 5) : result.toValue.IsWritable (depth + 8) := by
  refine CheckResult.isWritable_toValue (isShort_of_result limit answered)
    (wellFiled_of_result answered).distinct ?_
  intro entry member diagnostic inside
  obtain ⟨origin, held, placement, issue, source, reported, rfl⟩ :=
    exists_origin_of_result answered member inside
  have short := Origin.isShort_span held reported
  refine Diagnostic.isWritable_toValue short ?_ ?_
  · intro information listed
    obtain ⟨message, _, rfl⟩ := List.mem_map.mp listed
    exact short
  · exact Origin.isWritable_code held reported shallow

end Checker

end LintReport
