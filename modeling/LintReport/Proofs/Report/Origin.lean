import LintReport.Proofs.Keyed.Grouped
import LintReport.Report

/-! # Where the issues of an output come from

Whatever file the issues of an output are placed in, they come from the same JSON values
and text lines of it in the same order (`Origin.ofOutput`). A placement only decides
which of these report an issue, and in which file: `Findings.issues_eq` reads the issues
off the origins one by one, and `Origin.issue?_under` compares the two placements. So a run on a
workspace reports what a run on a single file reports, sorted by file
(`ReportParser.reports_agree`). -/

namespace LintReport

/-- What an issue is read from. -/
inductive Origin where
  /-- A JSON value, one that may report no issue. -/
  | value (raw : Json.Value)
  /-- A text line, by its parts. -/
  | line (parts : TextLine)
  deriving DecidableEq

namespace Origin

/-- The issue that is read from an origin. -/
def issue? (placement : Placement) : Origin → Option Issue
  | .value raw => Issue.ofValue? placement raw
  | .line parts => some (parts.toIssue placement)

/-- The file that an origin names. -/
def file? : Origin → Option String
  | .value raw => Issue.reportedFile? raw
  | .line parts => some (String.ofList parts.path)

/-- What a line of an output holds. -/
def ofLine? (line : List Char) : Option Origin :=
  match lineObject? (Text.trim line) with
  | some raw => some (.value raw)
  | none => (TextLine.ofText? (Text.trim line)).map .line

/-- The origins of all issues of an output. -/
def ofOutput (output : String) : List Origin :=
  match Document.read output.toList with
  | .ok document => document.items.map .value
  | .error _ => (Text.lines output.toList).filterMap ofLine?

/-- Below a root, an issue is reported exactly if its origin names a file, and then it is
the issue reported for any one file but for the file that it belongs to. -/
theorem issue?_under (root file : String) (origin : Origin) :
    origin.issue? (.under root) =
      (origin.issue? (.pinned file)).bind fun issue => origin.file?.map fun reported =>
        { issue with file := SourcePath.resolve reported root } := by
  cases origin with
  | line parts => rfl
  | value raw =>
      simp only [issue?, file?, Issue.ofValue?, Placement.file?]
      cases Issue.message? raw <;> cases Issue.reportedFile? raw <;> rfl

/-- An issue that is pinned to a file is in that file, whatever its origin. -/
theorem file_of_pinned {origin : Origin} {file : String} {issue : Issue}
    (reported : origin.issue? (.pinned file) = some issue) : issue.file = file := by
  cases origin with
  | line parts =>
      rw [issue?, Option.some.injEq] at reported
      rw [← reported]
      rfl
  | value raw =>
      simp only [issue?, Issue.ofValue?, Placement.file?] at reported
      split at reported
      · next message same =>
          rw [Option.some.injEq] at reported same
          rw [← reported, ← same]
      · simp at reported

end Origin

namespace LineReading

theorem ofLine_eq (placement : Placement) (line : List Char) :
    ofLine placement line =
      if Text.trim line = [] then .blank
      else match Origin.ofLine? line with
        | none => .skipped
        | some origin => (origin.issue? placement).elim .dropped .found := by
  simp only [ofLine, Origin.ofLine?]
  split
  · rfl
  · cases lineObject? (Text.trim line) with
    | some raw =>
        simp only [Origin.issue?]
        cases Issue.ofValue? placement raw <;> rfl
    | none => cases TextLine.ofText? (Text.trim line) <;> rfl

/-- A blank line holds nothing. -/
theorem ofLine?_blank {line : List Char} (blank : Text.trim line = []) :
    Origin.ofLine? line = none := by
  rw [Origin.ofLine?, blank]
  rfl

/-- The issue of a line is that of its origin. -/
theorem issue?_ofLine (placement : Placement) (line : List Char) :
    (ofLine placement line).issue? =
      (Origin.ofLine? line).bind (Origin.issue? placement) := by
  rw [ofLine_eq]
  split
  · next blank => rw [ofLine?_blank blank]; rfl
  · cases Origin.ofLine? line with
    | none => rfl
    | some origin =>
        simp only [Option.bind_some]
        cases origin.issue? placement <;> rfl

/-- A line is skipped for what it holds, wherever issues are placed. -/
theorem ofLine_eq_skipped_iff {placement : Placement} {line : List Char} :
    ofLine placement line = .skipped ↔ Text.trim line ≠ [] ∧ Origin.ofLine? line = none := by
  rw [ofLine_eq]
  split
  · next blank => simp [blank]
  · next filled =>
      cases Origin.ofLine? line with
      | none => simp [filled]
      | some origin => cases found : origin.issue? placement <;> simp [found]

end LineReading

namespace Findings

/-- **The issues of an output.** Each origin is read by itself, in order. -/
theorem issues_eq (placement : Placement) (output : String) :
    (ofOutput placement output).issues =
      (Origin.ofOutput output).filterMap (Origin.issue? placement) := by
  simp only [ofOutput, Origin.ofOutput]
  cases Document.read output.toList with
  | ok document => simp only [ofDocument, List.filterMap_map]; rfl
  | error fault =>
      simp only [ofLines, List.filterMap_map, List.filterMap_filterMap]
      congr 1
      funext line
      exact LineReading.issue?_ofLine placement line

/-- The placement of issues does not change the format. -/
theorem format_eq (first second : Placement) (output : String) :
    (ofOutput first output).format = (ofOutput second output).format := by
  simp only [ofOutput]
  cases Document.read output.toList <;> rfl

/-- The placement of issues does not change how many lines are skipped. -/
theorem skipped_eq (first second : Placement) (output : String) :
    (ofOutput first output).skipped = (ofOutput second output).skipped := by
  simp only [ofOutput]
  cases Document.read output.toList with
  | ok document => rfl
  | error fault =>
      simp only [ofLines, List.count_eq_countP, List.countP_map]
      apply List.countP_congr
      intro line _
      simp only [Function.comp_apply, beq_iff_eq, LineReading.ofLine_eq_skipped_iff]

end Findings

/-! ## The two kinds of report

The diagnostics of a run on a single file are seen together with the files that their origins
name (`sightings`); those of a run on a workspace are the ones with such a file, moved there
and grouped. -/

/-- A diagnostic with another file, also for its related information. -/
def Diagnostic.movedTo (diagnostic : Diagnostic) (file : String) : Diagnostic :=
  { diagnostic with
    file
    related := diagnostic.related.map fun information => { information with file } }

/-- A diagnostic of a report on one file, with the file that its origin names. -/
structure Sighting where
  diagnostic : Diagnostic
  reported : Option String
  deriving DecidableEq

/-- The diagnostic of a sighting in the file that its origin names below a root. -/
def Sighting.below? (root : String) (sighting : Sighting) : Option Diagnostic :=
  sighting.reported.map fun reported =>
    sighting.diagnostic.movedTo (SourcePath.resolve reported root)

/-- What is seen at an origin when all issues are placed in one file. -/
def Origin.sighting? (source file : String) (origin : Origin) : Option Sighting :=
  (origin.issue? (.pinned file)).map fun issue => ⟨Diagnostic.ofIssue issue source, origin.file?⟩

/-- A diagnostic can be moved before or after it is made from its issue. -/
theorem Diagnostic.ofIssue_movedTo (issue : Issue) (source file : String) :
    (ofIssue issue source).movedTo file = ofIssue { issue with file } source := by
  simp only [movedTo, ofIssue, List.map_map]
  rfl

/-- An issue below a root is shown as its sighting in one file is, but for the file. -/
theorem Origin.diagnostic?_under (source file root : String) (origin : Origin) :
    (origin.issue? (.under root)).map (Diagnostic.ofIssue · source) =
      (origin.sighting? source file).bind (Sighting.below? root) := by
  rw [issue?_under root file, sighting?]
  cases origin.issue? (.pinned file) with
  | none => rfl
  | some issue =>
      cases named : origin.file? with
      | none => simp [Sighting.below?]
      | some reported => simp [Sighting.below?, Diagnostic.ofIssue_movedTo]

namespace ReportParser

/-- The diagnostics of a report on one file, each with the file that its origin names. -/
def sightings (parser : ReportParser) (output file : String) : List Sighting :=
  (Origin.ofOutput output).filterMap (Origin.sighting? parser.source file)

/-- The diagnostics of a report on one file whose origins name files, moved there. -/
def moved (parser : ReportParser) (output file root : String) : List Diagnostic :=
  (parser.sightings output file).filterMap (Sighting.below? root)

/-- The sightings of a run on a file carry its diagnostics in order. -/
theorem diagnostics_sightings (parser : ReportParser) (output file : String) :
    (parser.sightings output file).map Sighting.diagnostic =
      (parser.fileReport output file).diagnostics := by
  change _ = (Findings.ofOutput (.pinned file) output).issues.map _
  rw [Findings.issues_eq, sightings, List.map_filterMap, List.map_filterMap]
  apply List.filterMap_congr
  intro origin _
  rw [Origin.sighting?, Option.map_map]
  rfl

/-- The diagnostics of a project are those of the sightings below its root. -/
theorem project_diagnostics_eq (parser : ReportParser) (output file root : String) :
    (Findings.ofOutput (.under root) output).diagnostics parser.source =
      parser.moved output file root := by
  rw [Findings.diagnostics, Findings.issues_eq, moved, sightings, List.map_filterMap,
    List.filterMap_filterMap]
  exact List.filterMap_congr fun origin _ => Origin.diagnostic?_under parser.source file root origin

/-- **The two kinds of report agree.** They are read in the same format with the same
lines skipped. The diagnostics of a project are those of the report on any one file whose
origins name a file, unchanged but for that file, under the files in the order in which
these first come and in the order of arrival under each; none is lost and none comes
twice. -/
theorem reports_agree (parser : ReportParser) (output file root : String) :
    (parser.projectReport output root).format = (parser.fileReport output file).format ∧
    (parser.projectReport output root).skipped = (parser.fileReport output file).skipped ∧
    (parser.sightings output file).map Sighting.diagnostic =
      (parser.fileReport output file).diagnostics ∧
    (parser.projectReport output root).diagnostics =
      Keyed.tabulate (Keyed.firstNames Diagnostic.file (parser.moved output file root))
        (Keyed.under Diagnostic.file (parser.moved output file root)) ∧
    ((parser.projectReport output root).diagnostics.flatMap Prod.snd).Perm
      (parser.moved output file root) ∧
    (parser.projectReport output root).total ≤ (parser.fileReport output file).diagnostics.length ∧
    ((parser.projectReport output root).total =
        (parser.fileReport output file).diagnostics.length ↔
      ∀ sighting ∈ parser.sightings output file, sighting.reported.isSome) := by
  have grouped : (parser.projectReport output root).diagnostics =
      Keyed.group Diagnostic.file (parser.moved output file root) := by
    rw [← project_diagnostics_eq]
    rfl
  have total : (parser.projectReport output root).total =
      (parser.moved output file root).length := by
    rw [ProjectReport.total, grouped, Keyed.total_group]
  have count : (parser.fileReport output file).diagnostics.length =
      (parser.sightings output file).length := by
    rw [← diagnostics_sightings, List.length_map]
  refine ⟨Findings.format_eq _ _ _, Findings.skipped_eq _ _ _, diagnostics_sightings _ _ _,
    ?_, ?_, ?_, ?_⟩
  · rw [grouped, Keyed.group_eq_tabulate]
  · rw [grouped]
    exact Keyed.flatMap_group_perm _ _
  · rw [total, count]
    exact List.length_filterMap_le _ _
  · rw [total, count, moved, List.filterMap_length_eq_length]
    simp only [Sighting.below?, Option.isSome_map]

end ReportParser

end LintReport
