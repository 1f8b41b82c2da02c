import LintReport.Proofs.Keyed.Grouped
import LintReport.Proofs.Report.Document
import LintReport.Proofs.Report.Forms
import LintReport.Proofs.Report.Origin

/-! # Reports line by line

An output that is no document is read line by line, and no line has a say in how another one
is read. So the report on two outputs, one after the other, is made of the reports on each,
and every line that is not blank is told of in the report, skipped, or an object that
reports no issue (`ReportParser.lines_compose`). -/

namespace LintReport

open Json Text

/-- The text of a plain issue is no document. -/
theorem PlainIssue.not_isDocument_text (issue : PlainIssue) : ¬ IsDocument issue.text := by
  obtain ⟨fault, failed⟩ := issue.read_text
  rw [isDocument_iff_read, failed]
  rintro ⟨document, read⟩
  cases read

/-- Whether a line is the text of an object, but for blanks. -/
def HoldsObject (line : List Char) (raw : Value) : Prop :=
  Denotes maxDepth (trim line) raw ∧ raw.isObject

/-- Whether a line holds an object that reports no issue in a file. -/
def HoldsDropped (file : String) (line : List Char) : Prop :=
  ∃ raw, HoldsObject line raw ∧ Issue.ofValue? (.pinned file) raw = none

/-- A trimmed line is read as an object exactly if it holds the object. -/
theorem lineObject?_eq_some_iff {line : List Char} {raw : Value} :
    lineObject? (trim line) = some raw ↔ HoldsObject line raw :=
  lineObject?_trim_eq_some_iff

instance (file : String) (line : List Char) : Decidable (HoldsDropped file line) :=
  decidable_of_iff (∃ raw ∈ lineObject? (trim line), Issue.ofValue? (.pinned file) raw = none) <| by
    simp only [Option.mem_def, lineObject?_eq_some_iff, HoldsDropped]

namespace LineReading

variable {placement : Placement} {file : String} {line : List Char}

/-- An object is the only thing that its line is read for. -/
theorem ofLine_of_holdsObject {raw : Value} (object : HoldsObject line raw) :
    ofLine placement line = (Issue.ofValue? placement raw).elim .dropped .found := by
  have held := lineObject?_eq_some_iff.mpr object
  have filled : trim line ≠ [] := by
    intro empty
    rw [empty] at held
    cases held
  rw [ofLine_eq, if_neg filled, Origin.ofLine?, held]
  rfl

/-- Only a blank line counts as blank. -/
theorem ofLine_eq_blank_iff : ofLine placement line = .blank ↔ isBlankText line := by
  rw [← trim_eq_nil_iff, ofLine_eq]
  split
  · next empty => simp [empty]
  · next filled =>
      cases Origin.ofLine? line with
      | none => simp [filled]
      | some origin => cases found : origin.issue? placement <;> simp [filled, found]

/-- A line is dropped exactly if it holds an object that reports nothing. -/
theorem ofLine_eq_dropped_iff : ofLine (.pinned file) line = .dropped ↔ HoldsDropped file line := by
  constructor
  · intro dropped
    cases held : lineObject? (trim line) with
    | some raw =>
        have object := lineObject?_eq_some_iff.mp held
        rw [ofLine_of_holdsObject object] at dropped
        refine ⟨raw, object, ?_⟩
        cases found : Issue.ofValue? (.pinned file) raw with
        | none => rfl
        | some issue => simp [found] at dropped
    | none =>
        -- a line without an object is blank, told of or skipped
        rw [ofLine, held] at dropped
        dsimp only at dropped
        split at dropped
        · cases dropped
        · split at dropped <;> cases dropped
  · rintro ⟨raw, object, none⟩
    rw [ofLine_of_holdsObject object, none]
    rfl

/-- Each reading that is not blank is found, skipped or dropped. -/
theorem countP_filled (readings : List LineReading) :
    readings.countP (· ≠ .blank) =
      (readings.filterMap issue?).length + readings.count .skipped + readings.count .dropped := by
  induction readings with
  | nil => rfl
  | cons reading readings ih =>
      rw [List.countP_cons, List.filterMap_cons, List.count_cons, List.count_cons, ih]
      cases reading with
      | blank => rfl
      | found issue => simp [issue?]; omega
      | dropped => simp [issue?]; omega
      | skipped => simp [issue?]; omega

end LineReading

namespace Findings

/-- Lines are read apart from each other. -/
theorem ofLines_append (placement : Placement) (first second : List Char) :
    ofLines placement (first ++ '\n' :: second) =
      { issues := (ofLines placement first).issues ++ (ofLines placement second).issues
        format := .lines
        skipped := (ofLines placement first).skipped + (ofLines placement second).skipped } := by
  simp only [ofLines, lines_append_newline, List.map_append, List.filterMap_append,
    List.count_append]

theorem ofOutput_append (placement : Placement) {first second : String}
    (firstLines : ¬ IsDocument first) (secondLines : ¬ IsDocument second)
    (bothLines : ¬ IsDocument (first ++ "\n" ++ second)) :
    ofOutput placement (first ++ "\n" ++ second) =
      { issues := (ofOutput placement first).issues ++ (ofOutput placement second).issues
        format := .lines
        skipped := (ofOutput placement first).skipped + (ofOutput placement second).skipped } := by
  have parts : (first ++ "\n" ++ second).toList = first.toList ++ '\n' :: second.toList := by
    simp
  rw [ofOutput_of_not_isDocument bothLines, parts, ofLines_append,
    ofOutput_of_not_isDocument firstLines, ofOutput_of_not_isDocument secondLines]

/-- Whether the findings of an output are those of its lines, with each object that a line
holds read as such. -/
structure AreOfLines (placement : Placement) (output : String) : Prop where
  issues : (ofOutput placement output).issues =
    (lines output.toList).filterMap fun line => (LineReading.ofLine placement line).issue?
  skipped : (ofOutput placement output).skipped =
    (lines output.toList).countP fun line => LineReading.ofLine placement line = .skipped
  objects : ∀ line ∈ lines output.toList, ∀ raw, HoldsObject line raw →
    LineReading.ofLine placement line = (Issue.ofValue? placement raw).elim .dropped .found

/-- An output that is no document has the issues, the skipped lines and the format of its lines. -/
theorem areOfLines {output : String} (linewise : ¬ IsDocument output) (placement : Placement) :
    AreOfLines placement output where
  issues := by
    rw [ofOutput_of_not_isDocument linewise, ofLines, List.filterMap_map]
    rfl
  skipped := by
    rw [ofOutput_of_not_isDocument linewise, ofLines, List.count_eq_countP, List.countP_map]
    apply List.countP_congr
    intro line _
    simp
  objects _ _ _ := LineReading.ofLine_of_holdsObject

/-- The lines of an output that are not blank, by what became of them. -/
theorem length_filled {file output : String} (linewise : ¬ IsDocument output) :
    (lines output.toList).countP (fun line => !isBlankText line) =
      (ofOutput (.pinned file) output).issues.length + (ofOutput (.pinned file) output).skipped +
        (lines output.toList).countP (HoldsDropped file ·) := by
  have filled : (lines output.toList).countP (fun line => !isBlankText line) =
      ((lines output.toList).map (LineReading.ofLine (.pinned file))).countP (· ≠ .blank) := by
    rw [List.countP_map]
    apply List.countP_congr
    intro line _
    simp [LineReading.ofLine_eq_blank_iff]
  have dropped : (lines output.toList).countP (HoldsDropped file ·) =
      ((lines output.toList).map (LineReading.ofLine (.pinned file))).count .dropped := by
    rw [List.count_eq_countP, List.countP_map]
    apply List.countP_congr
    intro line _
    simp [LineReading.ofLine_eq_dropped_iff]
  rw [filled, dropped, LineReading.countP_filled, ofOutput_of_not_isDocument linewise]
  rfl

end Findings

namespace ReportParser

/-- **Line by line.** When neither of two outputs is a document, nor the two on lines of their
own together, the diagnostics of the first one come before those of the second, in a file and
under each file of a workspace, and the skipped lines add up. In any output that is no
document each line that is not blank is shown, skipped, or an object that reports no issue,
and an object is never read as text. -/
theorem lines_compose (parser : ReportParser) :
    (∀ first second, ¬ IsDocument first → ¬ IsDocument second →
      ¬ IsDocument (first ++ "\n" ++ second) →
      (∀ file, parser.fileReport (first ++ "\n" ++ second) file =
        { diagnostics := (parser.fileReport first file).diagnostics ++
            (parser.fileReport second file).diagnostics
          format := .lines
          skipped := (parser.fileReport first file).skipped +
            (parser.fileReport second file).skipped }) ∧
      ∀ root, parser.projectReport (first ++ "\n" ++ second) root =
        { diagnostics := (parser.projectReport first root).diagnostics.followedBy
            (parser.projectReport second root).diagnostics
          format := .lines
          skipped := (parser.projectReport first root).skipped +
            (parser.projectReport second root).skipped }) ∧
    ∀ output, ¬ IsDocument output →
      (∀ file, (lines output.toList).countP (fun line => !isBlankText line) =
        (parser.fileReport output file).diagnostics.length +
          (parser.fileReport output file).skipped +
            (lines output.toList).countP (HoldsDropped file ·)) ∧
      ∀ placement, Findings.AreOfLines placement output := by
  constructor
  · intro first second firstLines secondLines bothLines
    have joined := fun placement =>
      Findings.ofOutput_append placement firstLines secondLines bothLines
    constructor
    · intro file
      simp only [fileReport, joined, Findings.diagnostics, List.map_append]
    · intro root
      simp only [projectReport, joined, Findings.diagnostics, List.map_append, Keyed.group_append]
  · intro output linewise
    refine ⟨fun file => ?_, Findings.areOfLines linewise⟩
    rw [fileReport, Findings.diagnostics, List.length_map]
    exact Findings.length_filled linewise

/-- A line that says nothing before a text line is skipped, and the text line is shown. -/
theorem lines_compose_unused :
    (({} : ReportParser).fileReport ("mago: done" ++ "\n" ++ PlainIssue.unused.text) "/x.php") =
      { diagnostics := [PlainIssue.unused.diagnostic "mago" "/x.php"]
        format := .lines
        skipped := 1 } ∧
    (lines ("mago: done" ++ "\n" ++ PlainIssue.unused.text).toList).countP
      (HoldsDropped "/x.php" ·) = 0 := by
  have first : ¬ IsDocument "mago: done" :=
    not_isDocument_of_bare rfl rfl (by decide) (by decide)
  have second : ¬ IsDocument PlainIssue.unused.text := PlainIssue.unused.not_isDocument_text
  have both : ¬ IsDocument ("mago: done" ++ "\n" ++ PlainIssue.unused.text) :=
    not_isDocument_of_bare rfl rfl (by decide) (by decide)
  obtain ⟨joined, accounted⟩ := lines_compose {}
  have skips : ({} : ReportParser).fileReport "mago: done" "/x.php" =
      { diagnostics := [], format := .lines, skipped := 1 } := by
    rw [fileReport, Findings.ofOutput_of_not_isDocument first]
    decide
  have shown : (({} : ReportParser).fileReport PlainIssue.unused.text "/x.php").diagnostics =
      [PlainIssue.unused.diagnostic "mago" "/x.php"] :=
    PlainIssue.unused.diagnostics_eq (.text rfl) (.pinned "/x.php") "mago"
  have one := (accounted _ second).1 "/x.php"
  have two := (accounted _ both).1 "/x.php"
  have whole := (joined _ _ first second both).1 "/x.php"
  have filledOne : (lines PlainIssue.unused.text.toList).countP
      (fun line => !isBlankText line) = 1 := by decide
  have filledTwo : (lines ("mago: done" ++ "\n" ++ PlainIssue.unused.text).toList).countP
      (fun line => !isBlankText line) = 2 := by decide
  rw [shown, filledOne, List.length_singleton] at one
  rw [whole, skips, shown, filledTwo, List.nil_append, List.length_singleton] at two
  dsimp only at two
  have noneSkipped :
      (({} : ReportParser).fileReport PlainIssue.unused.text "/x.php").skipped = 0 := by
    omega
  constructor
  · rw [whole, skips, shown, noneSkipped]
    rfl
  · omega

end ReportParser

end LintReport
