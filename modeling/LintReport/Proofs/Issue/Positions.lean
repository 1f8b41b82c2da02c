import LintReport.Diagnostic
import LintReport.Proofs.Issue.Fields
import LintReport.Proofs.Issue.Ordinal

/-! # Positions

Every line and column of a report is converted once, from counting from one to counting from zero,
and each one that is missing or unusable has its own default (`Issue.Stands`). This is where the
diagnostic of an issue stands, and the diagnostic of a text line stands where its digits say
(`Diagnostic.spans_stand`). -/

namespace LintReport

open Json LintReport.Ordinal

namespace Issue

variable {raw mark : Value} {span : Span}

/-- Whether a span is what an annotation says. A missing end is that of one column. -/
structure IsMarked (mark : Value) (span : Span) : Prop where
  line : IsCoordinate (mark.inside? ["span", "start", "line"]) 0 span.start.line
  column : IsCoordinate (mark.inside? ["span", "start", "column"]) 0 span.start.column
  endLine : IsCoordinate (mark.inside? ["span", "end", "line"]) span.start.line span.stop.line
  endColumn :
    IsCoordinate (mark.inside? ["span", "end", "column"]) (span.start.column + 1) span.stop.column

/-- Whether a span is where an issue stands: in the annotation that decides, or else at a line of
its own, or else at the top of its file. -/
inductive Stands (raw : Value) : Span → Prop
  | marked {mark : Value} {span : Span} (selected : Selects raw mark) (marks : IsMarked mark span) :
      Stands raw span
  | placed {row : Value} {line column : Int} (bare : ∀ mark, ¬ Selects raw mark)
      (present : raw.get? "line" = some row) (known : IsCoordinate (some row) 0 line)
      (reached : IsCoordinate (raw.get? "column") 0 column) :
      Stands raw (.marker line column)
  | nowhere (bare : ∀ mark, ¬ Selects raw mark) (absent : raw.get? "line" = none) :
      Stands raw (.marker 0 0)

/-- What is read at a name of an object gives the coordinate that stands there. -/
theorem isCoordinate_get?_iff {value : Value} {name : String} {default coordinate : Int} :
    IsCoordinate (value.get? name) default coordinate ↔
      coordinate = ofValue (value.getD name) (default + 1) - 1 :=
  isCoordinate_iff

/-- A span is that of an extent exactly if each of its coordinates is one less. -/
theorem span_eq_iff {extent : Extent} :
    span = extent.span ↔
      (span.start.line = extent.line - 1 ∧ span.start.column = extent.column - 1) ∧
        span.stop.line = extent.endLine - 1 ∧ span.stop.column = extent.endColumn - 1 := by
  obtain ⟨⟨line, column⟩, ⟨endLine, endColumn⟩⟩ := span
  simp only [Extent.span, Span.mk.injEq, Position.mk.injEq]

/-- The defaults of an end are those of the start after it was converted. -/
theorem isMarked_iff : IsMarked mark span ↔ span = (anchoredExtent mark).span := by
  have fields : IsMarked mark span ↔ _ ∧ _ ∧ _ ∧ _ :=
    ⟨fun marks => ⟨marks.line, marks.column, marks.endLine, marks.endColumn⟩,
      fun ⟨line, column, endLine, endColumn⟩ => ⟨line, column, endLine, endColumn⟩⟩
  simp only [fields, Value.inside?_cons_cons, Value.inside?_singleton, isCoordinate_get?_iff,
    span_eq_iff, and_assoc, anchoredExtent]
  refine and_congr_right fun line => and_congr_right fun column => ?_
  rw [line, column, zero_add, sub_add_cancel, sub_add_cancel]

/-- Without annotations the span is a marker at the line and the column. -/
theorem span_extent_of_placed {row : Value} (bare : anchor? raw = none)
    (present : raw.get? "line" = some row) :
    (extent raw).span = .marker (ofValue row - 1) (ofValue (raw.getD "column") - 1) := by
  have here : raw.entries.has "line" := Option.isSome_of_eq_some present
  have read : raw.getD "line" = row := by rw [Value.getD, present, Option.getD_some]
  rw [extent, bare]
  dsimp only [Extent.span, Span.marker]
  rw [if_pos here, read, add_sub_cancel_right, sub_add_cancel]

/-- Without a line it is a marker at the start. -/
theorem span_extent_of_nowhere (bare : anchor? raw = none) (absent : raw.get? "line" = none) :
    (extent raw).span = .marker 0 0 := by
  have missing : ¬ raw.entries.has "line" := by
    rw [Keyed.has, Option.isSome_iff_ne_none, not_not]
    exact absent
  have read : raw.getD "line" = .null := by rw [Value.getD, absent, Option.getD_none]
  rw [extent, bare]
  dsimp only [Extent.span]
  rw [if_neg missing, read]
  rfl

/-- There is one span at which an object stands. -/
theorem stands_iff : Stands raw span ↔ span = (extent raw).span := by
  constructor
  · intro stands
    cases stands with
    | marked selected marks =>
        rw [extent, anchor?_eq_some_iff.mpr selected]
        exact isMarked_iff.mp marks
    | placed bare present known reached =>
        rw [span_extent_of_placed (anchor?_eq_none_iff.mpr bare) present,
          isCoordinate_iff.mp known, isCoordinate_get?_iff.mp reached]
        rfl
    | nowhere bare absent =>
        exact (span_extent_of_nowhere (anchor?_eq_none_iff.mpr bare) absent).symm
  · rintro rfl
    cases found : anchor? raw with
    | some mark =>
        refine .marked (anchor?_eq_some_iff.mp found) (isMarked_iff.mpr ?_)
        rw [extent, found]
    | none =>
        have bare := anchor?_eq_none_iff.mp found
        cases present : raw.get? "line" with
        | some row =>
            rw [span_extent_of_placed found present]
            exact .placed bare present (isCoordinate_iff.mpr rfl) (isCoordinate_get?_iff.mpr rfl)
        | none =>
            rw [span_extent_of_nowhere found present]
            exact .nowhere bare present

end Issue

/-- A text line gives no end, so its span is one column wide. -/
theorem TextLine.span_toIssue {text : List Char} {line : TextLine}
    (found : ofText? text = some line) (placement : Placement) :
    (line.toIssue placement).span =
      .marker (coordinate line.remark.line) (line.remark.column.elim 0 coordinate) := by
  obtain ⟨after, _, read⟩ := (ofText?_eq_some_iff.mp found).stands
  obtain ⟨row, numbers, _⟩ := Remark.place_of_ofText? read
  have column : (line.remark.column.map ofDigits).getD 1 - 1 =
      line.remark.column.elim 0 coordinate := by
    cases given : line.remark.column with
    | none => rfl
    | some digits => exact ofDigits_sub_one (numbers digits given)
  rw [← ofDigits_sub_one row, ← column]
  rfl

namespace Diagnostic

/-- **Positions are converted once**, however issues are placed: the diagnostic of a JSON issue
stands where its annotation or its own line says, and that of a text line where its digits say. -/
theorem spans_stand (placement : Placement) (source : String) :
    (∀ raw issue, Issue.ofValue? placement raw = some issue →
      Issue.Stands raw (ofIssue issue source).span) ∧
    ∀ text line, TextLine.ofText? text = some line →
      (ofIssue (line.toIssue placement) source).span =
        .marker (coordinate line.remark.line) (line.remark.column.elim 0 coordinate) := by
  constructor
  · intro raw issue reported
    exact Issue.stands_iff.mpr (Issue.isRead_of_ofValue? reported).span
  · intro text line found
    exact TextLine.span_toIssue found placement

/-- An annotation whose column is a boolean and whose end is an array, and a line of digits of two
scripts. -/
theorem spans_stand_malformed :
    let raw : Value := .object [("message", .string "m"), ("annotations", .array [.null, .object
      [("kind", .string "Primary"), ("span", .object
        [("start", .object [("line", .string " +1_2"), ("column", .bool true)]),
          ("end", .array [])])]])]
    (∃ issue, Issue.ofValue? (.pinned "a.php") raw = some issue ∧
      issue.span = .marker 11 0 ∧ Issue.Stands raw (ofIssue issue "mago").span) ∧
    let line : TextLine := ⟨"a.php".toList, ⟨['0'], some ['1', '\u0663'], "error".toList, ['m']⟩⟩
    TextLine.ofText? "a.php:0:1\u0663: error: m".toList = some line ∧
      (ofIssue (line.toIssue (.pinned "a.php")) "mago").span = .marker 0 12 := by
  have stand := spans_stand (.pinned "a.php") "mago"
  have found : TextLine.ofText? "a.php:0:1\u0663: error: m".toList = some
      ⟨"a.php".toList, ⟨['0'], some ['1', '\u0663'], "error".toList, ['m']⟩⟩ := by decide
  refine ⟨⟨_, rfl, by decide, stand.1 _ _ rfl⟩, found, ?_⟩
  rw [stand.2 _ _ found]
  decide

end Diagnostic

end LintReport
