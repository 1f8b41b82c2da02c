import LintReport.Proofs.Issue.Fields
import LintReport.Proofs.Issue.Ordinal
import LintReport.Proofs.Number.Shortest
import LintReport.Proofs.Report.Soundness

/-! # Places that can be spelled out

Whatever denotes a line or a column denotes a number with few enough digits to be spelled
out (`Ordinal.isShort_of_whole?`). Where a report gives no end, the end is the column after
the start: counted from one it may have a digit too many, and counted from zero it is the
start again. So every place of every issue can be spelled out
(`Origin.isShort_span`). -/

namespace LintReport

open Json Numeral

namespace Ordinal

variable {value : Value} {default : Int}

/-- A whole number read off a value that can be spelled out is short. -/
theorem isShort_of_whole? {whole : Int} (spellable : value.isSpellable)
    (denoted : whole? value = some whole) : IsShort whole := by
  cases whole?_eq_some_iff.mp denoted with
  | int => exact of_decide_eq_true spellable
  | float => exact isShort_iff.mpr (Binary64.natAbs_truncate?_lt denoted (by decide))
  | string numeral => exact isShort_of_read (read_eq_ok_iff.mpr numeral)

theorem isShort_of_ofValue? {ordinal : Int} (spellable : value.isSpellable)
    (denoted : ofValue? value = some ordinal) : IsShort ordinal :=
  isShort_of_whole? spellable (Option.filter_eq_some_iff.mp denoted).1

/-- With a short default the ordinal is short whatever the value is. -/
theorem isShort_ofValue (spellable : value.isSpellable) (short : IsShort default) :
    IsShort (ofValue value default) := by
  unfold ofValue
  cases denoted : ofValue? value with
  | none => exact short
  | some ordinal => exact isShort_of_ofValue? spellable denoted

/-- Counted from zero, an ordinal is short if its default is short when counted so. -/
theorem isShort_ofValue_sub_one (spellable : value.isSpellable) (short : IsShort (default - 1)) :
    IsShort (ofValue value default - 1) := by
  unfold ofValue
  cases denoted : ofValue? value with
  | none => exact short
  | some ordinal =>
      have first := le_of_ofValue? denoted
      exact (isShort_of_ofValue? spellable denoted).mono (by simp only [Option.getD_some]; omega)

end Ordinal

/-- Whether the coordinates of a span can be spelled out. -/
structure Span.IsShort (span : Span) : Prop where
  startLine : Numeral.IsShort span.start.line
  startColumn : Numeral.IsShort span.start.column
  stopLine : Numeral.IsShort span.stop.line
  stopColumn : Numeral.IsShort span.stop.column

/-- An entry of what can be spelled out can be spelled out, and so can null. -/
theorem Json.Value.isSpellable_getD {value : Value} (spellable : value.isSpellable)
    (name : String) : (value.getD name).isSpellable := by
  unfold getD
  cases found : value.get? name with
  | none => rfl
  | some inner => exact isSpellable_of_get? spellable found

namespace Issue

/-- The selected annotation of what can be spelled out can be spelled out. -/
theorem isSpellable_of_anchor? {raw anchor : Value} (spellable : raw.isSpellable)
    (found : anchor? raw = some anchor) : anchor.isSpellable := by
  have each : ∀ {marks : List Value}, raw.get? "annotations" = some (.array marks) →
      ∀ mark ∈ marks, mark.isSpellable := fun listed =>
    Value.isSpellable_of_mem_items (Value.isSpellable_of_get? spellable listed) rfl
  cases anchor?_eq_some_iff.mp found with
  | primary listed => exact each listed anchor (List.mem_append_right _ List.mem_cons_self)
  | first listed => exact each listed anchor List.mem_cons_self

/-- The span of an annotation has short numbers. -/
theorem isShort_anchoredExtent {anchor : Value} (spellable : anchor.isSpellable) :
    (anchoredExtent anchor).span.IsShort := by
  have zero : Numeral.IsShort (1 - 1) := by decide
  have one : Numeral.IsShort 1 := by decide
  have span := Value.isSpellable_getD spellable "span"
  have start := Value.isSpellable_getD span "start"
  have stop := Value.isSpellable_getD span "end"
  have line := Ordinal.isShort_ofValue_sub_one (Value.isSpellable_getD start "line") zero
  have column := Value.isSpellable_getD start "column"
  refine ⟨line, Ordinal.isShort_ofValue_sub_one column zero,
    Ordinal.isShort_ofValue_sub_one (Value.isSpellable_getD stop "line") line,
    Ordinal.isShort_ofValue_sub_one (Value.isSpellable_getD stop "column") ?_⟩
  rw [add_sub_cancel_right]
  exact Ordinal.isShort_ofValue column one

/-- The span of an object has short numbers, wherever they come from. -/
theorem isShort_extent {raw : Value} (spellable : raw.isSpellable) :
    (extent raw).span.IsShort := by
  have zero : Numeral.IsShort (1 - 1) := by decide
  have one : Numeral.IsShort 1 := by decide
  unfold extent
  split
  · next anchor found => exact isShort_anchoredExtent (isSpellable_of_anchor? spellable found)
  · have line := Ordinal.isShort_ofValue_sub_one (Value.isSpellable_getD spellable "line") zero
    have column := Value.isSpellable_getD spellable "column"
    split
    · refine ⟨line, Ordinal.isShort_ofValue_sub_one column zero, line, ?_⟩
      dsimp only [Extent.span]
      rw [add_sub_cancel_right]
      exact Ordinal.isShort_ofValue column one
    · exact ⟨line, zero, line, one⟩

end Issue

/-- The span of a text line has short numbers, since longer ones count as missing. -/
theorem TextLine.isShort_span (placement : Placement) (line : TextLine) :
    (line.toIssue placement).span.IsShort := by
  have zero : Numeral.IsShort (1 - 1) := by decide
  have one : Numeral.IsShort 1 := by decide
  have row : Numeral.IsShort (Ordinal.ofDigits line.remark.line - 1) :=
    Ordinal.isShort_ofValue_sub_one rfl zero
  have column : Numeral.IsShort ((line.remark.column.map Ordinal.ofDigits).getD 1 - 1) := by
    cases line.remark.column with
    | none => exact zero
    | some digits => exact Ordinal.isShort_ofValue_sub_one rfl zero
  refine ⟨row, column, row, ?_⟩
  dsimp only [Issue.span, toIssue, Option.getD_none]
  rw [sub_add_cancel]
  cases line.remark.column with
  | none => exact one
  | some digits => exact Ordinal.isShort_ofValue rfl one

/-- **Every place can be spelled out**, whatever numbers an output gives. -/
theorem Origin.isShort_span {placement : Placement} {output : String} {origin : Origin}
    (member : origin ∈ ofOutput output) {issue : Issue}
    (reported : origin.issue? placement = some issue) : issue.span.IsShort := by
  cases origin with
  | value raw =>
      obtain ⟨token, denotes⟩ := denotes_of_mem member
      rw [(Issue.isRead_of_ofValue? reported).span]
      exact Issue.isShort_extent denotes.isSpellable
  | line parts =>
      rw [issue?, Option.some.injEq] at reported
      exact reported ▸ parts.isShort_span placement

/-- A code can be written one level below the object that it is in. -/
theorem Origin.isWritable_code {placement : Placement} {output : String} {origin : Origin}
    (member : origin ∈ ofOutput output) {issue : Issue}
    (reported : origin.issue? placement = some issue) {depth : Nat}
    (shallow : ∀ raw, Origin.value raw ∈ ofOutput output → raw.depth ≤ depth + 1) :
    issue.code.IsWritable depth := by
  cases origin with
  | value raw =>
      obtain ⟨token, denotes⟩ := denotes_of_mem member
      obtain ⟨spellable, distinct, _⟩ := Value.isWritable_iff.mp denotes.isWritable
      have whole : raw.IsWritable (depth + 1) :=
        Value.isWritable_iff.mpr ⟨spellable, distinct, shallow raw member⟩
      rw [(Issue.isRead_of_ofValue? reported).code, Issue.codeOf]
      split
      · exact Value.isWritable_null
      · exact whole.getD "code"
  | line parts =>
      rw [issue?, Option.some.injEq] at reported
      exact reported ▸ Value.isWritable_null

end LintReport
