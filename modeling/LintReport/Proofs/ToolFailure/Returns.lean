import LintReport.Proofs.Text.Returns
import LintReport.Proofs.ToolFailure.Detection
import Mathlib.Data.List.Forall2

/-! # Failures and the ends of lines

A failure is found in a text exactly if it is found in the text with a carriage return before
every newline. Neither the mark of failures nor the sentences that are looked for hold a line
end, so both texts tell of the same kind and the same place, and only the error lines show
the returns (`ToolFailure.detect?_withReturns`). -/

namespace LintReport

open Text

/-- Whether two computations fail alike or give related values. -/
inductive AnswersAlike {Error Value : Type} (related : Value → Value → Prop) :
    Except Error Value → Except Error Value → Prop
  | error (error : Error) : AnswersAlike related (.error error) (.error error)
  | ok {first second : Value} (values : related first second) :
      AnswersAlike related (.ok first) (.ok second)

/-- The text with a carriage return before every newline. -/
def Text.returned (text : String) : String :=
  String.ofList (withReturns text.toList)

@[simp]
theorem Text.toList_returned (text : String) : (returned text).toList = withReturns text.toList :=
  String.toList_ofList

/-- What has no line ends occurs with returns exactly where it occurs without. -/
theorem Text.occurs_withReturns {needle : List Char} (filled : needle ≠ [])
    (unbroken : IsUnbroken needle) (text : List Char) :
    occurs needle (withReturns text) = occurs needle text := by
  rw [Bool.eq_iff_iff, occurs_iff_isInfix, occurs_iff_isInfix]
  exact isInfix_withReturns_iff filled unbroken

namespace ToolFailure

/-- Whether a failure is another one but for returns at the ends of its error lines. -/
structure IsReturned (failure returned : ToolFailure) : Prop where
  kind : returned.kind = failure.kind
  line : returned.line = failure.line
  column : returned.column = failure.column
  errorLines : List.Forall₂ (fun line other => Text.IsReturned line.toList other.toList)
    failure.errorLines returned.errorLines

/-- Failures that are alike up to returns are described alike. -/
theorem IsReturned.describe_eq {failure returned : ToolFailure}
    (alike : failure.IsReturned returned) (command : String) :
    returned.describe command = failure.describe command := by
  unfold describe
  rw [alike.kind, alike.line, alike.column]

/-- A place stands within a line, so returns do not break it. -/
theorem placeHere?_withReturns (text : List Char) :
    placeHere? (withReturns text) = placeHere? text := by
  have digits : isDigit '\n' = false ∧ isDigit '\r' = false := by decide
  have sentence : IsUnbroken "TOML parse error at line ".toList := by decide
  have middle : IsUnbroken ", column ".toList := by decide
  rw [placeHere?, placeHere?, after?_withReturns sentence]
  cases after? "TOML parse error at line ".toList text with
  | none => rfl
  | some rest =>
      simp only [Option.map_some, takeWhile_withReturns digits.1 digits.2,
        dropWhile_withReturns digits.1 digits.2, after?_withReturns middle]
      cases after? ", column ".toList (rest.dropWhile isDigit) with
      | none => rfl
      | some rest => simp only [Option.map_some, takeWhile_withReturns digits.1 digits.2]

/-- A text gives the same place with returns. -/
theorem place?_withReturns (text : List Char) : place? (withReturns text) = place? text := by
  induction text with
  | nil => rfl
  | cons char rest ih =>
      by_cases newline : char = '\n'
      · subst newline
        have returned : place? (['\r', '\n'] ++ withReturns rest) = place? (withReturns rest) :=
          place?_append (by decide) _
        have plain : place? (['\n'] ++ rest) = place? rest := place?_append (by decide) _
        exact returned.trans (ih.trans plain.symm)
      · have here := placeHere?_withReturns (char :: rest)
        rw [withReturns_cons newline] at here ⊢
        rw [place?, place?, here, ih]

/-- A return at the end of a line does not mark it. -/
theorem isMarked_of_isReturned {line other : List Char} (same : Text.IsReturned line other) :
    isMarked other = isMarked line := by
  rcases same with rfl | rfl
  · rfl
  · have nothing : ¬ errorMark <:+: [] := by decide
    rw [isMarked, isMarked, Bool.eq_iff_iff, occurs_iff_isInfix, occurs_iff_isInfix,
      isInfix_append_cons_iff (by decide), or_iff_left nothing]

/-- With returns the error lines are the same up to the return at their ends. -/
theorem errorLines_withReturns (text : List Char) :
    List.Forall₂ (fun line other => Text.IsReturned line.toList other.toList)
      (((lines text).filter isMarked).map String.ofList)
      (((lines (withReturns text)).filter isMarked).map String.ofList) := by
  rw [List.forall₂_map_left_iff, List.forall₂_map_right_iff]
  simp only [String.toList_ofList]
  refine List.rel_filter (fun line other same => ?_) (lines_withReturns text)
  exact Bool.eq_iff_iff.mp (isMarked_of_isReturned same).symm

/-- **The same failure.** With returns before its newlines an output tells of the same failure,
or of none, or cannot be read for the same reason. -/
theorem detect?_withReturns (output : String) :
    AnswersAlike (Option.Rel IsReturned) (detect? output) (detect? (returned output)) := by
  have marked : isMarked (withReturns output.toList) = isMarked output.toList :=
    occurs_withReturns (List.cons_ne_nil _ _) (by decide) _
  have configured : occurs configurationPhrase (withReturns output.toList) =
      occurs configurationPhrase output.toList :=
    occurs_withReturns (List.cons_ne_nil _ _) (by decide) _
  simp only [detect?, toList_returned, marked, configured, place?_withReturns]
  split
  · exact .ok .none
  · split
    · split
      · exact .ok (.some ⟨rfl, rfl, rfl, .nil⟩)
      · split
        · exact .ok (.some ⟨rfl, rfl, rfl, .nil⟩)
        · exact .error _
        · exact .error _
    · exact .ok (.some ⟨rfl, rfl, rfl, errorLines_withReturns output.toList⟩)

end ToolFailure

end LintReport
