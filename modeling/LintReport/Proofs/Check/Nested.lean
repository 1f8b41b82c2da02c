import LintReport.Proofs.Check.Codes
import LintReport.Proofs.Report.Document

/-! # Codes that nest too deep

A report may nest deeper than what is copied. One with arrays inside one another as the code of
its only issue is read like any other (`Origin.ofOutput_nestedReport`), and then the check has a
result whose diagnostics cannot be copied (`Checker.exists_result_nestedReport`). -/

namespace LintReport

open Json

namespace Json.Value

/-- So many arrays inside one another. -/
def nested : (depth : Nat) → Value
  | 0 => .null
  | depth + 1 => .array [nested depth]

/-- Arrays inside one another nest as deep as there are arrays. -/
@[simp]
theorem depth_nested (depth : Nat) : (nested depth).depth = depth := by
  induction depth with
  | zero => rfl
  | succ depth ih => rw [nested, Value.depth, depthOf, depthOf, ih, Nat.max_zero]

theorem isWritable_nested (depth : Nat) : (nested depth).IsWritable depth := by
  induction depth with
  | zero => exact trivial
  | succ depth ih => simpa [nested, IsWritable] using ih

/-- Arrays inside one another are written as their brackets. -/
theorem write_nested (level depth : Nat) :
    write .inline level (nested depth) =
      List.replicate depth '[' ++ "null".toList ++ List.replicate depth ']' := by
  induction depth generalizing level with
  | zero => rfl
  | succ depth ih =>
      rw [nested, write, writeItems, ih, List.replicate_succ, List.replicate_succ']
      simp [Layout.gap]

end Json.Value

namespace Issue

/-- A value that reports an issue with a code. -/
def withCode (code : Value) : Value :=
  .object [("message", .string "m"), ("code", code)]

/-- The output that reports one issue, with arrays inside one another as its code. -/
def nestedReport (depth : Nat) : String :=
  (withCode (.nested depth)).print .inline

theorem isWritable_withCode {code : Value} {depth : Nat} (writable : code.IsWritable depth) :
    (withCode code).IsWritable (depth + 1) := by
  simpa [withCode, Value.IsWritable, Keyed.keys] using writable

/-- The report spelled out: each array takes one character on either side. -/
theorem toList_nestedReport (depth : Nat) :
    (nestedReport depth).toList =
      "\x7b\"message\": \"m\", \"code\": ".toList ++
        (List.replicate depth '[' ++ "null".toList ++ List.replicate depth ']') ++ ['}'] := by
  have names : writeString "message" = "\"message\"".toList ∧
      writeString "m" = "\"m\"".toList ∧ writeString "code" = "\"code\"".toList := by decide
  rw [nestedReport, Value.print, String.toList_ofList, ← Value.write_nested 1]
  simp [withCode, write, writeEntries, Layout.gap, Layout.separator, names]

/-- The report is two characters longer for each array. -/
theorem length_nestedReport (depth : Nat) : (nestedReport depth).length = 2 * depth + 30 := by
  rw [← String.length_toList, toList_nestedReport]
  simp
  omega

/-- The issue has the code that is given, as an array says something. -/
theorem exists_ofValue?_withCode_nested (file : String) (depth : Nat) :
    ∃ issue, ofValue? (.pinned file) (withCode (.nested (depth + 1))) = some issue ∧
      issue.code = .nested (depth + 1) :=
  ⟨_, rfl, rfl⟩

end Issue

/-- The value is read back from its text, as deep as it is. -/
theorem Origin.ofOutput_nestedReport {depth : Nat} (room : depth < maxDepth) :
    ofOutput (Issue.nestedReport depth) = [.value (Issue.withCode (.nested depth))] := by
  have writable := Issue.isWritable_withCode (Value.isWritable_nested depth)
  have denotes := (@denotes_write .inline _ 0 _ writable).mono room
  have read := @Document.read_surrounded _ [] [] _ denotes (by simp) (by simp)
  rw [List.nil_append, List.append_nil] at read
  rw [ofOutput, Issue.nestedReport, Value.print, String.toList_ofList, read]
  rfl

namespace Checker

variable {checker : Checker} {depth : Nat}

/-- No failure is told by brackets. -/
theorem detect?_nestedReport (depth : Nat) :
    ToolFailure.detect? (Issue.nestedReport depth) = .ok none := by
  refine ToolFailure.detect?_eq_none_iff.mpr fun marked => ?_
  have inside := marked.subset (by decide : 'E' ∈ ToolFailure.errorMark)
  rw [Issue.toList_nestedReport] at inside
  simp at inside

/-- Within what can be parsed the report is short enough to be accepted. -/
theorem fits_nestedReport (room : depth < maxDepth)
    (roomy : 2000 ≤ checker.settings.maxOutputChars) :
    checker.Fits (.ofLint (Issue.nestedReport depth)) := by
  unfold maxDepth at room
  simp only [Fits, CheckRequest.ofLint, Issue.length_nestedReport]
  omega

/-- **A report may have a code that cannot be copied**, and then the result of its check cannot be
copied either. -/
theorem exists_result_nestedReport (known : checker.Knows (.ofLint ""))
    (roomy : 2000 ≤ checker.settings.maxOutputChars) (deep : copyDepth < depth)
    (room : depth < maxDepth) :
    ∃ result, checker.result (.ofLint (Issue.nestedReport depth)) = .ok result ∧
      ¬ Diagnostic.areCopyable result.diagnostics := by
  have fits := @fits_nestedReport checker depth room roomy
  obtain ⟨parser, found⟩ := Option.isSome_iff_exists.mp (isSome_parser?_iff_knows.mpr known)
  have accepted := accept_eq_ok_iff.mpr ⟨fits, found⟩
  have answered := result_eq_ok_iff.mpr
    ⟨parser, accepted, .inr ⟨detect?_nestedReport depth, rfl⟩⟩
  refine ⟨_, answered, fun copyable => ?_⟩
  obtain ⟨depth, rfl⟩ : ∃ below, depth = below + 1 := ⟨depth - 1, by omega⟩
  have member : Origin.value (Issue.withCode (.nested (depth + 1))) ∈
      Origin.ofOutput (Issue.nestedReport (depth + 1)) := by
    rw [Origin.ofOutput_nestedReport room]
    exact List.mem_singleton_self _
  obtain ⟨issue, read, code⟩ := Issue.exists_ofValue?_withCode_nested "/x.php" depth
  obtain ⟨source, diagnostics, inside, listed⟩ :=
    exists_diagnostics_of_issue answered rfl member read
  have shallow := Diagnostic.areCopyable_iff.mp copyable _ (Keyed.mem_of_get? listed) _ inside
  rw [Diagnostic.ofIssue, code, Value.depth_nested] at shallow
  exact absurd deep (Nat.not_lt.mpr shallow)

end Checker

end LintReport
