import LintReport.Check

/-! # Results of checks

What a check comes to, step by step: whether its run is let in, and which result it has
then. Later modules take a check apart with `Checker.result_eq_ok_iff` and do not look at
the steps themselves again. -/

namespace LintReport

/-- A lint run of the default tool on one file. -/
def CheckRequest.ofLint (output : String) : CheckRequest :=
  { tool := .given "mago", command := .given "lint", target := .file "/x.php", output }

/-- A lint run of the default tool on a workspace. -/
def CheckRequest.ofWorkspace (output : String) : CheckRequest :=
  { tool := .given "mago"
    command := .given "lint"
    target := .workspace (some (.given "/w"))
    output }

namespace Checker

/-- Whether the output of a run is within the limit. -/
def Fits (checker : Checker) (request : CheckRequest) : Prop :=
  request.output.length ≤ checker.settings.maxOutputChars

/-- The parser that is registered for the tool of a run. -/
def parser? (checker : Checker) (request : CheckRequest) : Option ReportParser :=
  request.tool.text?.bind checker.registry.parser?

/-- Whether the tool of a run is listed among the registered ones. -/
def Knows (checker : Checker) (request : CheckRequest) : Prop :=
  ∃ tool ∈ request.tool.text?, tool ∈ checker.registry.tools

variable {checker : Checker} {request : CheckRequest}

instance : Decidable (checker.Fits request) :=
  inferInstanceAs (Decidable (_ ≤ _))

theorem isSome_parser?_iff_knows : (checker.parser? request).isSome ↔ checker.Knows request := by
  unfold parser? Knows
  cases request.tool.text? with
  | none => simp
  | some tool => simp [Registry.isSome_parser?_iff]

/-- No parser is found exactly for a tool that is not known. -/
theorem parser?_eq_none_iff : checker.parser? request = none ↔ ¬ checker.Knows request := by
  rw [← isSome_parser?_iff_knows, Bool.not_eq_true, Option.isSome_eq_false_iff,
    Option.isNone_iff_eq_none]

/-- A parser that is found is registered. -/
theorem mem_parsers_of_parser? {parser : ReportParser}
    (found : checker.parser? request = some parser) :
    parser ∈ checker.registry.parsers := by
  obtain ⟨tool, _, listed⟩ := Option.bind_eq_some_iff.mp found
  exact List.mem_of_find?_eq_some listed

/-- An output over the limit is refused before the tool is looked up. -/
theorem accept_of_not_fits (large : ¬ checker.Fits request) :
    checker.accept request =
      .error (.outputTooLarge request.output.length checker.settings.maxOutputChars) :=
  if_pos (Int.not_le.mp large)

/-- An output within the limit is accepted by the parser of its tool. -/
theorem accept_of_fits (fits : checker.Fits request) :
    checker.accept request =
      match checker.parser? request with
      | none => .error (.unknownTool request.tool)
      | some parser => .ok parser :=
  if_neg (Int.not_lt.mpr fits)

/-- A run is let in with the parser for its tool if its output is within the limit. -/
theorem accept_eq_ok_iff {parser : ReportParser} :
    checker.accept request = .ok parser ↔
      checker.Fits request ∧ checker.parser? request = some parser := by
  by_cases fits : checker.Fits request
  · rw [accept_of_fits fits]
    cases checker.parser? request <;> simp [fits]
  · rw [accept_of_not_fits fits]
    simp [fits]

/-- A request that is not accepted has no result. -/
theorem result_of_accept_error {error : CheckError}
    (refused : checker.accept request = .error error) :
    checker.result request = .error error := by
  rw [result, refused]

/-- An accepted request fails as its output tells, or else is finished with the report of its
parser. -/
theorem result_of_accept_ok {parser : ReportParser}
    (accepted : checker.accept request = .ok parser) :
    checker.result request =
      match ToolFailure.detect? request.output with
      | .error problem => .error (.unreadablePlace problem)
      | .ok (some failure) => .ok (failed request failure)
      | .ok none => .ok (finished request (parser.report request.output request.target)) := by
  cases detected : ToolFailure.detect? request.output with
  | error problem => simp only [result, accepted, detected]
  | ok failure? => cases failure? <;> simp only [result, accepted, detected]

/-- **What a result comes from.** The run was let in, and the result either tells of the
failure that its output tells of or shows the report on it. -/
theorem result_eq_ok_iff {result : CheckResult} :
    checker.result request = .ok result ↔
      ∃ parser, checker.accept request = .ok parser ∧
        ((∃ failure, ToolFailure.detect? request.output = .ok (some failure) ∧
            result = failed request failure) ∨
          (ToolFailure.detect? request.output = .ok none ∧
            result = finished request (parser.report request.output request.target))) := by
  cases entry : checker.accept request with
  | error error =>
      rw [result_of_accept_error entry]
      simp
  | ok parser =>
      rw [result_of_accept_ok entry]
      cases ToolFailure.detect? request.output with
      | error problem => simp
      | ok failure? => cases failure? <;> simp [eq_comm]

/-- The answer to a check does not depend on the collection. -/
theorem answer_check (checker : Checker) (collection : Collection) (request : CheckRequest) :
    (checker.check collection request).answer = checker.result request := by
  unfold check
  split
  · next refused => exact refused.symm
  · next answered => exact answered.symm

/-- A check without a result leaves the collection as it was. -/
theorem collection_check_of_error {error : CheckError}
    (refused : checker.result request = .error error) (collection : Collection) :
    (checker.check collection request).collection = collection := by
  rw [check, refused]

/-- A check with a result merges its diagnostics. -/
theorem collection_check_of_ok {result : CheckResult}
    (answered : checker.result request = .ok result) (collection : Collection) :
    (checker.check collection request).collection = collection.mergeAll result.diagnostics := by
  rw [check, answered]

/-- The diagnostics that a check merges, by file: those of its result, if it has one. -/
def merges (checker : Checker) (request : CheckRequest) : Keyed (List Diagnostic) :=
  match checker.result request with
  | .ok result => result.diagnostics
  | .error _ => []

/-- What a check merges depends on the request alone. -/
theorem collection_check (checker : Checker) (collection : Collection) (request : CheckRequest) :
    (checker.check collection request).collection =
      collection.mergeAll (checker.merges request) := by
  unfold merges
  split
  · next answered => exact collection_check_of_ok answered collection
  · next refused => exact collection_check_of_error refused collection

/-! ## Reports -/

/-- A run has found issues exactly if its report shows a diagnostic. -/
theorem outcome_finished_iff {report : ReportSummary} :
    (finished request report).outcome = .issuesFound ↔ 0 < report.diagnostics.total := by
  change outcome request.output report.format report.diagnostics.total = .issuesFound ↔ _
  unfold outcome
  split
  · next some => simp [some]
  · next none =>
      split
      · simp [none]
      · simp [none]

end Checker

end LintReport
