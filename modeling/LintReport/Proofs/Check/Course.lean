import LintReport.Proofs.Check.Marked
import Mathlib.Data.List.DropRight

/-! # Courses of calls

What a collection holds after any course of checks and removals that starts with the
empty one. A file holds what the checks since its last removal gave it, one after
another, a check that found no issues leaves the collection as it is, and the diagnostics
are well filed at all times (`Checker.calls_gather`). Each of the three is first shown for
one call. -/

namespace LintReport

/-- A call that may change the collection. -/
inductive Call where
  | check (request : CheckRequest)
  | delete (file : String)
  | clear

namespace Call

/-- Whether a call removes a file. -/
def removes (file : String) : Call → Bool
  | .check _ => false
  | .delete other => other = file
  | .clear => true

/-- The calls after the last one that removes a file. -/
def sinceRemoval (file : String) (calls : List Call) : List Call :=
  calls.rtakeWhile fun call => !call.removes file

/-- A further call either removes the file or comes after its removal. -/
theorem sinceRemoval_concat (file : String) (calls : List Call) (call : Call) :
    sinceRemoval file (calls ++ [call]) =
      if call.removes file then [] else sinceRemoval file calls ++ [call] := by
  unfold sinceRemoval
  by_cases removed : call.removes file = true
  · rw [List.rtakeWhile_concat_neg _ _ _ (by simp [removed]), if_pos removed]
  · rw [List.rtakeWhile_concat_pos _ _ _ (by simp [removed]), if_neg removed]

end Call

namespace Checker

/-- The collection after one call. -/
def afterCall (checker : Checker) (collection : Collection) : Call → Collection
  | .check request => (checker.check collection request).collection
  | .delete file => (collection.delete file).2
  | .clear => .empty

/-- The collection after a course of calls that starts with the empty one. -/
def afterCalls (checker : Checker) (calls : List Call) : Collection :=
  calls.foldl checker.afterCall .empty

/-- The diagnostics that a file gains by a call: those of its result, if it has one. -/
def gained (checker : Checker) (file : String) : Call → List Diagnostic
  | .check request =>
      match checker.result request with
      | .ok result => (result.diagnostics.get? file).getD []
      | .error _ => []
  | _ => []

/-- The sources that the registered parsers tag diagnostics with. -/
def sources (checker : Checker) : List String :=
  checker.registry.parsers.map ReportParser.source

variable {checker : Checker} {request : CheckRequest}

theorem afterCalls_concat (checker : Checker) (calls : List Call) (call : Call) :
    checker.afterCalls (calls ++ [call]) = checker.afterCall (checker.afterCalls calls) call :=
  List.foldl_concat ..

/-! ## Results -/

/-- The diagnostics of a result are well filed. -/
theorem wellFiled_of_result {result : CheckResult}
    (answered : checker.result request = .ok result) :
    WellFiled checker.sources result.diagnostics := by
  obtain ⟨parser, accepted, ⟨failure, _, rfl⟩ | ⟨_, rfl⟩⟩ := result_eq_ok_iff.mp answered
  · exact WellFiled.nil
  · obtain ⟨_, found⟩ := accept_eq_ok_iff.mp accepted
    apply ReportParser.wellFiled_report
    exact List.mem_map_of_mem (mem_parsers_of_parser? found)

/-- Only a result that tells of issues has diagnostics. -/
theorem diagnostics_eq_nil {result : CheckResult} (answered : checker.result request = .ok result)
    (other : result.outcome ≠ .issuesFound) : result.diagnostics = [] := by
  have filed := wellFiled_of_result answered
  obtain ⟨parser, _, ⟨failure, _, rfl⟩ | ⟨_, rfl⟩⟩ := result_eq_ok_iff.mp answered
  · rfl
  · apply filed.eq_nil_of_total
    rw [Ne, outcome_finished_iff] at other
    exact Nat.eq_zero_of_not_pos other

/-! ## One call -/

/-- A call that removes a file adds nothing to it. -/
theorem gained_of_removes {call : Call} {file : String} (removed : call.removes file = true) :
    checker.gained file call = [] := by
  cases call with
  | check request => cases removed
  | delete other => rfl
  | clear => rfl

/-- A call removes the diagnostics of a file or adds to them. -/
theorem get_afterCall (checker : Checker) (collection : Collection) (call : Call) (file : String) :
    (checker.afterCall collection call).get file =
      (if call.removes file then [] else collection.get file) ++ checker.gained file call := by
  cases call with
  | check request =>
      rw [afterCall, gained, Call.removes, if_neg Bool.false_ne_true]
      cases answer : checker.result request with
      | error error => rw [collection_check_of_error answer, List.append_nil]
      | ok result =>
          rw [collection_check_of_ok answer,
            Collection.get_mergeAll (wellFiled_of_result answer).distinct]
  | delete other => simp [afterCall, gained, Call.removes]
  | clear => simp [afterCall, gained, Call.removes]

/-- A check that finds no issues leaves the collection as it was. -/
theorem collection_check_of_outcome
    (other : ∀ result, checker.result request = .ok result → result.outcome ≠ .issuesFound)
    (collection : Collection) : (checker.check collection request).collection = collection := by
  cases answer : checker.result request with
  | error error => exact collection_check_of_error answer collection
  | ok result =>
      rw [collection_check_of_ok answer, diagnostics_eq_nil answer (other result answer)]
      rfl

/-- Every call leaves the collection well filed. -/
theorem wellFiled_afterCall {collection : Collection}
    (filed : WellFiled checker.sources collection.byFile) (call : Call) :
    WellFiled checker.sources (checker.afterCall collection call).byFile := by
  cases call with
  | check request =>
      rw [afterCall]
      cases answer : checker.result request with
      | error error =>
          rw [collection_check_of_error answer]
          exact filed
      | ok result =>
          rw [collection_check_of_ok answer]
          exact Collection.wellFiled_mergeAll filed (wellFiled_of_result answer)
  | delete file => exact filed.erase file
  | clear => exact WellFiled.nil

/-! ## Courses of calls -/

/-- A file has what the calls since its removal found in it, in order. -/
theorem get_afterCalls (checker : Checker) (calls : List Call) (file : String) :
    (checker.afterCalls calls).get file =
      (Call.sinceRemoval file calls).flatMap (checker.gained file) := by
  induction calls using List.reverseRecOn with
  | nil => rfl
  | append_singleton calls call ih =>
      -- the last call either removes the file or adds to what it had before
      rw [afterCalls_concat, get_afterCall, Call.sinceRemoval_concat, ih]
      by_cases removed : call.removes file = true
      · rw [if_pos removed, if_pos removed, gained_of_removes removed]
        rfl
      · rw [if_neg removed, if_neg removed, List.flatMap_append, List.flatMap_singleton]

/-- Every course of calls leaves the collection well filed. -/
theorem wellFiled_afterCalls (checker : Checker) (calls : List Call) :
    WellFiled checker.sources (checker.afterCalls calls).byFile := by
  induction calls using List.reverseRecOn with
  | nil => exact WellFiled.nil
  | append_singleton calls call ih =>
      rw [afterCalls_concat]
      exact wellFiled_afterCall ih call

/-- What is held after a course of calls comes from the result of a check. -/
theorem exists_result_of_mem_afterCalls {calls : List Call} {entry : String × List Diagnostic}
    (member : entry ∈ (checker.afterCalls calls).byFile) {diagnostic : Diagnostic}
    (inside : diagnostic ∈ entry.2) :
    ∃ request result, checker.result request = .ok result ∧
      ∃ filed ∈ result.diagnostics, diagnostic ∈ filed.2 := by
  have held : (checker.afterCalls calls).get entry.1 = entry.2 := by
    rw [Collection.get, Keyed.get?_of_mem (wellFiled_afterCalls checker calls).distinct member,
      Option.getD_some]
  rw [← held, get_afterCalls] at inside
  obtain ⟨call, -, gained⟩ := List.mem_flatMap.mp inside
  cases call with
  | check request =>
      rw [Checker.gained] at gained
      cases answered : checker.result request with
      | error error =>
          rw [answered] at gained
          exact absurd gained List.not_mem_nil
      | ok result =>
          simp only [answered] at gained
          cases found : result.diagnostics.get? entry.1 with
          | none => simp [found] at gained
          | some diagnostics =>
              rw [found, Option.getD_some] at gained
              exact ⟨request, result, answered, _, Keyed.mem_of_get? found, gained⟩
  | delete other => exact absurd gained List.not_mem_nil
  | clear => exact absurd gained List.not_mem_nil

/-- **What a course of calls gathers.** A file has the diagnostics that the results of the
checks since its last removal give it, in the order of the calls. A further check that has no
result, or one that tells of no issues, leaves the collection as it is. No file has an empty
list or comes twice, and under a file there are only sound diagnostics of its own from the
registered parsers. -/
theorem calls_gather (checker : Checker) (calls : List Call) :
    (∀ file, (checker.afterCalls calls).get file =
      (Call.sinceRemoval file calls).flatMap (checker.gained file)) ∧
    (∀ request,
      (∀ result, (checker.check (checker.afterCalls calls) request).answer = .ok result →
        result.outcome ≠ .issuesFound) →
      checker.afterCalls (calls ++ [.check request]) = checker.afterCalls calls) ∧
    WellFiled checker.sources (checker.afterCalls calls).byFile := by
  refine ⟨get_afterCalls checker calls, ?_, wellFiled_afterCalls checker calls⟩
  intro request other
  rw [answer_check] at other
  rw [afterCalls_concat]
  exact collection_check_of_outcome other _

/-- Of two equal checks with a removal in between, the second one counts, and a check of an
unknown tool after them changes nothing. -/
theorem calls_gather_unused :
    (({ registry := ⟨[{}]⟩ } : Checker).afterCalls
        ([.check (.ofLint PlainIssue.unused.text), .delete "/x.php",
          .check (.ofLint PlainIssue.unused.text)] ++
          [.check { CheckRequest.ofLint "" with tool := .given "other" }])).get "/x.php" =
      [PlainIssue.unused.diagnostic "mago" "/x.php"] := by
  obtain ⟨holds, unchanged, _⟩ := calls_gather { registry := ⟨[{}]⟩ }
    [.check (.ofLint PlainIssue.unused.text), .delete "/x.php",
      .check (.ofLint PlainIssue.unused.text)]
  have since : Call.sinceRemoval "/x.php"
      [.check (.ofLint PlainIssue.unused.text), .delete "/x.php",
        .check (.ofLint PlainIssue.unused.text)] =
      [.check (.ofLint PlainIssue.unused.text)] := rfl
  have answered : ({ registry := ⟨[{}]⟩ } : Checker).result (.ofLint PlainIssue.unused.text) =
      .ok (finished (.ofLint PlainIssue.unused.text)
        (({} : ReportParser).report PlainIssue.unused.text (.file "/x.php"))) :=
    result_of_unmarked (accept_eq_ok_iff.mpr ⟨by decide, rfl⟩) unmarked_unused
  rw [unchanged, holds, since, List.flatMap_singleton]
  · simp only [gained, answered, finished, report_unused, Keyed.get?, if_true, Option.getD_some]
  · intro result told
    rw [answer_check] at told
    cases told

end Checker

end LintReport
