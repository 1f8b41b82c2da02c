import LintReport.Proofs.Check.Result
import LintReport.Proofs.Report.Attempt
import LintReport.Proofs.ToolFailure.Detection

/-! # Checks without a result

A check has no result for three causes, each with its exact condition: the output is too
large, the tool is unknown, or the output tells of a place in the configuration file that
cannot be read. In all other cases there is a result (`Checker.result_causes`). The last
cause is not one that a caller is told to expect, and one long number brings it about
(`Checker.result_overlongPlace`). -/

namespace LintReport

open ToolFailure

namespace Checker

/-- **When a check has no result.** Reading the output never stands in the way. An output
beyond the limit is refused, then a tool that is not listed. A run that is let in has a
result unless its output tells of a place that cannot be read. -/
theorem result_causes (checker : Checker) (request : CheckRequest) :
    (∀ placement, Findings.attempt placement request.output =
      .ok (Findings.ofOutput placement request.output)) ∧
    (checker.result request =
        .error (.outputTooLarge request.output.length checker.settings.maxOutputChars) ↔
      ¬ checker.Fits request) ∧
    (checker.result request = .error (.unknownTool request.tool) ↔
      checker.Fits request ∧ ¬ checker.Knows request) ∧
    ((∃ problem, checker.result request = .error (.unreadablePlace problem)) ↔
      checker.Fits request ∧ checker.Knows request ∧
        TellsUnreadablePlace request.output.toList) ∧
    ((∃ result, checker.result request = .ok result) ↔
      checker.Fits request ∧ checker.Knows request ∧
        ¬ TellsUnreadablePlace request.output.toList) := by
  refine ⟨fun placement => Findings.attempt_eq placement request.output, ?_⟩
  by_cases fits : checker.Fits request
  · have entry := accept_of_fits fits
    cases known : checker.parser? request with
    | none =>
        have unknown := parser?_eq_none_iff.mp known
        rw [known] at entry
        simp [result_of_accept_error entry, fits, unknown]
    | some parser =>
        have listed : checker.Knows request := by
          rw [← isSome_parser?_iff_knows, known, Option.isSome_some]
        rw [known] at entry
        rw [result_of_accept_ok entry, ← isError_detect?_iff]
        cases ToolFailure.detect? request.output with
        | error problem => simp [fits, listed]
        | ok failure? => cases failure? <;> simp [fits, listed]
  · simp [result_of_accept_error (accept_of_not_fits fits), fits]

/-- A broken configuration with a line number of 4301 digits. -/
def overlongPlace : String :=
  String.ofList ("ERROR Failed to build the configuration: ".toList ++
    placeText (List.replicate 4301 '1') ['1'])

/-- The output is an error about the configuration whose line number has 4301 digits. -/
theorem toList_overlongPlace :
    overlongPlace.toList = "ERROR Failed to build the configuration: ".toList ++
      placeText (List.replicate 4301 '1') ['1'] :=
  String.toList_ofList

theorem length_overlongPlace : overlongPlace.length = 4377 := by
  rw [← String.length_toList, toList_overlongPlace]
  unfold placeText
  rw [List.length_append, List.length_append, List.length_append, List.length_append,
    List.length_replicate]
  rfl

/-- That line is found in it. -/
theorem place?_overlongPlace :
    place? overlongPlace.toList = some (List.replicate 4301 '1', ['1']) := by
  have line : TextLine.IsNumber (List.replicate 4301 '1') := by
    constructor
    · exact List.ne_nil_of_length_pos (by rw [List.length_replicate]; decide)
    · intro char member
      rw [List.eq_of_mem_replicate member]
      decide
  have column : TextLine.IsNumber ['1'] := by
    constructor
    · exact List.cons_ne_nil _ _
    · intro char member
      rw [List.mem_singleton.mp member]
      decide
  rw [toList_overlongPlace, place?_append (by decide)]
  apply place?_of_startsWithPlace
  exact ⟨line, column, [], Text.startsWithout_nil, (List.append_nil _).symm⟩

/-- The line cannot be read. -/
theorem detect?_overlongPlace : ToolFailure.detect? overlongPlace = .error ⟨4301⟩ := by
  have start : "ERROR Failed to build the configuration: ".toList <:+: overlongPlace.toList := by
    rw [toList_overlongPlace]
    exact (List.prefix_append _ _).isInfix
  have marked : errorMark <:+: "ERROR Failed to build the configuration: ".toList := by decide
  have configured :
      configurationPhrase <:+: "ERROR Failed to build the configuration: ".toList := by decide
  have long : Numeral.maxDigits < (List.replicate 4301 '1').length := by
    rw [List.length_replicate]
    decide
  rw [detect?_of_longLine (marked.trans start) (configured.trans start) place?_overlongPlace long,
    List.length_replicate]

/-- A check of such an output has no result although its tool is known and it is short
enough. -/
theorem result_overlongPlace :
    ({ registry := ⟨[{}]⟩ } : Checker).result (.ofLint overlongPlace) =
      .error (.unreadablePlace ⟨4301⟩) := by
  have accepted : ({ registry := ⟨[{}]⟩ } : Checker).accept (.ofLint overlongPlace) = .ok {} := by
    refine accept_eq_ok_iff.mpr ⟨?_, rfl⟩
    change ((overlongPlace.length : Nat) : Int) ≤ 5000000
    rw [length_overlongPlace]
    decide
  have broken : ToolFailure.detect? (CheckRequest.ofLint overlongPlace).output = .error ⟨4301⟩ :=
    detect?_overlongPlace
  rw [result_of_accept_ok accepted, broken]

end Checker

end LintReport
