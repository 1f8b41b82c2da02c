import LintReport.CommandLine.Run
import LintReport.Proofs.Check.Result
import LintReport.Proofs.CommandLine.Arguments

/-! # The run that is asked for

A command line names a file or a workspace, and the check that is made is the one on that
target, in whichever order and way the options are written (`CommandLine.run_asked`). The
one exception is a file without a path: it is accepted as the target and then not looked
at, so that a workspace without a root is checked in its place. -/

namespace LintReport

/-- A result is about the target of its run, and if that is a file it holds diagnostics of
this file only. -/
theorem Checker.target_of_result {checker : Checker} {request : CheckRequest}
    {result : CheckResult} (answered : checker.result request = .ok result) :
    result.target = request.target ∧
      ∀ path, request.target = .file path → ∀ entry ∈ result.diagnostics, entry.1 = path := by
  obtain ⟨parser, _, ⟨failure, _, rfl⟩ | ⟨_, rfl⟩⟩ := result_eq_ok_iff.mp answered
  · exact ⟨rfl, fun _ _ _ member => absurd member List.not_mem_nil⟩
  · refine ⟨rfl, ?_⟩
    intro path target entry member
    simp only [finished, target, ReportParser.report] at member
    split at member
    · cases member
    · rw [List.mem_singleton.mp member]

namespace CommandLine

/-- The check that options tell of, on a target. -/
def checkOn (settings : Settings) (given : List GivenOption) (target : CheckTarget)
    (output : String) : Checker.Step :=
  (checkerOf settings).check .empty
    { tool := (lastGiven? .tool given).getD (.given "mago")
      command := (lastGiven? .command given).getD (.given "lint")
      target
      output }

/-- The run is the check on the target that the options come to. -/
theorem run_ofGiven (settings : Settings) (given : List GivenOption) (output : String) :
    run settings (.ofGiven given) output =
      checkOn settings given (Arguments.ofGiven given).target output := rfl

variable {release : Release} {words : List String} {given : List GivenOption}

/-- Options that can be given together and that give a target are accepted. -/
theorem parse_of_writes (written : Writes release words given)
    (commands : ∀ value, (OptionName.command, value) ∈ given → isCommand value)
    (exclusive : lastGiven? .file given = none ∨ lastGiven? .workspace given = none)
    (targeted : lastGiven? .file given ≠ none ∨ lastGiven? .workspace given ≠ none) :
    parse release words = .ok (.ofGiven given) :=
  parse_eq_ok_iff.mpr ⟨given, written, ⟨exclusive, commands⟩, rfl, targeted⟩

/-- **The check that is made is the one that is asked for.** A command line that gives a
file with a path and no workspace makes the check on this file, and one that gives a
workspace and no file the check on this workspace. If the file has no path, a workspace
without a root is checked. All of this holds in every release. -/
theorem run_asked (settings : Settings) (written : Writes release words given)
    (commands : ∀ value, (OptionName.command, value) ∈ given → isCommand value)
    (output : String) :
    (∀ path, lastGiven? .file given = some (.given path) → path ≠ "" →
      lastGiven? .workspace given = none →
        ∃ arguments, parse release words = .ok arguments ∧
          run settings arguments output = checkOn settings given (.file path) output ∧
          ∀ result, (run settings arguments output).answer = .ok result →
            result.target = .file path ∧ ∀ entry ∈ result.diagnostics, entry.1 = path) ∧
    (∀ root, lastGiven? .workspace given = some root → lastGiven? .file given = none →
      ∃ arguments, parse release words = .ok arguments ∧
        run settings arguments output = checkOn settings given (.workspace (some root)) output) ∧
    (∀ file, lastGiven? .file given = some file → file.filled? = none →
      lastGiven? .workspace given = none →
        ∃ arguments, parse release words = .ok arguments ∧
          run settings arguments output = checkOn settings given (.workspace none) output) := by
  refine ⟨?_, ?_, ?_⟩
  · intro path file filled workspace
    have parsed := parse_of_writes written commands (.inr workspace) (.inl (by simp [file]))
    have named : (Label.given path).filled? = some path := by
      simp [Label.filled?, Label.text?, Option.filter, filled]
    have target : (Arguments.ofGiven given).target = .file path := by
      simp [Arguments.target, Arguments.ofGiven, file, named]
    have made := run_ofGiven settings given output
    rw [target] at made
    refine ⟨_, parsed, made, ?_⟩
    intro result answered
    rw [made, checkOn, Checker.answer_check] at answered
    obtain ⟨same, under⟩ := Checker.target_of_result answered
    exact ⟨same, under path rfl⟩
  · intro root workspace file
    have parsed := parse_of_writes written commands (.inl file) (.inr (by simp [workspace]))
    have target : (Arguments.ofGiven given).target = .workspace (some root) := by
      simp [Arguments.target, Arguments.ofGiven, file, workspace]
    exact ⟨_, parsed, target ▸ run_ofGiven settings given output⟩
  · intro path file blank workspace
    have parsed := parse_of_writes written commands (.inr workspace) (.inl (by simp [file]))
    have target : (Arguments.ofGiven given).target = .workspace none := by
      simp [Arguments.target, Arguments.ofGiven, file, blank, workspace]
    exact ⟨_, parsed, target ▸ run_ofGiven settings given output⟩

/-- An option for the command between two for the file, in three ways of writing. -/
theorem run_asked_file :
    let words := ["--file=old.php", "--com", "analyze", "--file", "a b.php"]
    let given : List GivenOption := [(.file, .given "old.php"), (.command, .given "analyze"),
      (.file, .given "a b.php")]
    Writes .late words given ∧ ∃ arguments, parse .late words = .ok arguments ∧
      run {} arguments "a:1: error: m" = checkOn {} given (.file "a b.php") "a:1: error: m" := by
  intro words given
  have written : Writes .late words given := by
    refine .attached (by decide +kernel : ("--file".toList, OptionName.file) ∈ beginnings)
      (by decide : _ = "--file".toList ++ '=' :: "old.php".toList) ?_
    refine .apart (by decide +kernel) (.inl (by decide)) ?_
    exact .apart (by decide +kernel) (.inl (by decide)) .nil
  refine ⟨written, ?_⟩
  obtain ⟨arguments, parsed, made, _⟩ :=
    (run_asked {} written (by simp [given, isCommand, runCommands]) "a:1: error: m").1
      "a b.php" rfl (by decide) rfl
  exact ⟨arguments, parsed, made⟩

/-- A file with an empty path is given, and the check is not the one on this file. -/
theorem run_file_pathless :
    Writes .late ["--file", ""] [(.file, .given "")] ∧
      ∃ arguments, parse .late ["--file", ""] = .ok arguments ∧
        (run {} arguments "a:1: error: m").answer.map CheckResult.toValue ≠
          (checkOn {} [(.file, .given "")] (.file "") "a:1: error: m").answer.map
            CheckResult.toValue := by
  refine ⟨.apart (by decide +kernel) (.inl (by decide)) .nil,
    { file := some (.given "") }, by decide +kernel, by decide +kernel⟩

end CommandLine

end LintReport
