import LintReport.CommandLine.Run
import LintReport.Proofs.Check.Returns
import LintReport.Proofs.Text.LineEnds
import LintReport.Proofs.Text.Utf8
import LintReport.Proofs.ToolFailure.Telling

/-! # Where the input comes from

The check is made on the text of the input. Where line ends are unified, as they are in a file, it
does not show which ones the input has, and the program ends as the check on the text itself ends.
A standard input that keeps line ends makes them a part of the text that is checked, and then only
newlines are checked as in a file (`CommandLine.execute_channels`). A file may hold any bytes. Those
that are no UTF-8 change nothing of the text before them. -/

namespace LintReport

open Text Utf8

/-- The characters in the lines of a failure are characters of the output. -/
theorem Checker.mem_output_of_mem_errorLines {checker : Checker} {request : CheckRequest}
    {result : CheckResult} (answered : checker.result request = .ok result) {failure : ToolFailure}
    (failed : result.failure = some failure) {line : String} (listed : line ∈ failure.errorLines)
    {char : Char} (inside : char ∈ line.toList) : char ∈ request.output.toList := by
  obtain ⟨parser, _, ⟨told, detected, rfl⟩ | ⟨_, rfl⟩⟩ := result_eq_ok_iff.mp answered
  · have tells := ToolFailure.tells_of_detect? detected
    exact (Option.some.inj failed ▸ tells).mem_of_mem_errorLines listed inside
  · cases failed

namespace CommandLine

/-! ## The text of an input -/

/-- A text is what the line ends make of the decoded bytes. -/
theorem toList_textOfBytes (lineEnds : LineEnds) (bytes : List UInt8) :
    (textOfBytes lineEnds bytes).toList = lineEnds.read (decode bytes) :=
  String.toList_ofList

/-- A text without carriage returns is read back from its bytes if they are written with newlines,
or with any line end that is unified. -/
theorem textOfBytes_encode_write {text : String} (absent : '\r' ∉ text.toList)
    {lineEnds : LineEnds} {lineEnd : LineEnd} (alike : lineEnds = .unified ∨ lineEnd = .newline) :
    textOfBytes lineEnds (encode (lineEnd.write text.toList)) = text := by
  rw [← String.toList_inj, toList_textOfBytes, decode_encode]
  cases lineEnds with
  | unified => exact unifyLineEnds_write lineEnd absent
  | kept =>
      rw [alike.resolve_left LineEnds.noConfusion, LineEnds.read, LineEnd.write_newlines]

/-- Line ends that are kept are read as they are written. -/
theorem textOfBytes_kept (text : List Char) :
    textOfBytes .kept (encode text) = String.ofList text := by
  rw [textOfBytes, decode_encode, LineEnds.read]

/-- Where line ends are made alike no return is left. -/
theorem notMem_textOfBytes (bytes : List UInt8) : '\r' ∉ (textOfBytes .unified bytes).toList :=
  toList_textOfBytes .unified bytes ▸ notMem_unifyLineEnds _

/-- What is read from the bytes of a text is not changed by the bytes that follow. -/
theorem isPrefix_textOfBytes_append (lineEnds : LineEnds) (text : List Char) (rest : List UInt8) :
    (textOfBytes lineEnds (encode text)).toList <+:
      (textOfBytes lineEnds (encode text ++ rest)).toList := by
  rw [toList_textOfBytes, toList_textOfBytes, decode_encode, decode_encode_append]
  cases lineEnds with
  | kept => exact List.prefix_append _ _
  | unified => exact isPrefix_unifyLineEnds_append text _

/-! ## The input that is read -/

/-- Whether the input that arguments name holds some bytes, and what is made of its line ends. -/
inductive Arguments.Reads (arguments : Arguments) (sources : Sources) :
    LineEnds → List UInt8 → Prop
  | standardInput (unnamed : arguments.inputPath? = none) :
      Reads arguments sources sources.lineEnds sources.standardInput
  | file {path : String} (named : arguments.inputPath? = some path) :
      Reads arguments sources .unified (sources.file path)

variable {settings : Settings} {arguments : Arguments} {sources : Sources} {lineEnds : LineEnds}

/-- A named file is run on with its line ends made alike. -/
theorem execute_of_inputPath? {path : String} (named : arguments.inputPath? = some path) :
    execute settings arguments sources =
      .ok (run settings arguments (textOfBytes .unified (sources.file path))) := by
  simp only [execute, Arguments.inputText, named]

/-- The bytes of a text are accepted from every source. -/
theorem execute_of_reads {text : List Char}
    (reads : arguments.Reads sources lineEnds (encode text)) :
    execute settings arguments sources =
      .ok (run settings arguments (textOfBytes lineEnds (encode text))) := by
  generalize held : encode text = bytes at *
  cases reads with
  | standardInput unnamed =>
      have clean : fault? sources.standardInput = none := fault?_eq_none_iff.mpr ⟨text, held.symm⟩
      simp only [execute, Arguments.inputText, unnamed, clean]
  | file named => exact execute_of_inputPath? named

/-- A run is made on the text of some input. -/
theorem exists_reads_of_execute {step : Checker.Step}
    (made : execute settings arguments sources = .ok step) :
    ∃ lineEnds bytes, arguments.Reads sources lineEnds bytes ∧
      step = run settings arguments (textOfBytes lineEnds bytes) := by
  cases named : arguments.inputPath? with
  | some path =>
      rw [execute_of_inputPath? named, Except.ok.injEq] at made
      exact ⟨_, _, .file named, made.symm⟩
  | none =>
      simp only [execute, Arguments.inputText, named] at made
      split at made
      · cases made
      · next output accepted =>
          split at accepted
          · cases accepted
          · rw [Except.ok.injEq] at made accepted
            exact ⟨_, _, .standardInput named, by rw [accepted, made]⟩

/-- **What a check shows of its channel.** A text without carriage returns may be given in any
channel and with any line end that is unified there: the program prints the same and exits with the
same status, or fails with the same error, namely as the check on the text does, and the lines of a
failure hold no carriage return. Line ends that are kept are checked as they are written. With a
return before each newline this still gives the same error or the same result, but for returns in
the lines of a failure. A file is read whatever its bytes are, and the bytes that follow those of a
text leave what is read from these as it is. -/
theorem execute_channels (settings : Settings) (arguments : Arguments) (sources : Sources) :
    (∀ (text : String) (lineEnds : LineEnds) (lineEnd : LineEnd) (input : Option Label),
      '\r' ∉ text.toList → lineEnds = .unified ∨ lineEnd = .newline →
      { arguments with input }.Reads sources lineEnds (encode (lineEnd.write text.toList)) →
      (execute settings { arguments with input } sources).map ending =
        .ok (ending ((checkerOf settings).check .empty (arguments.request text)))) ∧
    (∀ step result failure, execute settings arguments sources = .ok step →
      arguments.inputPath? ≠ none ∨ sources.lineEnds = .unified →
      step.answer = .ok result → result.failure = some failure →
      ∀ line ∈ failure.errorLines, '\r' ∉ line.toList) ∧
    (∀ (text : String) (lineEnd : LineEnd),
      arguments.Reads sources .kept (encode (lineEnd.write text.toList)) →
      ∃ step, execute settings arguments sources = .ok step ∧
        step = (checkerOf settings).check .empty
          (arguments.request (String.ofList (lineEnd.write text.toList))) ∧
        (lineEnd = .returnNewline → (checkerOf settings).Fits (arguments.request (returned text)) →
          AnswersAlike CheckResult.IsReturned
            ((checkerOf settings).check .empty (arguments.request text)).answer step.answer)) ∧
    (∀ path, arguments.inputPath? = some path →
      execute settings arguments sources = .ok ((checkerOf settings).check .empty
        (arguments.request (textOfBytes .unified (sources.file path))))) ∧
    ∀ (text : List Char) (rest : List UInt8),
      (textOfBytes .unified (encode text)).toList <+:
        (textOfBytes .unified (encode text ++ rest)).toList := by
  refine ⟨?_, ?_, ?_, fun path named => execute_of_inputPath? named,
    isPrefix_textOfBytes_append .unified⟩
  · intro text lineEnds lineEnd input absent alike reads
    have made : execute settings { arguments with input } sources = .ok (run settings _ _) :=
      execute_of_reads reads
    rw [run, textOfBytes_encode_write absent alike] at made
    exact congrArg (Except.map ending) made
  · intro step result failure made unified answered failed line listed inside
    obtain ⟨lineEnds, bytes, reads, rfl⟩ := exists_reads_of_execute made
    have alike : lineEnds = .unified := by
      cases reads with
      | standardInput unnamed => exact unified.resolve_left (not_not_intro unnamed)
      | file => rfl
    subst alike
    rw [run, Checker.answer_check] at answered
    exact notMem_textOfBytes bytes
      (Checker.mem_output_of_mem_errorLines answered failed listed inside)
  · intro text lineEnd reads
    refine ⟨_, execute_of_reads reads, by rw [run, textOfBytes_kept], ?_⟩
    rintro rfl fits
    rw [run, textOfBytes_kept, Checker.answer_check, Checker.answer_check]
    exact @Checker.result_withReturns _ (arguments.request text) fits

/-- A failure with carriage returns in a file, and with newlines on a standard input that keeps
them. -/
theorem execute_channels_returns :
    let text := "ERROR one\nERROR two\n"
    let arguments : Arguments := { file := some (.given "a.php") }
    let named : Arguments := { arguments with input := some (.given "mago.out") }
    let sources : Sources :=
      { standardInput := encode (LineEnd.newline.write text.toList)
        lineEnds := .kept
        file := fun _ => encode (LineEnd.carriageReturn.write text.toList) }
    '\r' ∉ text.toList ∧
      (execute {} arguments sources).map ending = (execute {} named sources).map ending ∧
      ∃ step result failure, execute {} named sources = .ok step ∧ step.answer = .ok result ∧
        result.failure = some failure ∧ failure.errorLines = ["ERROR one", "ERROR two"] ∧
        ∀ line ∈ failure.errorLines, '\r' ∉ line.toList := by
  intro text arguments named sources
  have absent : '\r' ∉ text.toList := by decide
  obtain ⟨alike, clean, _, read, _⟩ := execute_channels {} named sources
  have standard := alike text .kept .newline none absent (.inr rfl) (.standardInput rfl)
  have file := alike text .unified .carriageReturn named.input absent (.inl rfl) (.file rfl)
  have whole := textOfBytes_encode_write absent (.inl rfl : _ ∨ LineEnd.carriageReturn = .newline)
  have made := read "mago.out" rfl
  rw [whole] at made
  have answered : ((checkerOf {}).check .empty (named.request text)).answer =
      .ok (Checker.failed (named.request text)
        { kind := .execution, errorLines := ["ERROR one", "ERROR two"] }) := by decide +kernel
  exact ⟨absent, standard.trans file.symm, _, _, _, made, answered, rfl, rfl,
    clean _ _ _ made (.inl (by simp [named, Arguments.inputPath?, Label.filled?, Label.text?]))
      answered rfl⟩

/-- A standard input that keeps line ends shows the carriage return of a failure, which a file with
the same bytes does not show. -/
theorem execute_channels_kept :
    let text := "ERROR one\n"
    let arguments : Arguments := { file := some (.given "a.php") }
    let named : Arguments := { arguments with input := some (.given "mago.out") }
    let bytes := encode (LineEnd.returnNewline.write text.toList)
    let sources : Sources := { standardInput := bytes, lineEnds := .kept, file := fun _ => bytes }
    let failed (errorLines : List String) : CheckResult :=
      Checker.failed (arguments.request text) { kind := .execution, errorLines }
    '\r' ∉ text.toList ∧
      (execute {} arguments sources).map Checker.Step.answer = .ok (.ok (failed ["ERROR one\r"])) ∧
      (execute {} named sources).map Checker.Step.answer = .ok (.ok (failed ["ERROR one"])) := by
  refine ⟨by decide, by decide +kernel, by decide +kernel⟩

end CommandLine

end LintReport
