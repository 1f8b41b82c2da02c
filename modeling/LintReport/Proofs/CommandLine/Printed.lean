import LintReport.CommandLine.Run
import LintReport.Proofs.Check.Writable
import LintReport.Proofs.Json.Ascii

/-! # What is printed

Whatever input is read, the result is printed, and as itself: each whole number in it has few
enough digits to be spelled out, what is printed is ASCII that ends with one line end, and
reading it gives the result back (`CommandLine.run_printed`). Numbers of the greatest size
that can be read at all are no exception, because places are counted from zero before they
are printed. Only a code that nests too deep to be copied keeps the program from printing. -/

namespace LintReport

open Json

/-- The limit on outputs is read from a numeral. -/
theorem Settings.isShort_maxOutputChars {environment : Keyed String} {settings : Settings}
    (set : ofEnvironment environment = .ok settings) : Numeral.IsShort settings.maxOutputChars := by
  simp only [ofEnvironment] at set
  split at set
  · cases set
  · next limit success =>
      rw [Except.ok.injEq] at set
      exact set ▸ Numeral.isShort_of_read success

namespace CommandLine

/-- Whether a result is printed as itself. -/
structure IsPrinted (result : CheckResult) : Prop where
  spellable : result.toValue.isSpellable
  ascii : ∀ char ∈ (printed result).toList, char.toNat < 128
  lineEnd : ∃ text, (printed result).toList = text ++ ['\x7d', '\n']
  faithful : Json.parse (printed result).toList = .ok result.toValue

/-- What is printed is the result, indented, and a line feed. -/
theorem toList_printed (result : CheckResult) :
    (printed result).toList = write (.indented 2) 0 result.toValue ++ ['\n'] := by
  rw [printed, Value.print, String.toList_append, String.toList_ofList]
  rfl

/-- A result that can be written is printed as itself. -/
theorem isPrinted_of_isWritable {result : CheckResult}
    (writable : result.toValue.IsWritable maxDepth) : IsPrinted result where
  spellable := (Value.isWritable_iff.mp writable).1
  ascii := by
    rw [toList_printed]
    refine List.forall_mem_append.mpr ⟨?_, List.forall_mem_singleton.mpr (by decide)⟩
    intro char member
    exact (Layout.uses_of_mem_write _ char member).toNat_lt
  lineEnd := by
    obtain ⟨inner, closed⟩ := exists_write_object (.indented 2) 0 _ _
    refine ⟨inner, ?_⟩
    rw [toList_printed, CheckResult.toValue, closed, List.append_assoc]
    rfl
  faithful := by
    rw [toList_printed, parse_eq_parseWithin, parseWithin_eq_ok_iff]
    refine ⟨[], _, ['\n'], rfl, isSpacing_nil, denotes_write (.indented 2) writable, ?_⟩
    simp [IsSpacing, isSpace]

/-- **What is printed is the result.** Whatever the arguments and the input, a result is
printed as itself, if the values that its issues are read from leave room for the four
containers that a result adds around the code of an issue. The program ends with what is printed
if these values can be copied. -/
theorem run_printed {environment : Keyed String} {settings : Settings}
    (set : Settings.ofEnvironment environment = .ok settings) (arguments : Arguments)
    (output : String) {result : CheckResult}
    (answered : (run settings arguments output).answer = .ok result)
    (shallow : ∀ raw, Origin.value raw ∈ Origin.ofOutput output → raw.depth + 3 ≤ maxDepth) :
    IsPrinted result ∧
      ((∀ raw, Origin.value raw ∈ Origin.ofOutput output → raw.depth ≤ copyDepth + 1) →
        ending (run settings arguments output) =
          .ok (printed result, exitStatus result.outcome)) := by
  obtain ⟨depth, whole⟩ : ∃ depth, maxDepth = depth + 8 := ⟨maxDepth - 8, rfl⟩
  have found := answered
  rw [run, Checker.answer_check] at found
  have writable : result.toValue.IsWritable maxDepth := by
    rw [whole]
    refine Checker.isWritable_of_result (Settings.isShort_maxOutputChars set) found ?_
    intro raw member
    have room := shallow raw member
    omega
  refine ⟨isPrinted_of_isWritable writable, fun copyable => ?_⟩
  have copied := Checker.copied_of_result found copyable
  have dumped := Value.dump_of_isWritable (.indented 2) writable
  simp only [ending, answered, copied, dumped, printed]

/-- An issue at a line of a hundred digits, with containers in its code. -/
theorem run_printed_nested :
    let output := "[\x7b\"message\": \"m\\u00e9\", \"code\": [[7]], \"line\": 9e99\x7d]"
    let step := run {} { file := some (.given "a.php") } output
    ∃ result, step.answer = .ok result ∧ IsPrinted result ∧
      ending step = .ok (printed result, 0) := by
  intro output step
  have origins : Origin.ofOutput output =
      [.value (.object [("message", .string "mé"), ("code", .array [.array [.int 7]]),
        ("line", .float (.ofDecimal false ⟨9, 99⟩))])] := by decide +kernel
  have only : ∀ raw, Origin.value raw ∈ Origin.ofOutput output → raw.depth = 3 := by
    rw [origins]
    intro raw member
    rw [List.mem_singleton, Origin.value.injEq] at member
    exact member ▸ by decide
  have made : step.answer.toOption.any (·.outcome = .issuesFound) := by decide +kernel
  cases answered : step.answer with
  | error error =>
      rw [answered] at made
      cases made
  | ok result =>
      rw [answered] at made
      obtain ⟨shown, ends⟩ := @run_printed [] {} (by decide +kernel) _ _ _ answered
        fun raw member => by rw [only raw member]; decide
      have outcome : result.outcome = .issuesFound := of_decide_eq_true made
      have ended := ends fun raw member => by rw [only raw member]; decide
      rw [outcome] at ended
      exact ⟨result, rfl, shown, ended⟩

end CommandLine

end LintReport
