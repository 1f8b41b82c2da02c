import LintReport.Proofs.Check.Writable

/-! # Codes of issues

The code of an issue is any JSON value, and it is passed through as it stands, nested values and
their order included, unless it is one of the values that say nothing (`Json.Value.voids`). These
are dropped, though a zero, a `false` or an empty text is given as a code like any other
(`Issue.Codes`). What is kept is shown with the diagnostic of the issue in every result
(`Diagnostic.codes_shown`). -/

namespace LintReport

open Json

/-! ## Values that say nothing -/

/-- There are two zeros. -/
theorem Binary64.isZero_iff {value : Binary64} :
    value.isZero ↔ ∃ negative, value = zero negative := by
  have fields : ∀ negative, zero negative = finite negative ⟨0, by decide⟩ ⟨0, by decide⟩ :=
    fun _ => rfl
  constructor
  · intro none
    cases value with
    | finite negative exponent fraction =>
        rw [isZero, Bool.and_eq_true, beq_iff_eq, beq_iff_eq] at none
        exact ⟨negative, (fields negative).symm ▸ congrArg₂ _ (Fin.ext none.1) (Fin.ext none.2)⟩
    | _ => cases none
  · rintro ⟨negative, rfl⟩
    rw [fields]
    rfl

namespace Json.Value

/-- The values that say nothing. -/
def voids : List Value :=
  [.null, .bool false, .int 0, .float (.zero false), .float (.zero true), .string "", .array [],
    .object []]

theorem isVoid_iff {value : Value} : value.isVoid ↔ value ∈ voids := by
  cases value with
  | float value => simp [isVoid, voids, Binary64.isZero_iff]
  | _ => simp [isVoid, voids]

end Json.Value

namespace Issue

variable {raw : Value}

/-- Whether this is the code that is kept of an issue. -/
inductive Codes (raw : Value) : Value → Prop
  | kept {code : Value} (given : raw.get? "code" = some code) (telling : code ∉ Value.voids) :
      Codes raw code
  | dropped {code : Value} (given : raw.get? "code" = some code) (void : code ∈ Value.voids) :
      Codes raw .null
  | missing (absent : raw.get? "code" = none) : Codes raw .null

/-- An issue keeps its code unless it is void. -/
theorem codes_codeOf (raw : Value) : Codes raw (codeOf raw) := by
  rw [codeOf, Value.getD]
  cases found : raw.get? "code" with
  | none => exact .missing found
  | some code =>
      rw [Option.getD_some]
      split
      · next void => exact .dropped found (Value.isVoid_iff.mp void)
      · next telling => exact .kept found fun void => telling (Value.isVoid_iff.mpr void)

/-- A code that is given is kept exactly if it is `null` or says something. -/
theorem Codes.eq_iff {kept code : Value} (codes : Codes raw kept)
    (given : raw.get? "code" = some code) : kept = code ↔ code = .null ∨ code ∉ Value.voids := by
  cases codes with
  | kept given' telling =>
      obtain rfl := Option.some.inj (given'.symm.trans given)
      exact iff_of_true rfl (.inr telling)
  | dropped given' void =>
      obtain rfl := Option.some.inj (given'.symm.trans given)
      rw [eq_comm, or_iff_left (not_not_intro void)]
  | missing absent => cases absent.symm.trans given

end Issue

/-! ## Results -/

/-- A result shows the diagnostics of a file under its name. -/
theorem CheckResult.inside?_diagnostics (result : CheckResult) (file : String) :
    result.toValue.inside? ["diagnostics", file] =
      (result.diagnostics.get? file).map Diagnostic.arrayOf := by
  have there : result.toValue.get? "diagnostics" = some (Diagnostic.objectOf result.diagnostics) :=
    rfl
  rw [Value.inside?, there, Option.bind_some, Value.inside?_singleton]
  exact Keyed.get?_map Diagnostic.arrayOf result.diagnostics file

namespace Checker

variable {checker : Checker} {request : CheckRequest} {result : CheckResult}

/-- Without a failure every issue that is read from the output has its diagnostic in the result,
under its file. -/
theorem exists_diagnostics_of_issue (answered : checker.result request = .ok result)
    (reported : result.failure = none) {origin : Origin}
    (member : origin ∈ Origin.ofOutput request.output) {issue : Issue}
    (read : origin.issue? request.target.placement = some issue) :
    ∃ source diagnostics, Diagnostic.ofIssue issue source ∈ diagnostics ∧
      result.diagnostics.get? issue.file = some diagnostics := by
  have filed := wellFiled_of_result answered
  obtain ⟨parser, _, ⟨failure, _, rfl⟩ | ⟨_, rfl⟩⟩ := result_eq_ok_iff.mp answered
  · cases reported
  · have found : issue ∈ (Findings.ofOutput request.target.placement request.output).issues := by
      rw [Findings.issues_eq]
      exact List.mem_filterMap.mpr ⟨origin, member, read⟩
    have listed := (parser.flatMap_report_perm request.output request.target).mem_iff.mpr
      (List.mem_map_of_mem found)
    obtain ⟨entry, there, inside⟩ := List.mem_flatMap.mp listed
    have file : issue.file = entry.1 := (filed.sound entry there _ inside).1
    exact ⟨parser.source, entry.2, inside, file ▸ Keyed.get?_of_mem filed.distinct there⟩

end Checker

namespace Diagnostic

/-- **Codes are passed through** in both kinds of placement, unless they say nothing: the issue has
the code that is given exactly if this is `null` or says something. The diagnostic of the issue has
the code of the issue and is written with it, and every result without a failure shows this
diagnostic under its file. What is handed out is what is written, as long as no code is too deep to
be copied. -/
theorem codes_shown {placement : Placement} {raw : Value} {issue : Issue}
    (read : Issue.ofValue? placement raw = some issue) :
    Issue.Codes raw issue.code ∧
      (∀ code, raw.get? "code" = some code →
        (issue.code = code ↔ code = .null ∨ code ∉ Value.voids)) ∧
      (∀ source, (ofIssue issue source).code = issue.code ∧
        (ofIssue issue source).toValue.get? "code" = some issue.code ∧
        ∀ value, (ofIssue issue source).copied = .ok value ↔
          issue.code.depth ≤ copyDepth ∧ value = (ofIssue issue source).toValue) ∧
      ∀ (checker : Checker) request result, checker.result request = .ok result →
        result.failure = none → request.target.placement = placement →
          Origin.value raw ∈ Origin.ofOutput request.output →
            (∃ source, ∃ diagnostics : List Diagnostic, ofIssue issue source ∈ diagnostics ∧
              result.toValue.inside? ["diagnostics", issue.file] =
                some (.array (diagnostics.map toValue))) ∧
            ∀ value, result.copied = .ok value ↔
              areCopyable result.diagnostics ∧ value = result.toValue := by
  have codes : Issue.Codes raw issue.code :=
    (Issue.isRead_of_ofValue? read).code ▸ Issue.codes_codeOf raw
  refine ⟨codes, fun code given => codes.eq_iff given,
    fun source => ⟨rfl, rfl, fun value => copied_eq_ok_iff⟩, ?_⟩
  rintro checker request result answered reported rfl member
  obtain ⟨source, diagnostics, inside, listed⟩ :=
    Checker.exists_diagnostics_of_issue answered reported member read
  refine ⟨⟨source, diagnostics, inside, ?_⟩, fun value => CheckResult.copied_eq_ok_iff⟩
  rw [result.inside?_diagnostics, listed, Option.map_some, arrayOf]

/-- A code of nested values whose names are not in order. -/
theorem codes_shown_nested :
    let code : Value := .object [("b", .array [.int 0, .bool false]), ("a", .null)]
    let raw : Value := .object [("message", .string "m"), ("code", code)]
    let checker : Checker := { registry := ⟨[{}]⟩ }
    let request := CheckRequest.ofLint
      "[\x7b\"message\": \"m\", \"code\": \x7b\"b\": [0, false], \"a\": null\x7d\x7d]"
    ∃ issue result, Issue.ofValue? (.pinned "/x.php") raw = some issue ∧ issue.code = code ∧
      checker.result request = .ok result ∧ result.failure = none ∧
      Origin.value raw ∈ Origin.ofOutput request.output ∧
      ∃ source, ∃ diagnostics : List Diagnostic, ofIssue issue source ∈ diagnostics ∧
        result.toValue.inside? ["diagnostics", "/x.php"] =
          some (.array (diagnostics.map toValue)) := by
  intro code raw checker request
  have answers : (checker.result request).toOption.any (·.failure.isNone) := by decide +kernel
  have member : Origin.value raw ∈ Origin.ofOutput request.output := by decide +kernel
  have telling : code ∉ Value.voids := by decide
  cases answered : checker.result request with
  | error error =>
      rw [answered] at answers
      cases answers
  | ok result =>
      rw [answered] at answers
      have reported : result.failure = none := Option.isNone_iff_eq_none.mp answers
      obtain ⟨_, kept, _, shown⟩ := @codes_shown (.pinned "/x.php") raw _ rfl
      exact ⟨_, result, rfl, (kept code rfl).mpr (.inr telling), rfl, reported, member,
        (shown checker request result answered reported rfl member).1⟩

/-- A zero is given as a code, and the diagnostic has none. -/
theorem code_zero_dropped :
    let raw : Value := .object [("message", .string "m"), ("code", .int 0)]
    raw.get? "code" = some (.int 0) ∧
      ∃ issue, Issue.ofValue? (.pinned "a.php") raw = some issue ∧
        (ofIssue issue "mago").code = .null :=
  ⟨rfl, _, rfl, rfl⟩

end Diagnostic

end LintReport
