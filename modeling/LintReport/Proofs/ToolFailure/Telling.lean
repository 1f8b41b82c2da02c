import LintReport.Proofs.ToolFailure.Detection

/-! # What a text tells of a failure

A text without the mark of failures tells of none. With the mark it tells of a broken
configuration if the sentence for one occurs in it as well, at the place that its leftmost
sentence for a place gives, if it has any (`ToolFailure.GivesPlace`). Otherwise it tells of a run
that failed, and its lines with the mark say how; there is at least one of them, since the mark
holds no line end. Detection finds what the text tells (`ToolFailure.Tells`), as long as it can read
the place (`ToolFailure.detect?_tells`). -/

namespace LintReport

open Text

namespace ToolFailure

variable {text : List Char} {output : String}

/-! ## Places -/

/-- Where a sentence for a place stops inside its last number, it starts one for a place with the
whole number. -/
theorem exists_startsWithPlace {line column : List Char} (row : TextLine.IsNumber line)
    (place : TextLine.IsNumber column) (rest : List Char) :
    ∃ whole, StartsWithPlace line whole (placeText line column ++ rest) := by
  refine ⟨column ++ rest.takeWhile isDigit, row, ⟨?_, ?_⟩, rest.dropWhile isDigit,
    startsWithout_dropWhile isDigit rest, ?_⟩
  · exact List.append_ne_nil_of_left_ne_nil place.1 _
  · exact List.forall_mem_append.mpr ⟨place.2, fun _ member => List.mem_takeWhile_imp member⟩
  · unfold placeText
    simp only [List.append_assoc, List.takeWhile_append_dropWhile]

/-- No place is found in a text exactly if there is none at any of its characters. -/
theorem place?_eq_none_iff_forall :
    place? text = none ↔ ∀ here, here <:+ text → placeHere? here = none := by
  induction text with
  | nil =>
      refine iff_of_true rfl fun here suffix => ?_
      rw [List.suffix_nil.mp suffix]
      rfl
  | cons char rest ih =>
      rw [place?, Option.or_eq_none_iff, ih]
      constructor
      · rintro ⟨nowhere, later⟩ here suffix
        rcases List.suffix_cons_iff.mp suffix with rfl | suffix
        · exact nowhere
        · exact later here suffix
      · intro nowhere
        refine ⟨nowhere _ List.suffix_rfl, fun here suffix => nowhere here ?_⟩
        exact suffix.trans (List.suffix_cons _ _)

/-- No place is found exactly if none is written anywhere. -/
theorem place?_eq_none_iff :
    place? text = none ↔ ∀ line column, TextLine.IsNumber line → TextLine.IsNumber column →
      ¬ placeText line column <:+: text := by
  simp only [place?_eq_none_iff_forall, placeHere?_eq_none_iff]
  constructor
  · rintro nowhere line column row place ⟨before, after, rfl⟩
    obtain ⟨whole, starts⟩ := exists_startsWithPlace row place after
    rw [List.append_assoc] at nowhere
    exact nowhere _ (List.suffix_append _ _) line whole starts
  · rintro absent here ⟨before, rfl⟩ line column ⟨row, place, rest, _, rfl⟩
    exact absent line column row place (List.append_assoc .. ▸ List.infix_append before _ rest)

/-- Whether a text gives a line and a column: those of its leftmost sentence for a place, or none if
there is no such sentence anywhere in it. -/
inductive GivesPlace (text : List Char) : Option Int → Option Int → Prop
  | leftmost {line column : List Char} (first : IsFirstPlace line column text) :
      GivesPlace text (some (digitsValue line)) (some (digitsValue column))
  | nowhere (absent : ∀ line column, TextLine.IsNumber line → TextLine.IsNumber column →
      ¬ placeText line column <:+: text) : GivesPlace text none none

/-- The place that an output gives is the one that is found, as numbers. -/
theorem givesPlace_iff {line column : Option Int} :
    GivesPlace text line column ↔
      line = (place? text).map (fun place => (digitsValue place.1 : Int)) ∧
        column = (place? text).map (fun place => (digitsValue place.2 : Int)) := by
  constructor
  · intro gives
    cases gives with
    | leftmost first => simp [place?_eq_some_iff.mpr first]
    | nowhere absent => simp [place?_eq_none_iff.mpr absent]
  · rintro ⟨rfl, rfl⟩
    cases placed : place? text with
    | none => exact .nowhere (place?_eq_none_iff.mp placed)
    | some place => exact .leftmost (place?_eq_some_iff.mp placed)

/-! ## Failures -/

/-- Whether a text tells of a failure, and of which. -/
inductive Tells (text : List Char) : Option ToolFailure → Prop
  | nothing (unmarked : ¬ errorMark <:+: text) : Tells text none
  | configuration {line column : Option Int} (marked : errorMark <:+: text)
      (configured : configurationPhrase <:+: text) (place : GivesPlace text line column) :
      Tells text (some { kind := .configuration, line, column })
  | execution {pieces : List (List Char)} (marked : errorMark <:+: text)
      (running : ¬ configurationPhrase <:+: text) (cut : IsLines text pieces) :
      Tells text (some
        { kind := .execution
          errorLines := (pieces.filter (errorMark <:+: ·)).map String.ofList })

/-- An execution failure has at least the line that marks it. -/
theorem Tells.errorLines_ne_nil {failure : ToolFailure} (tells : Tells text (some failure))
    (ran : failure.kind = .execution) : failure.errorLines ≠ [] := by
  cases tells with
  | configuration => cases ran
  | execution marked _ cut =>
      obtain ⟨piece, member, inside⟩ :=
        exists_isInfix_of_join (List.cons_ne_nil _ _) (by decide) (cut.whole ▸ marked)
      rw [ne_eq, List.map_eq_nil_iff]
      exact List.ne_nil_of_mem (List.mem_filter.mpr ⟨member, decide_eq_true inside⟩)

/-- What the lines of a failure say stands in the text. -/
theorem Tells.mem_of_mem_errorLines {failure : ToolFailure} (tells : Tells text (some failure))
    {line : String} (listed : line ∈ failure.errorLines) {char : Char} (inside : char ∈ line.toList) :
    char ∈ text := by
  cases tells with
  | configuration => cases listed
  | execution _ _ cut =>
      obtain ⟨piece, marked, rfl⟩ := List.mem_map.mp listed
      rw [String.toList_ofList] at inside
      rw [isLines_iff.mp cut] at marked
      exact mem_of_mem_splitAt (List.mem_of_mem_filter marked) inside

/-! ## Detection -/

/-- With the phrase about the configuration a marked output is a configuration failure, at the place
it gives. -/
theorem detect?_of_configured (readable : ¬ TellsUnreadablePlace output.toList)
    (marked : errorMark <:+: output.toList) (configured : configurationPhrase <:+: output.toList) :
    detect? output = .ok (some
      { kind := .configuration
        line := (place? output.toList).map fun place => (digitsValue place.1 : Int)
        column := (place? output.toList).map fun place => (digitsValue place.2 : Int) }) := by
  have here := occurs_iff_isInfix.mpr marked
  have phrase := occurs_iff_isInfix.mpr configured
  cases placed : place? output.toList with
  | none =>
      simp [detect?, isMarked, here, phrase, placed]
  | some place =>
      obtain ⟨line, column⟩ := place
      have few : ¬ (Numeral.maxDigits < line.length ∨ Numeral.maxDigits < column.length) :=
        fun many => readable ⟨marked, configured, line, column, place?_eq_some_iff.mp placed, many⟩
      rw [not_or] at few
      simp [detect?, isMarked, here, phrase, placed, Numeral.ofDigits, few.1, few.2]

/-- Without the phrase about the configuration a marked output is an execution failure with all
marked lines. -/
theorem detect?_of_running (marked : errorMark <:+: output.toList)
    (running : ¬ configurationPhrase <:+: output.toList) :
    detect? output = .ok (some
      { kind := .execution
        errorLines :=
          ((lines output.toList).filter (errorMark <:+: ·)).map String.ofList }) := by
  have here := occurs_iff_isInfix.mpr marked
  rw [← occurs_iff_isInfix] at running
  have same : isMarked = fun line => decide (errorMark <:+: line) := by
    funext line
    rw [Bool.eq_iff_iff, decide_eq_true_iff]
    exact occurs_iff_isInfix
  simp [detect?, same, marked, running]

/-- What detection finds is what the text tells. -/
theorem detect?_eq_ok_iff (readable : ¬ TellsUnreadablePlace output.toList)
    {found : Option ToolFailure} : detect? output = .ok found ↔ Tells output.toList found := by
  by_cases marked : errorMark <:+: output.toList
  · by_cases configured : configurationPhrase <:+: output.toList
    · rw [detect?_of_configured readable marked configured, Except.ok.injEq]
      constructor
      · rintro rfl
        exact .configuration marked configured (givesPlace_iff.mpr ⟨rfl, rfl⟩)
      · intro tells
        cases tells with
        | nothing unmarked => exact absurd marked unmarked
        | configuration _ _ place =>
            obtain ⟨rfl, rfl⟩ := givesPlace_iff.mp place
            rfl
        | execution _ running => exact absurd configured running
    · rw [detect?_of_running marked configured, Except.ok.injEq]
      constructor
      · rintro rfl
        exact .execution marked configured (isLines_iff.mpr rfl)
      · intro tells
        cases tells with
        | nothing unmarked => exact absurd marked unmarked
        | configuration _ phrase => exact absurd phrase configured
        | execution _ _ cut => rw [isLines_iff.mp cut]
  · rw [detect?_eq_none_iff.mpr marked, Except.ok.injEq]
    constructor
    · rintro rfl
      exact .nothing marked
    · intro tells
      cases tells with
      | nothing => rfl
      | configuration there => exact absurd there marked
      | execution there => exact absurd there marked

/-- What is detected is what the output tells. -/
theorem tells_of_detect? {found : Option ToolFailure} (detected : detect? output = .ok found) :
    Tells output.toList found := by
  have readable : ¬ TellsUnreadablePlace output.toList := by
    rw [← isError_detect?_iff, detected]
    rintro ⟨_, broken⟩
    cases broken
  exact (detect?_eq_ok_iff readable).mp detected

/-- **Detection finds what the text tells**, unless it tells of a place with too many digits: no
failure exactly if the mark occurs nowhere, a broken configuration exactly if its sentence occurs as
well, and else a run that failed, with at least one line. -/
theorem detect?_tells (readable : ¬ TellsUnreadablePlace output.toList) :
    ∃ found, detect? output = .ok found ∧
      (∀ other, Tells output.toList other ↔ other = found) ∧
      (found = none ↔ ¬ errorMark <:+: output.toList) ∧
      (found.map kind = some .configuration ↔
        errorMark <:+: output.toList ∧ configurationPhrase <:+: output.toList) ∧
      ∀ failure ∈ found, failure.kind = .execution → failure.errorLines ≠ [] := by
  obtain ⟨found, detected⟩ : ∃ found, detect? output = .ok found := by
    cases answer : detect? output with
    | ok found => exact ⟨found, rfl⟩
    | error problem => exact absurd (isError_detect?_iff.mp ⟨problem, answer⟩) readable
  have tells := tells_of_detect? detected
  refine ⟨found, detected, fun other => ?_, ?_, ?_, ?_⟩
  · rw [← detect?_eq_ok_iff readable, detected, Except.ok.injEq, eq_comm]
  · rw [← detect?_eq_none_iff, detected, Except.ok.injEq]
  · cases tells with
    | nothing unmarked => simp [unmarked]
    | configuration marked configured => simp [marked, configured]
    | execution _ running => simp [running]
  · rintro failure same ran
    rw [Option.mem_def] at same
    exact Tells.errorLines_ne_nil (same ▸ tells) ran

/-- A place with digits of two scripts, behind a beginning of a sentence that gives none. -/
theorem detect?_tells_behind :
    let output := "ERROR Failed to build the configuration: TOML parse error at line x, " ++
      "TOML parse error at line 1\u0663, column 5."
    ¬ TellsUnreadablePlace output.toList ∧
      detect? output = .ok (some { kind := .configuration, line := some 13, column := some 5 }) ∧
      Tells output.toList (some { kind := .configuration, line := some 13, column := some 5 }) := by
  intro output
  have detected : detect? output =
      .ok (some { kind := .configuration, line := some 13, column := some 5 }) := by
    decide +kernel
  have readable : ¬ TellsUnreadablePlace output.toList := by
    rw [← isError_detect?_iff, detected]
    rintro ⟨_, broken⟩
    cases broken
  refine ⟨readable, detected, ?_⟩
  obtain ⟨found, same, tells, _⟩ := detect?_tells readable
  rw [detected, Except.ok.injEq] at same
  exact (tells _).mpr same

end ToolFailure

end LintReport
