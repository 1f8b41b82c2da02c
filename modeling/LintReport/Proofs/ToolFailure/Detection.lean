import LintReport.Proofs.Issue.Written
import LintReport.Proofs.Text.Pieces
import LintReport.ToolFailure

/-! # Detecting that a tool failed

A failure is looked for in the text as it came, before anything in it is read: the text is
marked as a failure exactly if the mark is a stretch of it. The place that a broken
configuration is reported at is the one that the leftmost of its sentences gives
(`ToolFailure.place?_eq_some_iff`), and detection breaks down exactly if that place is
needed and has a number with too many digits (`ToolFailure.isError_detect?_iff`). -/

namespace LintReport

open Text

namespace ToolFailure

/-! ## Places of the configuration file -/

/-- The sentence that gives a line and a column. -/
def placeText (line column : List Char) : List Char :=
  "TOML parse error at line ".toList ++ (line ++ (", column ".toList ++ column))

/-- Whether a text starts with the sentence for a line and a column, with both numbers
taken whole. -/
def StartsWithPlace (line column text : List Char) : Prop :=
  TextLine.IsNumber line ∧ TextLine.IsNumber column ∧
    ∃ rest, StartsWithout isDigit rest ∧ text = placeText line column ++ rest

/-- Whether a line and a column stand in the leftmost sentence of a text that gives any. -/
def IsFirstPlace (line column text : List Char) : Prop :=
  ∃ before here, text = before ++ here ∧ StartsWithPlace line column here ∧
    ∀ later, later <:+ before → later ≠ [] →
      ∀ line column, ¬ StartsWithPlace line column (later ++ here)

/-- A sentence for a place is taken off as its two numbers. -/
theorem placeHere?_placeText {line column rest : List Char} (row : TextLine.IsNumber line)
    (place : TextLine.IsNumber column) (stops : StartsWithout isDigit rest) :
    placeHere? (placeText line column ++ rest) = some (line, column) := by
  have start : after? "TOML parse error at line ".toList (placeText line column ++ rest) =
      some (line ++ (", column ".toList ++ (column ++ rest))) := by
    unfold placeText
    simp only [after?_eq_some_iff, List.append_assoc]
  have middle : after? ", column ".toList (", column ".toList ++ (column ++ rest)) =
      some (column ++ rest) := after?_eq_some_iff.mpr rfl
  have comma : StartsWithout isDigit (", column ".toList ++ (column ++ rest)) := by
    simp
    decide
  simp only [placeHere?, start, takeWhile_run row.2 comma, dropWhile_run row.2 comma, middle,
    takeWhile_run place.2 stops]
  exact if_neg (not_or.mpr ⟨row.1, place.1⟩)

/-- A place is found here exactly if the text starts with it. -/
theorem placeHere?_eq_some_iff {line column text : List Char} :
    placeHere? text = some (line, column) ↔ StartsWithPlace line column text := by
  constructor
  · intro found
    unfold placeHere? at found
    split at found
    · simp at found
    · next rest start =>
        dsimp only at found
        split at found
        · simp at found
        · next rest' middle =>
            split at found
            · simp at found
            · next filled =>
                simp only [Option.some.injEq, Prod.mk.injEq] at found
                obtain ⟨row, place⟩ := found
                rw [not_or, row, place] at filled
                have rowAll : ∀ char ∈ line, isDigit char := by
                  intro char member
                  rw [← row] at member
                  exact List.mem_takeWhile_imp member
                have placeAll : ∀ char ∈ column, isDigit char := by
                  intro char member
                  rw [← place] at member
                  exact List.mem_takeWhile_imp member
                refine ⟨⟨filled.1, rowAll⟩, ⟨filled.2, placeAll⟩, rest'.dropWhile isDigit,
                  startsWithout_dropWhile isDigit rest', ?_⟩
                have start := after?_eq_some_iff.mp start
                have middle := after?_eq_some_iff.mp middle
                unfold placeText
                simp only [start, ← row, ← place, List.append_assoc,
                  List.takeWhile_append_dropWhile, ← middle]
  · rintro ⟨row, place, rest, stops, rfl⟩
    exact placeHere?_placeText row place stops

/-- A place starts with its phrase. -/
theorem StartsWithPlace.head? {line column text : List Char}
    (place : StartsWithPlace line column text) : text.head? = some 'T' := by
  obtain ⟨_, _, rest, _, rfl⟩ := place
  unfold placeText
  simp

/-- No place is found here exactly if the text starts with none. -/
theorem placeHere?_eq_none_iff {text : List Char} :
    placeHere? text = none ↔ ∀ line column, ¬ StartsWithPlace line column text := by
  simp only [Option.eq_none_iff_forall_ne_some, Prod.forall, ne_eq, placeHere?_eq_some_iff]

/-- **The place that is found is the leftmost one.** -/
theorem place?_eq_some_iff {line column text : List Char} :
    place? text = some (line, column) ↔ IsFirstPlace line column text := by
  induction text with
  | nil =>
      refine iff_of_false (by simp [place?]) ?_
      rintro ⟨before, here, parts, place, _⟩
      rw [(List.append_eq_nil_iff.mp parts.symm).2] at place
      exact absurd place.head? (by simp)
  | cons char rest ih =>
      rw [place?, Option.or_eq_some_iff]
      constructor
      · rintro (here | ⟨nowhere, found⟩)
        · refine ⟨[], char :: rest, rfl, placeHere?_eq_some_iff.mp here, ?_⟩
          intro later suffix filled
          exact absurd (List.suffix_nil.mp suffix) filled
        · obtain ⟨before, here, rfl, place, first⟩ := ih.mp found
          refine ⟨char :: before, here, rfl, place, ?_⟩
          intro later suffix filled
          rcases List.suffix_cons_iff.mp suffix with rfl | suffix
          · exact placeHere?_eq_none_iff.mp nowhere
          · exact first later suffix filled
      · rintro ⟨before, here, parts, place, first⟩
        cases before with
        | nil =>
            rw [List.nil_append] at parts
            exact .inl (placeHere?_eq_some_iff.mpr (parts ▸ place))
        | cons char' before =>
            obtain ⟨rfl, rfl⟩ := List.cons.inj parts
            refine .inr ⟨placeHere?_eq_none_iff.mpr ?_, ih.mpr ⟨before, here, rfl, place, ?_⟩⟩
            · exact first _ List.suffix_rfl (List.cons_ne_nil _ _)
            · intro later suffix filled
              exact first later (suffix.trans (List.suffix_cons _ _)) filled

/-- A place at the start is the one that is found. -/
theorem place?_of_startsWithPlace {line column text : List Char}
    (place : StartsWithPlace line column text) : place? text = some (line, column) := by
  refine place?_eq_some_iff.mpr ⟨[], text, rfl, place, fun later suffix filled => ?_⟩
  exact absurd (List.suffix_nil.mp suffix) filled

/-- Before the first `T` of a text no place is told. -/
theorem place?_append {before : List Char} (noStart : 'T' ∉ before) (here : List Char) :
    place? (before ++ here) = place? here := by
  induction before with
  | nil => rfl
  | cons char before ih =>
      rw [List.mem_cons, not_or] at noStart
      have nowhere : placeHere? (char :: (before ++ here)) = none := by
        refine placeHere?_eq_none_iff.mpr fun line column place => ?_
        exact noStart.1 (Option.some.inj place.head?).symm
      rw [List.cons_append, place?, nowhere, Option.none_or, ih noStart.2]

/-! ## Detection -/

/-- A text is taken for no failure exactly if the mark of failures is nowhere in it. -/
theorem detect?_eq_none_iff {output : String} :
    detect? output = .ok none ↔ ¬ errorMark <:+: output.toList := by
  rw [← occurs_iff_isInfix]
  unfold detect? isMarked
  by_cases marked : occurs errorMark output.toList
  · simp only [marked, Bool.not_true, Bool.false_eq_true, if_false, not_true_eq_false, iff_false]
    intro found
    split at found
    · split at found
      · simp at found
      · split at found <;> simp at found
    · simp at found
  · simp only [marked, Bool.not_false, if_true, Bool.false_eq_true, not_false_eq_true]

/-- Whether a text reports a broken configuration at a place with a number that has more
digits than a numeral may have. -/
def TellsUnreadablePlace (text : List Char) : Prop :=
  errorMark <:+: text ∧ configurationPhrase <:+: text ∧
    ∃ line column, IsFirstPlace line column text ∧
      (Numeral.maxDigits < line.length ∨ Numeral.maxDigits < column.length)

/-- **When detection breaks down.** Exactly at a place that cannot be read. -/
theorem isError_detect?_iff {output : String} :
    (∃ problem, detect? output = .error problem) ↔ TellsUnreadablePlace output.toList := by
  unfold TellsUnreadablePlace
  simp only [← occurs_iff_isInfix, ← place?_eq_some_iff]
  unfold detect? isMarked
  by_cases marked : occurs errorMark output.toList
  · by_cases configured : occurs configurationPhrase output.toList
    · simp only [marked, configured, Bool.not_true, Bool.false_eq_true, if_false, if_true, true_and]
      cases placed : place? output.toList with
      | none => simp
      | some numbers =>
          obtain ⟨line, column⟩ := numbers
          simp only [Option.some.injEq, Prod.mk.injEq, Numeral.ofDigits]
          by_cases longLine : Numeral.maxDigits < line.length
          · simp [longLine]
          · by_cases longColumn : Numeral.maxDigits < column.length
            · simp [longLine, longColumn]
            · simp [longLine, longColumn]
    · simp [marked, configured]
  · simp [marked]

/-- A line number with too many digits breaks the detection. -/
theorem detect?_of_longLine {output : String} {line column : List Char}
    (marked : errorMark <:+: output.toList) (configured : configurationPhrase <:+: output.toList)
    (placed : place? output.toList = some (line, column))
    (long : Numeral.maxDigits < line.length) : detect? output = .error ⟨line.length⟩ := by
  rw [← occurs_iff_isInfix] at marked configured
  unfold detect? isMarked
  simp only [marked, configured, placed, Numeral.ofDigits, long, Bool.not_true, Bool.false_eq_true,
    if_false, if_true]

end ToolFailure

end LintReport
