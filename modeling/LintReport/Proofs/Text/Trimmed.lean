import LintReport.Proofs.Text.Run
import Mathlib.Data.List.DropRight

/-! # Trimmed texts

Trimming leaves a stretch of the text that neither starts nor ends with a blank, and it
is determined by that: blanks around such a stretch are exactly what is dropped
(`trim_surrounded`). -/

namespace LintReport.Text

theorem isInfix_trim (text : List Char) : trim text <:+: text :=
  (List.rdropWhile_prefix isBlank _).isInfix.trans (List.dropWhile_suffix isBlank).isInfix

theorem endsWithout_trimEnd (text : List Char) : EndsWithout isBlank (trimEnd text) := by
  intro char last
  have start : (text.reverse.dropWhile isBlank).head? = some char := by
    simpa [trimEnd] using last
  exact startsWithout_dropWhile isBlank text.reverse char start

theorem endsWithout_trim (text : List Char) : EndsWithout isBlank (trim text) :=
  endsWithout_trimEnd (trimStart text)

/-- A trimmed text starts without a blank. -/
theorem startsWithout_trim (text : List Char) : StartsWithout isBlank (trim text) := by
  obtain ⟨more, parts⟩ : trim text <+: trimStart text := List.rdropWhile_prefix isBlank _
  cases core : trim text with
  | nil => exact startsWithout_nil
  | cons char rest =>
      have starts : StartsWithout isBlank (trimStart text) := startsWithout_dropWhile isBlank text
      rw [← parts, core] at starts
      exact startsWithout_cons.mpr (startsWithout_cons.mp starts)

/-- Blanks before a text that starts without one are all that is cut off. -/
theorem trimStart_append {blanks text : List Char} (blank : ∀ char ∈ blanks, isBlank char)
    (starts : StartsWithout isBlank text) : trimStart (blanks ++ text) = text :=
  dropWhile_run blank starts

/-- Only blanks are trimmed away. -/
theorem mem_trim {char : Char} {text : List Char} (member : char ∈ text)
    (filled : isBlank char = false) : char ∈ trim text := by
  have kept : ∀ {text : List Char}, char ∈ text → char ∈ text.dropWhile isBlank := by
    intro text member
    rw [← List.takeWhile_append_dropWhile (p := isBlank) (l := text)] at member
    refine (List.mem_append.mp member).resolve_left fun blank => ?_
    rw [List.mem_takeWhile_imp blank] at filled
    cases filled
  rw [trim, trimEnd, List.mem_reverse]
  exact kept (List.mem_reverse.mpr (kept member))

/-- A text that starts without a blank keeps its start. -/
theorem head?_trim {char : Char} {text : List Char} (start : text.head? = some char)
    (filled : isBlank char = false) : (trim text).head? = some char := by
  have noBlanks : ∀ char ∈ ([] : List Char), isBlank char := by simp
  have whole : trimStart text = text :=
    trimStart_append noBlanks (startsWithout_of_head? start filled)
  obtain ⟨more, parts⟩ : trim text <+: trimStart text := List.rdropWhile_prefix isBlank _
  rw [whole] at parts
  cases core : trim text with
  | nil =>
      have inside := mem_trim (List.mem_of_head? start) filled
      rw [core] at inside
      cases inside
  | cons first rest =>
      rw [← parts, core] at start
      exact start

/-- Blanks behind a text that ends without one are all that is cut off. -/
theorem trimEnd_append {text blanks : List Char} (blank : ∀ char ∈ blanks, isBlank char)
    (ends : EndsWithout isBlank text) : trimEnd (text ++ blanks) = text := by
  have reversed : StartsWithout isBlank text.reverse := by
    intro char start
    exact ends char (by simpa using start)
  have blankReversed : ∀ char ∈ blanks.reverse, isBlank char := by
    intro char member
    exact blank char (List.mem_reverse.mp member)
  rw [trimEnd, List.reverse_append, dropWhile_run blankReversed reversed, List.reverse_reverse]

/-- Blanks around a stretch without blanks at its ends are what trimming drops. -/
theorem trim_surrounded {before core after : List Char}
    (blankBefore : ∀ char ∈ before, isBlank char) (blankAfter : ∀ char ∈ after, isBlank char)
    (filled : core ≠ []) (starts : StartsWithout isBlank core) (ends : EndsWithout isBlank core) :
    trim (before ++ core ++ after) = core := by
  rw [trim, List.append_assoc, trimStart_append blankBefore (starts.append filled after),
    trimEnd_append blankAfter ends]

/-- A text without blanks at its ends is left as it is. -/
theorem trim_eq_self {text : List Char} (starts : StartsWithout isBlank text)
    (ends : EndsWithout isBlank text) : trim text = text := by
  have noBlanks : ∀ char ∈ ([] : List Char), isBlank char := by simp
  have started : trimStart text = text := trimStart_append noBlanks starts
  have ended : trimEnd text = text := by
    simpa using trimEnd_append noBlanks ends
  rw [trim, started, ended]

theorem trimEnd_concat_of_isBlank {char : Char} (blank : isBlank char) (text : List Char) :
    trimEnd (text ++ [char]) = trimEnd text := by
  simp [trimEnd, blank]

/-- One more blank at the end of a text is dropped with the others. -/
theorem trim_concat_of_isBlank {char : Char} (blank : isBlank char) (text : List Char) :
    trim (text ++ [char]) = trim text := by
  have start : trimStart (text ++ [char]) =
      if trimStart text = [] then [] else trimStart text ++ [char] := by
    simp [trimStart, List.dropWhile_append, blank]
  rw [trim, trim, start]
  split
  · next empty => rw [empty]
  · exact trimEnd_concat_of_isBlank blank _

/-- Nothing is left exactly of a blank text. -/
theorem trim_eq_nil_iff {text : List Char} : trim text = [] ↔ isBlankText text := by
  have started : trimStart text = [] ↔ isBlankText text := by
    rw [trimStart, List.dropWhile_eq_nil_iff, isBlankText, List.all_eq_true]
  rw [← started]
  constructor
  · intro empty
    rw [trim, trimEnd, List.reverse_eq_nil_iff, List.dropWhile_eq_nil_iff] at empty
    cases core : trimStart text with
    | nil => rfl
    | cons char rest =>
        have starts := startsWithout_dropWhile isBlank text char (by rw [← trimStart, core]; rfl)
        have blank := empty char (by rw [core]; simp)
        exact absurd blank (by simp [starts])
  · intro empty
    rw [trim, empty]
    rfl

end LintReport.Text
