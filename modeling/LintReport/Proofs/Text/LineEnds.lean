import LintReport.Proofs.Text.Returns

/-! # Line ends read alike

The newlines of a text may be written as newlines, as carriage returns, or as both
(`LineEnd.write`). Whichever of them a text without carriage returns is written with throughout, it
is read back (`unifyLineEnds_write`). What has been read up to some place stays as it is when more
follows, also where a carriage return before the place meets a newline behind it
(`isPrefix_unifyLineEnds_append`). -/

namespace LintReport.Text

/-- How the end of a line is written. -/
inductive LineEnd where
  | newline
  | returnNewline
  | carriageReturn
  deriving DecidableEq, Repr

/-- The characters of a line end. -/
def LineEnd.chars : LineEnd → List Char
  | .newline => ['\n']
  | .returnNewline => ['\r', '\n']
  | .carriageReturn => ['\r']

/-- The text with every newline written as the line end. -/
def LineEnd.write (lineEnd : LineEnd) (text : List Char) : List Char :=
  text.flatMap fun char => if char = '\n' then lineEnd.chars else [char]

namespace LineEnd

variable {lineEnd : LineEnd}

@[simp]
theorem write_nil : lineEnd.write [] = [] := rfl

@[simp]
theorem write_newline (rest : List Char) :
    lineEnd.write ('\n' :: rest) = lineEnd.chars ++ lineEnd.write rest := rfl

theorem write_cons {char : Char} (other : char ≠ '\n') (rest : List Char) :
    lineEnd.write (char :: rest) = char :: lineEnd.write rest := by
  rw [write, List.flatMap_cons, if_neg other]
  rfl

/-- A text is its own text with newlines. -/
theorem write_newlines (text : List Char) : newline.write text = text := by
  induction text with
  | nil => rfl
  | cons char rest ih =>
      by_cases mark : char = '\n'
      · subst mark
        rw [write_newline, ih]
        rfl
      · rw [write_cons mark, ih]

/-- No newline is left where all of them are written as carriage returns. -/
theorem head?_write_carriageReturn_ne (text : List Char) :
    (carriageReturn.write text).head? ≠ some '\n' := by
  cases text with
  | nil => simp
  | cons char rest =>
      by_cases newline : char = '\n'
      · subst newline
        simp [chars]
      · simpa [write_cons newline] using newline

end LineEnd

/-! ## Reading line ends -/

/-- Only a return is read in another way. -/
theorem unifyLineEnds_cons {char : Char} (other : char ≠ '\r') (rest : List Char) :
    unifyLineEnds (char :: rest) = char :: unifyLineEnds rest := by
  rw [unifyLineEnds, if_neg other]
  rintro _ rfl
  exact absurd rfl other

/-- A return alone ends a line. -/
theorem unifyLineEnds_return {rest : List Char} (alone : rest.head? ≠ some '\n') :
    unifyLineEnds ('\r' :: rest) = '\n' :: unifyLineEnds rest := by
  rw [unifyLineEnds, if_pos rfl]
  rintro _ _ rfl
  exact alone rfl

/-- However a line end is written, it is read as one line feed. -/
theorem unifyLineEnds_chars_write (lineEnd : LineEnd) (rest : List Char) :
    unifyLineEnds (lineEnd.chars ++ lineEnd.write rest) =
      '\n' :: unifyLineEnds (lineEnd.write rest) := by
  cases lineEnd with
  | newline => exact unifyLineEnds_cons (by decide) _
  | returnNewline => rw [LineEnd.chars, List.cons_append, List.singleton_append, unifyLineEnds]
  | carriageReturn => exact unifyLineEnds_return (LineEnd.head?_write_carriageReturn_ne rest)

/-- **One line end throughout.** A text without carriage returns is read back, whichever line end
its newlines are written as. -/
theorem unifyLineEnds_write (lineEnd : LineEnd) {text : List Char} (absent : '\r' ∉ text) :
    unifyLineEnds (lineEnd.write text) = text := by
  induction text with
  | nil => rfl
  | cons char rest ih =>
      rw [List.mem_cons, not_or] at absent
      by_cases newline : char = '\n'
      · subst newline
        rw [LineEnd.write_newline, unifyLineEnds_chars_write, ih absent.2]
      · rw [LineEnd.write_cons newline, unifyLineEnds_cons (Ne.symm absent.1), ih absent.2]

/-- No return is left once line ends are made alike. -/
theorem notMem_unifyLineEnds (text : List Char) : '\r' ∉ unifyLineEnds text := by
  fun_induction unifyLineEnds text with
  | case1 => exact List.not_mem_nil
  | case2 rest ih => simpa using ih
  | case3 char rest _ ih =>
      rw [List.mem_cons, not_or]
      refine ⟨?_, ih⟩
      split
      · decide
      · next other => exact Ne.symm other

/-- What is read from the beginning of a text stands at the beginning of what is read from all of
it. -/
theorem isPrefix_unifyLineEnds_append (before after : List Char) :
    unifyLineEnds before <+: unifyLineEnds (before ++ after) := by
  fun_induction unifyLineEnds before with
  | case1 => exact List.nil_prefix
  | case2 rest ih =>
      rw [List.cons_append, List.cons_append, unifyLineEnds]
      exact List.cons_prefix_cons.mpr ⟨rfl, ih⟩
  | case3 char rest other ih =>
      by_cases mark : char = '\r'
      · subst mark
        rw [if_pos rfl, List.cons_append]
        by_cases meets : (rest ++ after).head? = some '\n'
        · -- the newline behind the return is read with it, and it is the first of what follows
          have ended : rest = [] := by
            cases rest with
            | nil => rfl
            | cons first rest =>
                rw [List.cons_append, List.head?_cons, Option.some.injEq] at meets
                exact absurd (by rw [meets]) (other rest rfl)
          subst ended
          obtain ⟨others, rfl⟩ := List.head?_eq_some_iff.mp meets
          rw [List.nil_append, unifyLineEnds, unifyLineEnds]
          exact List.cons_prefix_cons.mpr ⟨rfl, List.nil_prefix⟩
        · rw [unifyLineEnds_return meets]
          exact List.cons_prefix_cons.mpr ⟨rfl, ih⟩
      · rw [if_neg mark, List.cons_append, unifyLineEnds_cons mark]
        exact List.cons_prefix_cons.mpr ⟨rfl, ih⟩

end LintReport.Text
