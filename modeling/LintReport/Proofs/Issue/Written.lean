import LintReport.Proofs.Issue.Grammar
import LintReport.Proofs.Text.Trimmed

/-! # Text lines read back

A text line that was written from its parts is read as these parts
(`TextLine.ofText?_written`), though the message may hold places and severities of its
own: no place stands inside the path, so its end is where the first remark starts, and
what comes after the first severity is not looked at again. -/

namespace LintReport

open Text

namespace TextLine

/-! ## Remarks -/

/-- What is written after the colon of a path. -/
def Remark.written (remark : Remark) : List Char :=
  remark.line ++ ':' :: (writtenColumn remark.column ++
    ' ' :: (remark.severity ++ ':' :: ' ' :: remark.message))

/-- A text line as it is written. -/
def written (line : TextLine) : List Char :=
  line.path ++ ':' :: line.remark.written

/-- Whether a remark has numbers for its place, the word of a severity in any case, and
one line of message that does not start with a blank. -/
structure Remark.IsPlain (severity : Severity) (remark : Remark) : Prop where
  line : IsNumber remark.line
  column : ∀ digits ∈ remark.column, IsNumber digits
  severity : remark.severity.map Char.toLower = severity.name.toList
  filled : remark.message ≠ []
  single : '\n' ∉ remark.message
  starts : StartsWithout isBlank remark.message

/-- A plain remark is taken apart as it was written, with one blank each before its severity
and its message. -/
theorem Remark.IsPlain.isSplit {severity : Severity} {remark : Remark}
    (plain : remark.IsPlain severity) : IsSplit remark.written remark [' '] [' '] where
  whole := rfl
  line := plain.line
  column := plain.column
  gap := List.forall_mem_singleton.mpr rfl
  severity := ⟨severity, map_folded_of_toLower plain.severity⟩
  pad := List.forall_mem_singleton.mpr rfl
  message := plain.filled

/-- A plain remark is read off its own text. -/
theorem Remark.IsPlain.ofText? {severity : Severity} {remark : Remark}
    (plain : remark.IsPlain severity) : Remark.ofText? remark.written = some remark := by
  have single : '\n' ∉ [' '] ++ remark.message := by
    simpa using plain.single
  rw [plain.isSplit.ofText? single (isBlankText_of_startsWithout plain.filled plain.starts),
    trimStart_append (List.forall_mem_singleton.mpr rfl) plain.starts]

/-! ## Lines -/

/-- No remark stands inside a path without a place, whatever comes after the path. -/
theorem here?_inside {path : List Char}
    (noPlace : ∀ char, [':', char] <:+: path → isDigit char = false) (filled : path ≠ [])
    (rest : List Char) : Remark.here? (path ++ ':' :: rest) = none := by
  obtain ⟨first, others, rfl⟩ := List.exists_cons_of_ne_nil filled
  by_cases colon : first = ':'
  · subst colon
    have noDigit : (others ++ ':' :: rest).takeWhile isDigit = [] := by
      cases others with
      | nil => rfl
      | cons char others =>
          have place : [':', char] <:+: ':' :: char :: others :=
            (List.prefix_append [':', char] others).isInfix
          simp [noPlace char place]
    simp only [List.cons_append, Remark.here?, Remark.ofText?, noDigit]
  · rw [List.cons_append, Remark.here?]
    exact fun text same => colon (List.cons.inj same).1

/-- A path without a place ends at the first colon that a remark stands after. -/
theorem ofText?_path {path rest : List Char} {remark : Remark}
    (noPlace : ∀ char, [':', char] <:+: path → isDigit char = false) (filled : path ≠ [])
    (single : '\n' ∉ path) (read : Remark.ofText? rest = some remark) :
    ofText? (path ++ ':' :: rest) = some { path, remark } := by
  -- the path ends where the first remark starts, so none may start at a character before
  induction path with
  | nil => exact absurd rfl filled
  | cons char path ih =>
      rw [List.mem_cons, not_or] at single
      rw [List.cons_append, ofText?, if_neg (Ne.symm single.1)]
      cases path with
      | nil =>
          rw [List.nil_append, Remark.here?, read]
      | cons next path =>
          have inner : ∀ char, [':', char] <:+: next :: path → isDigit char = false :=
            fun char place => noPlace char (place.trans (List.suffix_cons _ _).isInfix)
          rw [here?_inside inner (List.cons_ne_nil _ _),
            ih inner (List.cons_ne_nil _ _) single.2]
          rfl

/-- **A text line is read back as its parts.** -/
theorem ofText?_written {line : TextLine} {severity : Severity}
    (noPlace : ∀ char, [':', char] <:+: line.path → isDigit char = false) (filled : line.path ≠ [])
    (single : '\n' ∉ line.path) (plain : line.remark.IsPlain severity) :
    ofText? line.written = some line :=
  ofText?_path noPlace filled single plain.ofText?

end TextLine

end LintReport
