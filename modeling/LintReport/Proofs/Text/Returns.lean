import LintReport.Proofs.Text.Trimmed

/-! # Carriage returns before newlines

A text may end its lines with a carriage return and a newline, or with the newline alone
(`withReturns`). The lines of both are the same but for a return at the end of some
(`lines_withReturns`), which is a blank and goes when a line is trimmed. What holds no line
end itself starts in the one text where it starts in the other, so the same stretches occur
in both (`isInfix_withReturns_iff`). -/

namespace LintReport.Text

/-- The text with a carriage return before every newline. -/
def withReturns (text : List Char) : List Char :=
  text.flatMap fun char => if char = '\n' then ['\r', '\n'] else [char]

/-- The text without the one carriage return that may stand right before a newline. -/
def withoutReturns : List Char → List Char
  | [] => []
  | '\r' :: '\n' :: rest => '\n' :: withoutReturns rest
  | char :: rest => char :: withoutReturns rest

/-- Whether a line is another one, or that one with a carriage return at its end. -/
def IsReturned (line returned : List Char) : Prop :=
  returned = line ∨ returned = line ++ ['\r']

variable {text : List Char}

@[simp]
theorem withReturns_nil : withReturns [] = [] := rfl

@[simp]
theorem withReturns_newline (rest : List Char) :
    withReturns ('\n' :: rest) = '\r' :: '\n' :: withReturns rest := rfl

theorem withReturns_cons {char : Char} (other : char ≠ '\n') (rest : List Char) :
    withReturns (char :: rest) = char :: withReturns rest := by
  rw [withReturns, List.flatMap_cons, if_neg other]
  rfl

/-- Returns go in piece by piece, since they look at one character at a time. -/
theorem withReturns_append (before after : List Char) :
    withReturns (before ++ after) = withReturns before ++ withReturns after :=
  List.flatMap_append

/-- A text without line feeds gets no returns. -/
theorem withReturns_of_notMem (absent : '\n' ∉ text) : withReturns text = text := by
  induction text with
  | nil => rfl
  | cons char rest ih =>
      rw [List.mem_cons, not_or] at absent
      rw [withReturns_cons (Ne.symm absent.1), ih absent.2]

/-- Only the empty text is empty with its returns. -/
@[simp]
theorem withReturns_eq_nil_iff : withReturns text = [] ↔ text = [] := by
  cases text with
  | nil => simp
  | cons char rest =>
      by_cases newline : char = '\n'
      · simp [newline]
      · simp [withReturns_cons newline]

/-- Returns make no text shorter. -/
theorem length_le_withReturns (text : List Char) : text.length ≤ (withReturns text).length := by
  induction text with
  | nil => exact Nat.le_refl _
  | cons char rest ih =>
      by_cases newline : char = '\n'
      · subst newline
        simp only [withReturns_newline, List.length_cons]
        omega
      · simp only [withReturns_cons newline, List.length_cons]
        omega

/-! ## Taking the returns away -/

/-- Only a return right before a line feed goes. -/
theorem withoutReturns_cons {char : Char} {rest : List Char}
    (other : char ≠ '\r' ∨ rest.head? ≠ some '\n') :
    withoutReturns (char :: rest) = char :: withoutReturns rest := by
  rw [withoutReturns]
  rintro others rfl rfl
  simp at other

/-- With its returns no text starts with a line feed. -/
theorem head?_withReturns_ne (text : List Char) : (withReturns text).head? ≠ some '\n' := by
  cases text with
  | nil => simp
  | cons char rest =>
      by_cases newline : char = '\n'
      · subst newline
        simp
      · simpa [withReturns_cons newline] using newline

/-- The returns before newlines can be taken away again, and only these go. -/
theorem withoutReturns_withReturns (text : List Char) :
    withoutReturns (withReturns text) = text := by
  induction text with
  | nil => rfl
  | cons char rest ih =>
      by_cases newline : char = '\n'
      · subst newline
        rw [withReturns_newline, withoutReturns, ih]
      · rw [withReturns_cons newline, withoutReturns_cons (.inr (head?_withReturns_ne rest)), ih]

/-- A text without returns has none to lose. -/
theorem withoutReturns_of_notMem (absent : '\r' ∉ text) : withoutReturns text = text := by
  induction text with
  | nil => rfl
  | cons char rest ih =>
      rw [List.mem_cons, not_or] at absent
      rw [withoutReturns_cons (.inl (Ne.symm absent.1)), ih absent.2]

/-- Taking returns out keeps the other characters in order. -/
theorem withoutReturns_sublist (text : List Char) : (withoutReturns text).Sublist text := by
  fun_induction withoutReturns text with
  | case1 => exact .slnil
  | case2 rest ih => exact (ih.cons_cons _).cons _
  | case3 char rest _ ih => exact ih.cons_cons _

/-- Two texts lose their returns apart from each other unless a return ends the first and
a newline starts the second. -/
theorem withoutReturns_append {before after : List Char}
    (apart : before.getLast? ≠ some '\r' ∨ after.head? ≠ some '\n') :
    withoutReturns (before ++ after) = withoutReturns before ++ withoutReturns after := by
  fun_induction withoutReturns before with
  | case1 => rfl
  | case2 rest ih =>
      have apart : rest.getLast? ≠ some '\r' ∨ after.head? ≠ some '\n' := by
        refine apart.imp_left fun noReturn last => noReturn ?_
        rw [List.getLast?_cons, List.getLast?_cons, last]
        rfl
      rw [List.cons_append, List.cons_append, withoutReturns, ih apart, List.cons_append]
  | case3 char rest other ih =>
      have next : char ≠ '\r' ∨ (rest ++ after).head? ≠ some '\n' := by
        by_cases mark : char = '\r'
        · subst mark
          cases rest with
          | nil => exact .inr (apart.resolve_left (by simp))
          | cons first rest =>
              refine .inr fun newline => ?_
              rw [List.cons_append, List.head?_cons, Option.some.injEq] at newline
              exact other rest rfl (by rw [newline])
        · exact .inl mark
      have apart : rest.getLast? ≠ some '\r' ∨ after.head? ≠ some '\n' := by
        refine apart.imp_left fun noReturn last => noReturn ?_
        rw [List.getLast?_cons, last]
        rfl
      rw [List.cons_append, withoutReturns_cons next, ih apart, List.cons_append]

/-! ## Trimming -/

/-- A return before a line feed is as blank as the line feed, so it goes with it at the start. -/
theorem trimStart_withReturns (text : List Char) :
    trimStart (withReturns text) = withReturns (trimStart text) := by
  induction text with
  | nil => rfl
  | cons char rest ih =>
      by_cases newline : char = '\n'
      · subst newline
        exact ih
      · rw [withReturns_cons newline]
        by_cases blank : isBlank char = true
        · simpa only [trimStart, List.dropWhile_cons, blank, if_true] using ih
        · simp only [trimStart, List.dropWhile_cons, blank, Bool.false_eq_true, if_false,
            withReturns_cons newline]

/-- A return and its line feed go together at the end. -/
theorem trimEnd_withReturns (text : List Char) :
    trimEnd (withReturns text) = withReturns (trimEnd text) := by
  induction text using List.reverseRecOn with
  | nil => rfl
  | append_singleton text char ih =>
      rw [withReturns_append]
      by_cases newline : char = '\n'
      · subst newline
        have ending : withReturns ['\n'] = ['\r'] ++ ['\n'] := rfl
        rw [ending, ← List.append_assoc, trimEnd_concat_of_isBlank rfl,
          trimEnd_concat_of_isBlank rfl, trimEnd_concat_of_isBlank rfl, ih]
      · have alone : withReturns [char] = [char] := withReturns_cons newline []
        rw [alone]
        cases blank : isBlank char with
        | true => rw [trimEnd_concat_of_isBlank blank, trimEnd_concat_of_isBlank blank, ih]
        | false =>
            have kept : ∀ before, trimEnd (before ++ [char]) = before ++ [char] := by
              intro before
              simp [trimEnd, blank]
            rw [kept, kept, withReturns_append, alone]

/-- Trimming leaves the returns inside a text. -/
theorem trim_withReturns (text : List Char) :
    trim (withReturns text) = withReturns (trim text) := by
  rw [trim, trim, trimStart_withReturns, trimEnd_withReturns]

theorem isBlankText_withReturns (text : List Char) :
    isBlankText (withReturns text) = isBlankText text := by
  rw [Bool.eq_iff_iff, ← trim_eq_nil_iff, trim_withReturns, withReturns_eq_nil_iff,
    trim_eq_nil_iff]

/-- A return at the end of a line is trimmed away. -/
theorem IsReturned.trim_eq {line returned : List Char} (same : IsReturned line returned) :
    trim returned = trim line := by
  rcases same with rfl | rfl
  · rfl
  · exact trim_concat_of_isBlank rfl line

/-! ## Lines -/

/-- The lines are the same but for returns at their ends. -/
theorem lines_withReturns (text : List Char) :
    List.Forall₂ IsReturned (lines text) (lines (withReturns text)) := by
  induction text with
  | nil => exact .cons (.inl rfl) .nil
  | cons char rest ih =>
      by_cases newline : char = '\n'
      · subst newline
        exact .cons (.inr rfl) ih
      · rw [withReturns_cons newline]
        -- the character goes to the first line of the rest, which may have a return
        have grown : ∀ text, lines (char :: text) =
            (char :: (lines text).headD []) :: (lines text).tail := by
          intro text
          rw [lines, splitAt, if_neg newline]
          cases pieces : splitAt '\n' text with
          | nil => exact absurd pieces (splitAt_ne_nil _ _)
          | cons piece more => simp [lines, pieces]
        rw [grown, grown]
        generalize lines rest = pieces at ih ⊢
        generalize lines (withReturns rest) = returned at ih ⊢
        cases ih with
        | nil => exact .cons (.inl rfl) .nil
        | cons same others =>
            refine .cons ?_ others
            exact same.imp (congrArg (char :: ·)) (congrArg (char :: ·))

/-! ## Beginnings and runs -/

/-- Whether a text holds no line end. -/
def IsUnbroken (text : List Char) : Prop :=
  ∀ char ∈ text, char ≠ '\n' ∧ char ≠ '\r'

instance (text : List Char) : Decidable (IsUnbroken text) :=
  List.decidableBAll _ text

/-- A beginning without line feeds is found with or without returns. -/
theorem after?_withReturns {beginning : List Char} (unbroken : IsUnbroken beginning)
    (text : List Char) :
    after? beginning (withReturns text) = (after? beginning text).map withReturns := by
  induction beginning generalizing text with
  | nil => rfl
  | cons expected beginning ih =>
      obtain ⟨noNewline, noReturn⟩ := unbroken expected List.mem_cons_self
      have later := ih fun char member => unbroken char (List.mem_cons_of_mem _ member)
      cases text with
      | nil => rfl
      | cons char rest =>
          by_cases newline : char = '\n'
          · subst newline
            simp only [withReturns_newline, after?, if_neg noReturn, if_neg noNewline,
              Option.map_none]
          · rw [withReturns_cons newline, after?, after?]
            by_cases same : expected = char
            · rw [if_pos same, if_pos same, later]
            · rw [if_neg same, if_neg same, Option.map_none]

/-- A text is a beginning exactly if something comes after it. -/
theorem isPrefix_iff_after? {beginning text : List Char} :
    beginning <+: text ↔ (after? beginning text).isSome := by
  simp only [Option.isSome_iff_exists, after?_eq_some_iff]
  exact exists_congr fun rest => eq_comm

/-- A stretch without line ends starts with returns where it starts without them. -/
theorem isPrefix_withReturns_iff {needle : List Char} (unbroken : IsUnbroken needle) :
    needle <+: withReturns text ↔ needle <+: text := by
  rw [isPrefix_iff_after?, isPrefix_iff_after?, after?_withReturns unbroken, Option.isSome_map]

/-- A text does not start with a character that it does not have. -/
theorem not_isPrefix_cons {needle : List Char} (filled : needle ≠ []) {char : Char}
    (absent : char ∉ needle) (rest : List Char) : ¬ needle <+: char :: rest := by
  rintro ⟨more, parts⟩
  cases needle with
  | nil => exact filled rfl
  | cons first needle =>
      rw [List.cons_append, List.cons.injEq] at parts
      exact absent (parts.1 ▸ List.mem_cons_self)

/-- **What occurs.** A stretch without line ends occurs with returns exactly if it occurs
without them. -/
theorem isInfix_withReturns_iff {needle : List Char} (filled : needle ≠ [])
    (unbroken : IsUnbroken needle) : needle <:+: withReturns text ↔ needle <:+: text := by
  induction text with
  | nil => rfl
  | cons char rest ih =>
      by_cases newline : char = '\n'
      · subst newline
        have noNewline := not_isPrefix_cons filled fun member => (unbroken '\n' member).1 rfl
        have noReturn := not_isPrefix_cons filled fun member => (unbroken '\r' member).2 rfl
        rw [withReturns_newline, List.infix_cons_iff, List.infix_cons_iff, List.infix_cons_iff, ih,
          or_iff_right (noReturn _), or_iff_right (noNewline _), or_iff_right (noNewline _)]
      · have here : needle <+: withReturns (char :: rest) ↔ needle <+: char :: rest :=
          isPrefix_withReturns_iff unbroken
        rw [withReturns_cons newline] at here ⊢
        rw [List.infix_cons_iff, List.infix_cons_iff, here, ih]

section Runs

variable {kind : Char → Bool}

/-- A run without line feeds and returns stops at the return that a line feed gets, where it stopped
before. -/
theorem takeWhile_withReturns (noNewline : kind '\n' = false) (noReturn : kind '\r' = false)
    (text : List Char) : (withReturns text).takeWhile kind = text.takeWhile kind := by
  induction text with
  | nil => rfl
  | cons char rest ih =>
      by_cases newline : char = '\n'
      · subst newline
        simp [noNewline, noReturn]
      · rw [withReturns_cons newline, List.takeWhile_cons, List.takeWhile_cons, ih]

/-- Behind such a run the text goes on with its returns. -/
theorem dropWhile_withReturns (noNewline : kind '\n' = false) (noReturn : kind '\r' = false)
    (text : List Char) :
    (withReturns text).dropWhile kind = withReturns (text.dropWhile kind) := by
  induction text with
  | nil => rfl
  | cons char rest ih =>
      by_cases newline : char = '\n'
      · subst newline
        simp [noNewline, noReturn]
      · rw [withReturns_cons newline, List.dropWhile_cons, List.dropWhile_cons, ih]
        split
        · rfl
        · rw [withReturns_cons newline]

end Runs

end LintReport.Text
