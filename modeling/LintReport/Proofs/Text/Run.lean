import LintReport.Text.Basic
import Mathlib.Data.List.TakeWhile

/-! # Runs and beginnings

A run of characters of one kind is taken off a text whole when what comes after it
starts without that kind. A given beginning is taken off exactly when the text begins
with it. -/

namespace LintReport.Text

/-- Whether no character of a kind stands at the start of a text. -/
def StartsWithout (kind : Char → Bool) (text : List Char) : Prop :=
  ∀ char, text.head? = some char → kind char = false

/-- Whether no character of a kind stands at the end of a text. -/
def EndsWithout (kind : Char → Bool) (text : List Char) : Prop :=
  ∀ char, text.getLast? = some char → kind char = false

variable {kind : Char → Bool}

@[simp]
theorem startsWithout_nil : StartsWithout kind [] := by
  intro char start
  simp at start

@[simp]
theorem startsWithout_cons {char : Char} {text : List Char} :
    StartsWithout kind (char :: text) ↔ kind char = false := by
  simp [StartsWithout]

@[simp]
theorem endsWithout_concat {text : List Char} {char : Char} :
    EndsWithout kind (text ++ [char]) ↔ kind char = false := by
  simp [EndsWithout]

/-- A text whose first character is of another kind starts without the kind. -/
theorem startsWithout_of_head? {char : Char} {text : List Char} (start : text.head? = some char)
    (other : kind char = false) : StartsWithout kind text := by
  intro first same
  exact Option.some.inj (start.symm.trans same) ▸ other

/-- A text whose last character is of another kind ends without the kind. -/
theorem endsWithout_of_getLast? {char : Char} {text : List Char} (last : text.getLast? = some char)
    (other : kind char = false) : EndsWithout kind text := by
  intro final same
  exact Option.some.inj (last.symm.trans same) ▸ other

/-- What starts without a kind starts without each narrower one. -/
theorem StartsWithout.mono {other : Char → Bool} {text : List Char}
    (starts : StartsWithout kind text) (fewer : ∀ char, kind char = false → other char = false) :
    StartsWithout other text :=
  fun char start => fewer char (starts char start)

/-- The start of a text is the start of any text that begins with it. -/
theorem StartsWithout.append {text : List Char} (starts : StartsWithout kind text)
    (filled : text ≠ []) (more : List Char) : StartsWithout kind (text ++ more) := by
  cases text with
  | nil => exact absurd rfl filled
  | cons char rest => simpa using starts

/-- The end of a text is the end of any text that ends with it. -/
theorem EndsWithout.of_suffix {text more : List Char} (ends : EndsWithout kind text)
    (filled : text ≠ []) (suffix : text <:+ more) : EndsWithout kind more := by
  obtain ⟨before, rfl⟩ := suffix
  intro char last
  have same := List.getLast?_eq_some_getLast filled
  rw [List.getLast?_append, same, Option.some_or, ← same] at last
  exact ends char last

/-- A part at the end of a text that does not end with a blank says something. -/
theorem isBlankText_of_suffix {part text : List Char} (filled : part ≠ []) (suffix : part <:+ text)
    (ends : EndsWithout isBlank text) : isBlankText part = false := by
  obtain ⟨before, rfl⟩ := suffix
  have last : (before ++ part).getLast? = some (part.getLast filled) := by
    rw [List.getLast?_append, List.getLast?_eq_some_getLast filled, Option.some_or]
  rw [isBlankText, List.all_eq_false]
  exact ⟨_, List.getLast_mem filled, by simp [ends _ last]⟩

/-- A text that starts without a blank says something. -/
theorem isBlankText_of_startsWithout {text : List Char} (filled : text ≠ [])
    (starts : StartsWithout isBlank text) : isBlankText text = false := by
  obtain ⟨first, rest, rfl⟩ := List.exists_cons_of_ne_nil filled
  rw [isBlankText, List.all_cons, startsWithout_cons.mp starts, Bool.false_and]

/-- A run of a kind is taken whole, and nothing behind it. -/
theorem takeWhile_run {run text : List Char} (all : ∀ char ∈ run, kind char)
    (starts : StartsWithout kind text) : (run ++ text).takeWhile kind = run := by
  rw [List.takeWhile_append_of_pos all]
  cases text with
  | nil => simp
  | cons char rest => simp [startsWithout_cons.mp starts]

/-- A run of a kind is dropped whole, and nothing behind it. -/
theorem dropWhile_run {run text : List Char} (all : ∀ char ∈ run, kind char)
    (starts : StartsWithout kind text) : (run ++ text).dropWhile kind = text := by
  rw [List.dropWhile_append_of_pos all]
  cases text with
  | nil => rfl
  | cons char rest => simp [startsWithout_cons.mp starts]

/-- What is left after a run is taken off starts without its kind. -/
theorem startsWithout_dropWhile (kind : Char → Bool) (text : List Char) :
    StartsWithout kind (text.dropWhile kind) := by
  intro char start
  have stops := List.head?_dropWhile_not kind text
  simpa [start] using stops

/-- What comes after a beginning is the rest of the text. -/
theorem after?_eq_some_iff {beginning text rest : List Char} :
    after? beginning text = some rest ↔ text = beginning ++ rest := by
  induction beginning generalizing text with
  | nil => simp [after?]
  | cons expected beginning ih =>
      cases text with
      | nil => simp [after?]
      | cons char text =>
          by_cases same : expected = char
          · simp [after?, same, ih]
          · simp [after?, same, Ne.symm same]

end LintReport.Text
