import LintReport.Proofs.Json.Reading
import LintReport.Proofs.Text.Pieces

/-! # Texts inside texts

Texts of values make the text of an array when commas stand between them and brackets
around them, whatever the values are (`denotes_arrayText`). Without the brackets they
make no text at all: the first value ends the reading, and what comes after it is too much
(`parseWithin_extraData`). A text inside a container leaves it one level of nesting less. -/

namespace LintReport.Json

open Text

/-- The text of an array whose items have the given texts. -/
def arrayText (texts : List (List Char)) : List Char :=
  '[' :: (join [','] texts ++ [']'])

/-- The text of an object with one entry, where a label is a name with its colon. -/
def entryText (label text : List Char) : List Char :=
  '{' :: (label ++ (text ++ ['}']))

/-- What is read is read the same where more may nest. -/
theorem parseWithin_mono {few many : Nat} (within : few ≤ many) {text : List Char} {value : Value}
    (success : parseWithin few text = .ok value) : parseWithin many text = .ok value := by
  obtain ⟨before, token, after, parts, spaceBefore, denotes, spaceAfter⟩ :=
    parseWithin_eq_ok_iff.mp success
  exact parseWithin_eq_ok_iff.mpr
    ⟨before, token, after, parts, spaceBefore, denotes.mono within, spaceAfter⟩

theorem parseWithin_token {depth : Nat} {token : List Char} {value : Value}
    (denotes : Denotes depth token value) : parseWithin depth token = .ok value := by
  exact parseWithin_eq_ok_iff.mpr
    ⟨[], token, [], by simp, isSpacing_nil, denotes, isSpacing_nil⟩

section Arrays

variable {depth : Nat} {value : List Char → Value} {texts : List (List Char)}

/-- Texts with commas between them and a bracket at the end are the items of an array,
after some space. -/
theorem itemsText_join (filled : texts ≠ [])
    (held : ∀ text ∈ texts, parseWithin depth text = .ok (value text)) :
    ∃ spacing body, join [','] texts ++ [']'] = spacing ++ body ∧ IsSpacing spacing ∧
      ItemsText (Denotes depth) body (texts.map value) := by
  induction texts with
  | nil => exact absurd rfl filled
  | cons text texts ih =>
      obtain ⟨before, token, after, parts, spaceBefore, denotes, spaceAfter⟩ :=
        parseWithin_eq_ok_iff.mp (held text List.mem_cons_self)
      cases texts with
      | nil =>
          refine ⟨before, token ++ (after ++ [']']), ?_, spaceBefore, .last denotes spaceAfter⟩
          rw [join, parts, List.append_assoc, List.append_assoc]
      | cons next texts =>
          obtain ⟨spacing, body, joined, space, items⟩ := ih (List.cons_ne_nil _ _)
            fun other member => held other (List.mem_cons_of_mem _ member)
          refine ⟨before, token ++ (after ++ ',' :: (spacing ++ body)), ?_, spaceBefore,
            .more denotes spaceAfter space items⟩
          rw [join_cons (List.cons_ne_nil _ _), parts]
          simp only [List.append_assoc, List.cons_append, List.nil_append, joined]

/-- **Texts make an array.** -/
theorem denotes_arrayText (filled : texts ≠ [])
    (held : ∀ text ∈ texts, parseWithin depth text = .ok (value text)) :
    Denotes (depth + 1) (arrayText texts) (.array (texts.map value)) := by
  obtain ⟨spacing, body, joined, space, items⟩ := itemsText_join filled held
  rw [arrayText, joined]
  exact .inr (.array space items)

end Arrays

theorem NameText.compact {body : List Char} {name : String}
    (literal : StringLiteral.read [] body = .ok (name, [])) :
    NameText ('"' :: (body ++ [':'])) name :=
  .mk literal isSpacing_nil isSpacing_nil

/-- An entry in braces denotes the object with that entry. -/
theorem denotes_entryText {depth : Nat} {label text : List Char} {name : String} {value : Value}
    (named : NameText label name) (denotes : Denotes depth text value) :
    Denotes (depth + 1) (entryText label text) (.object [(name, value)]) := by
  have entries := EntriesText.last named denotes isSpacing_nil
  exact .inr (.object isSpacing_nil entries)

/-- What stands after a value and its space is too much. -/
theorem parseWithin_extraData {depth : Nat} {token more : List Char} {value : Value}
    (denotes : Denotes depth token value) (stops : Stops more) (filled : ¬ IsSpacing more) :
    parseWithin depth (token ++ more) = .error (.misread .extraData (skipSpace more)) := by
  have read := (reads_valueReader depth).read denotes stops
  obtain ⟨first, rest, rfl, opens⟩ := denotes.opens
  have noMark : (first :: rest ++ more).head? ≠ some '\uFEFF' := by
    intro start
    rw [List.cons_append, List.head?_cons, Option.some.injEq] at start
    subst start
    simp [opensValue] at opens
  have noSpace : skipSpace (first :: rest ++ more) = first :: rest ++ more :=
    skipSpace_append_mark isSpacing_nil first (isSpace_of_opensValue opens) (rest ++ more)
  have left : skipSpace more ≠ [] := fun none => filled (skipSpace_eq_nil_iff.mp none)
  rw [parseWithin, if_neg noMark, noSpace, read]
  dsimp only
  split
  · next none => exact absurd none left
  · rfl

theorem NumberLiteral.value_ne_object {literal : NumberLiteral} {entries : List (String × Value)} :
    literal.value ≠ .ok (.object entries) := by
  intro denotes
  unfold NumberLiteral.value at denotes
  split at denotes
  · split at denotes <;> simp at denotes
  · simp at denotes

/-- The token of an object stands between braces. -/
theorem Denotes.braces {depth : Nat} {token : List Char} {entries : List (String × Value)}
    (denotes : Denotes depth token (.object entries)) :
    ∃ inner, token = '{' :: (inner ++ ['}']) := by
  have noScalar : ¬ ScalarText token (.object entries) := by
    intro scalar
    cases scalar with
    | keyword member => simp [keywords] at member
    | number _ denotes => exact NumberLiteral.value_ne_object denotes
  cases depth with
  | zero => exact absurd denotes noScalar
  | succ depth =>
      rcases denotes with scalar | container
      · exact absurd scalar noScalar
      · exact container.braces

end LintReport.Json
