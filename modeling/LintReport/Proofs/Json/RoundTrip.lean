import LintReport.Proofs.Json.Bare
import LintReport.Proofs.Json.Embedding
import LintReport.Proofs.Json.Floats
import LintReport.Proofs.Json.Reading
import LintReport.Proofs.Json.Respacing
import LintReport.Proofs.Keyed.Pairs
import LintReport.Proofs.Number.Digits

/-! # Written values and their texts

Which values are read back from what they are written as, told by three properties of the
value itself: its whole numbers are short, its names are distinct, and its containers do
not nest too deep (`Value.isWritable_iff`). The text of such a value stands by itself: it
neither starts nor ends with a blank (`Denotes.isTrimmed`), and it is read back in either
layout (`parse_print`). -/

namespace LintReport.Json

open Text

/-! ## Values that can be spelled out

Spelling a whole number out has the same limit on its digits as reading one, and no number
that was read goes beyond it. -/

namespace Value

theorem areSpellable_iff {values : List Value} :
    areSpellable values ↔ ∀ value ∈ values, value.isSpellable := by
  induction values with
  | nil => simp [areSpellable]
  | cons value rest ih => simp [areSpellable, ih]

theorem entriesAreSpellable_iff {entries : List (String × Value)} :
    entriesAreSpellable entries ↔ ∀ entry ∈ entries, entry.2.isSpellable := by
  induction entries with
  | nil => simp [entriesAreSpellable]
  | cons entry rest ih => simp [entriesAreSpellable, ih]

end Value

/-- A number literal denotes a whole number only if it has few enough digits. -/
theorem NumberLiteral.isSpellable_of_value {literal : NumberLiteral} {value : Value}
    (denotes : literal.value = .ok value) : value.isSpellable := by
  unfold NumberLiteral.value at denotes
  split at denotes
  · split at denotes
    · cases denotes
    · next size digits =>
        rw [Except.ok.injEq] at denotes
        subst denotes
        have short := (Numeral.isShort_of_ofDigits digits).mono
          (Numeral.natAbs_signed literal.negative size).le
        exact decide_eq_true short
  · rw [Except.ok.injEq] at denotes
    subst denotes
    rfl

/-- A scalar that was read has no number that is too long to be spelled out. -/
theorem ScalarText.isSpellable {token : List Char} {value : Value}
    (scalar : ScalarText token value) : value.isSpellable := by
  cases scalar with
  | string _ => rfl
  | keyword member =>
      simp only [keywords, List.mem_cons, List.not_mem_nil, or_false, Prod.mk.injEq] at member
      rcases member with ⟨_, rfl⟩ | ⟨_, rfl⟩ | ⟨_, rfl⟩ | ⟨_, rfl⟩ | ⟨_, rfl⟩ | ⟨_, rfl⟩ <;> rfl
  | number _ denotes => exact NumberLiteral.isSpellable_of_value denotes

/-! ## Ends of tokens -/

/-- Whether a text neither starts nor ends with a blank. -/
structure IsTrimmed (text : List Char) : Prop where
  filled : text ≠ []
  starts : StartsWithout isBlank text
  ends : EndsWithout isBlank text

/-- A number has no blanks. -/
theorem NumberLiteral.isPart_of_isBlank {char : Char} (blank : isBlank char) :
    isPart char = false := by
  have noDigit : char.isDigit = false := by
    cases digit : char.isDigit with
    | false => rfl
    | true =>
        have value := toNat_of_isDigit digit
        simp only [isBlank, Bool.or_eq_true, Bool.and_eq_true, decide_eq_true_eq, beq_iff_eq]
          at blank
        omega
  have noMark : char ∉ ['-', '+', '.', 'e', 'E'] := by
    intro member
    simp only [List.mem_cons, List.not_mem_nil, or_false] at member
    rcases member with rfl | rfl | rfl | rfl | rfl <;> cases blank
  rw [isPart, noDigit, Bool.false_or]
  simpa using noMark

/-- The pieces of a literal end with its closing quote. -/
theorem StringLiteral.quote_of_pieces {opening text rest : List Char} {found : List Piece}
    (success : pieces opening text = .ok (found, rest)) : ∃ body, text = body ++ '"' :: rest := by
  fun_induction pieces opening text generalizing found with
  | case2 rest =>
      simp only [Except.ok.injEq, Prod.mk.injEq] at success
      exact ⟨[], by rw [success.2]; rfl⟩
  | case4 first second third fourth next rest unit known ih =>
      obtain ⟨others, read, _⟩ := prepend_eq_ok success
      obtain ⟨body, parts⟩ := ih read
      exact ⟨'\\' :: 'u' :: first :: second :: third :: fourth :: body, by simp [parts]⟩
  | case7 letter rest _ plain char known ih =>
      obtain ⟨others, read, _⟩ := prepend_eq_ok success
      obtain ⟨body, rfl⟩ := ih read
      exact ⟨'\\' :: letter :: body, rfl⟩
  | case10 char rest _ _ _ _ visible ih =>
      obtain ⟨others, read, _⟩ := prepend_eq_ok success
      obtain ⟨body, rfl⟩ := ih read
      exact ⟨char :: body, rfl⟩
  | _ => simp at success

/-- A string literal ends with its quote. -/
theorem StringLiteral.quote_of_read {opening body : List Char} {string : String}
    (success : read opening body = .ok (string, [])) : ∃ inner, body = inner ++ ['"'] := by
  unfold read at success
  split at success
  · next found rest cut =>
      simp only [Except.ok.injEq, Prod.mk.injEq] at success
      exact success.2 ▸ quote_of_pieces cut
  · simp at success

/-- A token for a scalar ends without a blank. -/
theorem ScalarText.endsWithout_isBlank {token : List Char} {value : Value}
    (scalar : ScalarText token value) : EndsWithout isBlank token := by
  cases scalar with
  | string literal =>
      obtain ⟨inner, rfl⟩ := StringLiteral.quote_of_read literal
      rw [← List.cons_append, endsWithout_concat]
      rfl
  | keyword member =>
      simp only [keywords, List.mem_cons, List.not_mem_nil, or_false, Prod.mk.injEq] at member
      rcases member with ⟨rfl, _⟩ | ⟨rfl, _⟩ | ⟨rfl, _⟩ | ⟨rfl, _⟩ | ⟨rfl, _⟩ | ⟨rfl, _⟩ <;>
        exact endsWithout_of_getLast? rfl rfl
  | number read _ =>
      intro char last
      by_contra blank
      rw [Bool.not_eq_false] at blank
      have left := NumberLiteral.mem_read? (NumberLiteral.isPart_of_isBlank blank) read
        (List.mem_of_getLast? last)
      exact absurd left List.not_mem_nil

/-- No value opens with a blank. -/
theorem isBlank_of_opensValue {char : Char} (opens : opensValue char) : isBlank char = false := by
  cases blank : isBlank char with
  | false => rfl
  | true =>
      have noPart := NumberLiteral.isPart_of_isBlank blank
      simp only [opensValue, NumberLiteral.isDigit_of_foreign noPart, Bool.false_or,
        List.contains_eq_mem, decide_eq_true_eq, List.mem_cons, List.not_mem_nil, or_false] at opens
      rcases opens with rfl | rfl | rfl | rfl | rfl | rfl | rfl | rfl | rfl <;> cases blank

/-- A token has no blanks at its ends. -/
theorem Denotes.isTrimmed {depth : Nat} {token : List Char} {value : Value}
    (denotes : Denotes depth token value) : IsTrimmed token := by
  obtain ⟨first, rest, parts, opens⟩ := denotes.opens
  refine ⟨parts ▸ List.cons_ne_nil _ _, ?_, ?_⟩
  · rw [parts, startsWithout_cons]
    exact isBlank_of_opensValue opens
  · cases depth with
    | zero => exact ScalarText.endsWithout_isBlank denotes
    | succ depth =>
        rcases denotes with scalar | container
        · exact scalar.endsWithout_isBlank
        · obtain ⟨before, last, same, closing⟩ := container.concat
          rw [same, endsWithout_concat]
          rcases closing with rfl | rfl <;> rfl

/-! ## Values that are read back -/

namespace Value

mutual

/-- Whether no object inside a value has a name twice. -/
def isDistinct : Value → Bool
  | .array items => areDistinct items
  | .object entries => (Keyed.keys entries).Nodup && entriesAreDistinct entries
  | _ => true

/-- Whether no object inside the values of a list has a name twice. -/
def areDistinct : List Value → Bool
  | [] => true
  | value :: rest => value.isDistinct && areDistinct rest

/-- Whether no object inside the values of all entries has a name twice. -/
def entriesAreDistinct : List (String × Value) → Bool
  | [] => true
  | (_, value) :: rest => value.isDistinct && entriesAreDistinct rest

end

/-- Items nest as deep as the deepest one. -/
theorem depthOf_le_iff {values : List Value} {depth : Nat} :
    depthOf values ≤ depth ↔ ∀ value ∈ values, value.depth ≤ depth := by
  induction values with
  | nil => simp [depthOf]
  | cons value rest ih => simp [depthOf, ih]

/-- Entries nest as deep as the deepest one. -/
theorem depthOfEntries_le_iff {entries : List (String × Value)} {depth : Nat} :
    depthOfEntries entries ≤ depth ↔ ∀ entry ∈ entries, entry.2.depth ≤ depth := by
  induction entries with
  | nil => simp [depthOfEntries]
  | cons entry rest ih => simp [depthOfEntries, ih]

theorem areDistinct_iff {values : List Value} :
    areDistinct values ↔ ∀ value ∈ values, value.isDistinct := by
  induction values with
  | nil => simp [areDistinct]
  | cons value rest ih => simp [areDistinct, ih]

theorem entriesAreDistinct_iff {entries : List (String × Value)} :
    entriesAreDistinct entries ↔ ∀ entry ∈ entries, entry.2.isDistinct := by
  induction entries with
  | nil => simp [entriesAreDistinct]
  | cons entry rest ih => simp [entriesAreDistinct, ih]

/-- **Which values are read back** from their texts: floating-point numbers always are. -/
theorem isWritable_iff {depth : Nat} {value : Value} :
    value.IsWritable depth ↔ value.isSpellable ∧ value.isDistinct ∧ value.depth ≤ depth := by
  induction depth generalizing value with
  | zero =>
      cases value with
      | float value => simp [IsWritable, isSpellable, isDistinct, depth, ScalarText.float]
      | _ => simp [IsWritable, isSpellable, isDistinct, depth]
  | succ limit ih =>
      cases value with
      | float value => simp [IsWritable, isSpellable, isDistinct, depth, ScalarText.float]
      | array items =>
          simp only [IsWritable, isSpellable, isDistinct, depth, ih, areSpellable_iff,
            areDistinct_iff, Nat.add_le_add_iff_right, depthOf_le_iff]
          grind
      | object entries =>
          simp only [IsWritable, isSpellable, isDistinct, depth, ih, entriesAreSpellable_iff,
            Bool.and_eq_true, decide_eq_true_eq, entriesAreDistinct_iff,
            Nat.add_le_add_iff_right, depthOfEntries_le_iff]
          grind
      | _ => simp [IsWritable, isSpellable, isDistinct, depth]

/-- What can be read back can be written out. -/
theorem dump_of_isWritable (layout : Layout) {value : Value}
    (writable : value.IsWritable maxDepth) : value.dump layout = some (value.print layout) := by
  obtain ⟨spellable, _, shallow⟩ := isWritable_iff.mp writable
  exact if_pos ⟨spellable, shallow⟩

/-- A value is written out in no other way than it is printed. -/
theorem eq_print_of_dump {layout : Layout} {value : Value} {text : String}
    (written : value.dump layout = some text) : text = value.print layout := by
  unfold dump at written
  split at written
  · exact (Option.some.inj written).symm
  · cases written

end Value

/-- **What is written is read back**, in either layout. -/
theorem parse_print (layout : Layout) {value : Value} (spellable : value.isSpellable)
    (distinct : value.isDistinct) (shallow : value.depth ≤ maxDepth) :
    parse (value.print layout).toList = .ok value := by
  have denotes := @denotes_write layout maxDepth 0 value
    (Value.isWritable_iff.mpr ⟨spellable, distinct, shallow⟩)
  rw [Value.print, String.toList_ofList]
  exact parseWithin_token denotes

end LintReport.Json
