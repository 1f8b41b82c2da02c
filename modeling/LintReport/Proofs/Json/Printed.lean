import LintReport.Proofs.Json.Escapes
import LintReport.Proofs.Json.Reading
import LintReport.Proofs.Keyed.Pairs
import LintReport.Proofs.Number.Digits

/-! # Written values are read back

What a value is written as is a token of that value in either layout (`denotes_write`), as
far as the value is one that can be read at all: its names are distinct, its whole numbers
are short, and its containers do not nest too deep (`Value.IsWritable`). -/

namespace LintReport.Json

open Text

/-- Whether a value can be read back from its text when at most `depth` containers may
nest. Of a floating-point number its text has to say so itself. -/
def Value.IsWritable : (depth : Nat) → Value → Prop
  | _, .null => True
  | _, .bool _ => True
  | _, .int value => (Nat.toDigits 10 value.natAbs).length ≤ Numeral.maxDigits
  | _, .float value => ScalarText (value.text floatWords) (.float value)
  | _, .string _ => True
  | 0, .array _ => False
  | 0, .object _ => False
  | depth + 1, .array items => ∀ item ∈ items, IsWritable depth item
  | depth + 1, .object entries =>
      (Keyed.keys entries).Nodup ∧ ∀ entry ∈ entries, IsWritable depth entry.2

@[simp]
theorem Value.isWritable_string (depth : Nat) (text : String) : (string text).IsWritable depth := by
  simp only [IsWritable]

/-! ## Numbers -/

/-- The decimal digits of a positive number do not start with a zero. -/
theorem exists_first_digit {number : Nat} (positive : 0 < number) :
    ∃ first others, Nat.toDigits 10 number = first :: others ∧ first ≠ '0' := by
  induction number using Nat.strongRecOn with
  | ind number ih =>
      by_cases small : number < 10
      · have nonzero : ∀ digit < 10, 0 < digit → Nat.digitChar digit ≠ '0' := by decide
        exact ⟨_, [], Nat.toDigits_of_lt_base small, nonzero number small positive⟩
      · obtain ⟨first, others, digits, nonzero⟩ := ih (number / 10)
          (Nat.div_lt_self positive (by decide)) (Nat.div_pos (Nat.not_lt.mp small) (by decide))
        refine ⟨first, others ++ [Nat.digitChar (number % 10)], ?_, nonzero⟩
        rw [Nat.toDigits_of_base_le (by decide) (Nat.not_lt.mp small), digits]
        rfl

namespace NumberLiteral

/-- The digits of a number are a whole part, without a zero in front. -/
theorem wholeOf?_toDigits (number : Nat) :
    wholeOf? (Nat.toDigits 10 number) = some (Nat.toDigits 10 number, []) := by
  rcases Nat.eq_zero_or_pos number with rfl | positive
  · rfl
  · obtain ⟨first, others, digits, nonzero⟩ := exists_first_digit positive
    have all : ∀ char ∈ first :: others, char.isDigit := digits ▸ isDigit_of_mem_toDigits
    have rest := @digitsOf_append others []
      (fun char member => all char (List.mem_cons_of_mem first member)) startsWithout_nil
    rw [List.append_nil] at rest
    rw [digits, wholeOf?, if_neg nonzero, if_pos (all first List.mem_cons_self), rest]

/-- Digits have no sign. -/
theorem minusOf_toDigits (number : Nat) :
    minusOf (Nat.toDigits 10 number) = (false, Nat.toDigits 10 number) := by
  unfold minusOf
  split
  · next minus =>
      have digit : '-'.isDigit := isDigit_of_mem_toDigits '-' (minus ▸ List.mem_cons_self)
      exact absurd digit (by decide)
  · rfl

/-- The digits of a number are a number literal without fraction and exponent. -/
theorem read?_toDigits (number : Nat) :
    read? (Nat.toDigits 10 number) = some (⟨false, Nat.toDigits 10 number, none, none⟩, []) := by
  rw [read?, minusOf_toDigits]
  dsimp only
  rw [wholeOf?_toDigits]
  rfl

/-- The digits of a number behind a minus are a number literal with a sign. -/
theorem read?_minus_toDigits (number : Nat) :
    read? ('-' :: Nat.toDigits 10 number) =
      some (⟨true, Nat.toDigits 10 number, none, none⟩, []) := by
  rw [read?, minusOf]
  dsimp only
  rw [wholeOf?_toDigits]
  rfl

/-- A literal without fraction and exponent denotes its number if that is short enough to be read.
-/
theorem value_toDigits {number : Nat} (short : (Nat.toDigits 10 number).length ≤ Numeral.maxDigits)
    (negative : Bool) :
    value ⟨negative, Nat.toDigits 10 number, none, none⟩ =
      .ok (.int (Numeral.signed negative number)) := by
  have size : Numeral.ofDigits (Nat.toDigits 10 number) = .ok number := by
    rw [Numeral.ofDigits, if_neg (Nat.not_lt.mpr short), digitsValue_toDigits]
  simp only [value, Option.isNone_none, and_self, if_true, size]

end NumberLiteral

/-- A short whole number is read back. -/
theorem ScalarText.int {value : Int}
    (short : (Nat.toDigits 10 value.natAbs).length ≤ Numeral.maxDigits) :
    ScalarText (toString value).toList (.int value) := by
  cases value with
  | ofNat number =>
      change ScalarText number.repr.toList (.int number)
      rw [Nat.toList_repr]
      exact .number (NumberLiteral.read?_toDigits number) (NumberLiteral.value_toDigits short false)
  | negSucc number =>
      have written : (toString (Int.negSucc number)).toList =
          '-' :: Nat.toDigits 10 (number + 1) := by
        change ("-" ++ (number + 1).repr).toList = _
        rw [String.toList_append, Nat.toList_repr]
        rfl
      rw [written]
      exact .number (NumberLiteral.read?_minus_toDigits (number + 1))
        (NumberLiteral.value_toDigits short true)

/-! ## Containers -/

/-- Between values a layout puts spacing only. -/
theorem isSpacing_gap (layout : Layout) (level : Nat) : IsSpacing (layout.gap level) := by
  cases layout with
  | inline => exact isSpacing_nil
  | indented width =>
      intro char member
      rcases List.mem_cons.mp member with rfl | blank
      · rfl
      · rw [List.eq_of_mem_replicate blank]
        rfl

/-- After a comma a layout puts spacing only. -/
theorem exists_separator (layout : Layout) (level : Nat) :
    ∃ space, layout.separator level = ',' :: space ∧ IsSpacing space := by
  cases layout with
  | inline => exact ⟨[' '], rfl, by simp [IsSpacing, isSpace]⟩
  | indented width => exact ⟨_, rfl, isSpacing_gap _ level⟩

/-- A name is written as it may be read. -/
theorem nameText_writeString (name : String) :
    NameText (writeString name ++ [':', ' ']) name := by
  have literal : StringLiteral.read [] (name.toList.flatMap writeChar ++ ['"']) = .ok (name, []) :=
    StringLiteral.read_written [] name []
  have space : IsSpacing [' '] := by simp [IsSpacing, isSpace]
  have named := NameText.mk literal isSpacing_nil space
  rw [writeString]
  exact named

section Loops

variable {depth level : Nat} {layout : Layout} {spacing : List Char} (space : IsSpacing spacing)
include space

/-- Items that are each written as they may be read are so together. -/
theorem itemsText_writeItems {items : List Value} (filled : items ≠ [])
    (written : ∀ item ∈ items, Denotes depth (write layout level item) item) :
    ItemsText (Denotes depth) (writeItems layout level items ++ (spacing ++ [']'])) items := by
  induction items with
  | nil => exact absurd rfl filled
  | cons item items ih =>
      have first := written item List.mem_cons_self
      cases items with
      | nil =>
          rw [writeItems]
          exact .last first space
      | cons next items =>
          obtain ⟨blanks, separator, blank⟩ := exists_separator layout level
          have others := ih (List.cons_ne_nil _ _) fun other member =>
            written other (List.mem_cons_of_mem _ member)
          rw [writeItems, separator]
          · simp only [List.append_assoc, List.cons_append]
            exact .more first isSpacing_nil blank others
          · exact List.cons_ne_nil _ _

/-- Entries that are each written as they may be read are so together. -/
theorem entriesText_writeEntries {entries : List (String × Value)} (filled : entries ≠ [])
    (written : ∀ entry ∈ entries, Denotes depth (write layout level entry.2) entry.2) :
    EntriesText (Denotes depth) (writeEntries layout level entries ++ (spacing ++ ['}']))
      entries := by
  induction entries with
  | nil => exact absurd rfl filled
  | cons entry entries ih =>
      have first := written entry List.mem_cons_self
      have named := nameText_writeString entry.1
      cases entries with
      | nil =>
          have last := EntriesText.last named first space
          simpa only [writeEntries, List.append_assoc, List.cons_append, List.nil_append] using last
      | cons next entries =>
          obtain ⟨blanks, separator, blank⟩ := exists_separator layout level
          have others := ih (List.cons_ne_nil _ _) fun other member =>
            written other (List.mem_cons_of_mem _ member)
          have more := EntriesText.more named first isSpacing_nil blank others
          rw [writeEntries, separator]
          · simpa only [List.append_assoc, List.cons_append, List.nil_append] using more
          · exact List.cons_ne_nil _ _

end Loops

/-- What is written for an array denotes it if that holds of its items. -/
theorem denotes_array {layout : Layout} {depth level : Nat} {items : List Value}
    (written : ∀ item ∈ items, Denotes depth (write layout (level + 1) item) item) :
    Denotes (depth + 1) (write layout level (.array items)) (.array items) := by
  cases items with
  | nil => exact .inr (.emptyArray isSpacing_nil)
  | cons item items =>
      have all := itemsText_writeItems (isSpacing_gap layout level) (List.cons_ne_nil _ _) written
      have container := ContainerText.array (isSpacing_gap layout (level + 1)) all
      rw [write]
      simp only [List.append_assoc, List.cons_append]
      exact .inr container

/-- What is written for an object denotes it if that holds of its entries and no name comes twice.
-/
theorem denotes_object {layout : Layout} {depth level : Nat} {entries : List (String × Value)}
    (distinct : (Keyed.keys entries).Nodup)
    (written : ∀ entry ∈ entries, Denotes depth (write layout (level + 1) entry.2) entry.2) :
    Denotes (depth + 1) (write layout level (.object entries)) (.object entries) := by
  cases entries with
  | nil => exact .inr (.emptyObject isSpacing_nil)
  | cons entry entries =>
      have all := entriesText_writeEntries (isSpacing_gap layout level) (List.cons_ne_nil _ _)
        written
      have container := ContainerText.object (isSpacing_gap layout (level + 1)) all
      rw [Keyed.ofPairs_eq_self distinct] at container
      rw [write]
      simp only [List.append_assoc, List.cons_append]
      exact .inr container

/-- What is written for a writable scalar is a token for it. -/
theorem scalarText_write {layout : Layout} {level : Nat} {value : Value}
    (writable : value.IsWritable 0) : ScalarText (write layout level value) value := by
  cases value with
  | null => exact .keyword (by simp [keywords, write])
  | bool value =>
      cases value with
      | true => exact .keyword (by simp [keywords, write])
      | false => exact .keyword (by simp [keywords, write])
  | int value =>
      rw [write]
      exact .int writable
  | float value =>
      rw [write]
      exact writable
  | string text =>
      rw [write]
      exact .string (StringLiteral.read_written [] text [])
  | array items => exact absurd writable id
  | object entries => exact absurd writable id

/-- **A written value is read back**, in either layout and at any level. -/
theorem denotes_write (layout : Layout) {depth level : Nat} {value : Value}
    (writable : value.IsWritable depth) : Denotes depth (write layout level value) value := by
  -- the grammar is built up by depth, and so is the induction, not by the parts of a value
  induction depth generalizing level value with
  | zero => exact scalarText_write writable
  | succ depth ih =>
      cases value with
      | array items => exact denotes_array fun item member => ih (writable item member)
      | object entries =>
          exact denotes_object writable.1 fun entry member => ih (writable.2 entry member)
      | null => exact .inl (scalarText_write writable)
      | bool value => exact .inl (scalarText_write writable)
      | int value => exact .inl (scalarText_write writable)
      | float value => exact .inl (scalarText_write writable)
      | string text => exact .inl (scalarText_write writable)

end LintReport.Json
