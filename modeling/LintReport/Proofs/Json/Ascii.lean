import LintReport.Proofs.Json.RoundTrip

/-! # The characters of written values

A value is written with the visible characters of ASCII alone, but for the line breaks that
its layout puts between items (`Layout.uses_of_mem_write`). So no text inside a value can
break a line of what is written, and all of it is ASCII. -/

namespace LintReport.Json

/-- Whether a character is the blank or a graphic character of ASCII. -/
def isVisible (char : Char) : Bool :=
  0x20 ≤ char.toNat && char.toNat ≤ 0x7E

/-! ## Scalars -/

/-- Hexadecimal digits are visible. -/
theorem isVisible_of_mem_toDigits {number : Nat} :
    ∀ char ∈ Nat.toDigits 16 number, isVisible char := by
  have digits : ∀ digit < 16, isVisible (Nat.digitChar digit) := by decide
  induction number using Nat.strongRecOn with
  | ind number ih =>
      intro char member
      by_cases small : number < 16
      · rw [Nat.toDigits_of_lt_base small, List.mem_singleton] at member
        exact member ▸ digits number small
      · rw [Nat.toDigits_of_base_le (by decide) (Nat.not_lt.mp small)] at member
        rcases List.mem_append.mp member with before | last
        · exact ih (number / 16) (by omega) char before
        · exact List.mem_singleton.mp last ▸ digits _ (Nat.mod_lt number (by decide))

/-- An escape is visible. -/
theorem isVisible_of_mem_unitEscape {unit : Nat} : ∀ char ∈ unitEscape unit, isVisible char := by
  rw [unitEscape, Text.hexadecimal]
  refine List.forall_mem_cons.mpr ⟨rfl, List.forall_mem_cons.mpr ⟨rfl, ?_⟩⟩
  refine List.forall_mem_append.mpr ⟨?_, isVisible_of_mem_toDigits⟩
  intro char member
  exact List.eq_of_mem_replicate member ▸ rfl

/-- A character is written visibly, outside ASCII by its escape. -/
theorem isVisible_of_mem_writeChar (char : Char) : ∀ shown ∈ writeChar char, isVisible shown := by
  rw [writeChar]
  split
  · next mark => rcases mark with rfl | rfl <;> exact List.all_eq_true.mp rfl
  split
  · exact List.all_eq_true.mp rfl
  split
  · exact List.all_eq_true.mp rfl
  split
  · exact List.all_eq_true.mp rfl
  split
  · exact List.all_eq_true.mp rfl
  split
  · exact List.all_eq_true.mp rfl
  split
  · next graphic =>
      intro shown member
      rw [List.mem_singleton.mp member, isVisible, Bool.and_eq_true, decide_eq_true_eq,
        decide_eq_true_eq]
      exact graphic
  split
  · exact isVisible_of_mem_unitEscape
  · exact List.forall_mem_append.mpr ⟨isVisible_of_mem_unitEscape, isVisible_of_mem_unitEscape⟩

/-- A string is written visibly. -/
theorem isVisible_of_mem_writeString (text : String) :
    ∀ char ∈ writeString text, isVisible char := by
  rw [writeString]
  refine List.forall_mem_append.mpr ⟨List.forall_mem_cons.mpr ⟨rfl, ?_⟩, List.all_eq_true.mp rfl⟩
  intro char member
  obtain ⟨source, _, shown⟩ := List.mem_flatMap.mp member
  exact isVisible_of_mem_writeChar source char shown

theorem isVisible_of_isDigit {char : Char} (digit : char.isDigit) : isVisible char := by
  obtain ⟨low, high⟩ := Text.toNat_of_isDigit digit
  rw [isVisible, Bool.and_eq_true, decide_eq_true_eq, decide_eq_true_eq]
  omega

/-- A whole number is written visibly. -/
theorem isVisible_of_mem_int (value : Int) : ∀ char ∈ (toString value).toList, isVisible char := by
  have digits : ∀ number : Nat, ∀ char ∈ number.repr.toList, isVisible char := by
    intro number char member
    rw [Nat.toList_repr] at member
    exact isVisible_of_isDigit (Text.isDigit_of_mem_toDigits char member)
  cases value with
  | ofNat number => exact digits number
  | negSucc number =>
      change ∀ char ∈ ("-" ++ (number + 1).repr).toList, isVisible char
      rw [String.toList_append]
      exact List.forall_mem_append.mpr ⟨List.all_eq_true.mp rfl, digits (number + 1)⟩

/-- A number is written visibly. -/
theorem NumberLiteral.isVisible_of_isPart {char : Char} (part : isPart char) :
    isVisible char := by
  rw [isPart, Bool.or_eq_true] at part
  rcases part with digit | mark
  · exact isVisible_of_isDigit digit
  · simp only [List.contains_eq_mem, decide_eq_true_eq, List.mem_cons, List.not_mem_nil,
      or_false] at mark
    rcases mark with rfl | rfl | rfl | rfl | rfl <;> rfl

/-- A number is read from visible characters, and so it is written with these. -/
theorem isVisible_of_mem_float (value : Binary64) :
    ∀ char ∈ value.text floatWords, isVisible char := by
  generalize written : value.text floatWords = token
  have scalar : ScalarText token (.float value) := written ▸ .float value
  cases scalar with
  | keyword member =>
      have words : keywords.all fun keyword => keyword.1.all isVisible := by decide
      exact List.all_eq_true.mp (List.all_eq_true.mp words _ member)
  | number read _ =>
      intro char inside
      by_contra hidden
      have foreign : NumberLiteral.isPart char = false :=
        Bool.eq_false_of_not_eq_true fun part => hidden (NumberLiteral.isVisible_of_isPart part)
      exact absurd (NumberLiteral.mem_read? foreign read inside) List.not_mem_nil

/-! ## Containers -/

/-- Whether a layout writes with a character: a visible one, or one between items. -/
def Layout.Uses (layout : Layout) (char : Char) : Prop :=
  isVisible char ∨ ∃ level, char ∈ layout.gap level

namespace Layout

variable {layout : Layout} {level : Nat}

theorem uses_of_isVisible {text : List Char} (visible : ∀ char ∈ text, isVisible char) :
    ∀ char ∈ text, layout.Uses char :=
  fun char member => .inl (visible char member)

theorem uses_of_mem_gap : ∀ char ∈ layout.gap level, layout.Uses char :=
  fun _ member => .inr ⟨level, member⟩

theorem uses_of_mem_separator : ∀ char ∈ layout.separator level, layout.Uses char := by
  cases layout with
  | inline => exact @uses_of_isVisible .inline [',', ' '] (List.all_eq_true.mp rfl)
  | indented width => exact List.forall_mem_cons.mpr ⟨.inl rfl, uses_of_mem_gap⟩

theorem uses_of_mem_name (name : String) : ∀ char ∈ writeString name, layout.Uses char :=
  uses_of_isVisible (isVisible_of_mem_writeString name)

mutual

/-- **What a value is written with**: visible characters, and those between items. -/
theorem uses_of_mem_write {layout : Layout} {level : Nat} :
    (value : Value) → ∀ char ∈ write layout level value, layout.Uses char
  | .null => @uses_of_isVisible layout "null".toList (List.all_eq_true.mp rfl)
  | .bool true => @uses_of_isVisible layout "true".toList (List.all_eq_true.mp rfl)
  | .bool false => @uses_of_isVisible layout "false".toList (List.all_eq_true.mp rfl)
  | .int value => uses_of_isVisible (isVisible_of_mem_int value)
  | .float value => uses_of_isVisible (isVisible_of_mem_float value)
  | .string text => uses_of_mem_name text
  | .array [] => @uses_of_isVisible layout ['[', ']'] (List.all_eq_true.mp rfl)
  | .array (item :: items) => by
      have inner := @uses_of_mem_writeItems layout (level + 1) (item :: items)
      rw [write]
      simp only [List.forall_mem_cons, List.forall_mem_append]
      exact ⟨⟨⟨⟨.inl rfl, uses_of_mem_gap⟩, inner⟩, uses_of_mem_gap⟩, .inl rfl, by simp⟩
  | .object [] => @uses_of_isVisible layout ['\x7b', '\x7d'] (List.all_eq_true.mp rfl)
  | .object (entry :: entries) => by
      have inner := @uses_of_mem_writeEntries layout (level + 1) (entry :: entries)
      rw [write]
      simp only [List.forall_mem_cons, List.forall_mem_append]
      exact ⟨⟨⟨⟨.inl rfl, uses_of_mem_gap⟩, inner⟩, uses_of_mem_gap⟩, .inl rfl, by simp⟩

/-- Items are written in characters of the layout. -/
theorem uses_of_mem_writeItems {layout : Layout} {level : Nat} :
    (items : List Value) → ∀ char ∈ writeItems layout level items, layout.Uses char
  | [] => fun _ member => absurd member List.not_mem_nil
  | [item] => by
      rw [writeItems]
      exact uses_of_mem_write item
  | item :: next :: items => by
      rw [writeItems]
      · simp only [List.forall_mem_append]
        exact ⟨⟨uses_of_mem_write item, uses_of_mem_separator⟩,
          uses_of_mem_writeItems (next :: items)⟩
      · exact List.cons_ne_nil _ _

/-- Entries are written in characters of the layout. -/
theorem uses_of_mem_writeEntries {layout : Layout} {level : Nat} :
    (entries : List (String × Value)) →
      ∀ char ∈ writeEntries layout level entries, layout.Uses char
  | [] => fun _ member => absurd member List.not_mem_nil
  | [(name, value)] => by
      rw [writeEntries]
      simp only [List.forall_mem_cons, List.forall_mem_append]
      exact ⟨uses_of_mem_name name, .inl rfl, .inl rfl, uses_of_mem_write value⟩
  | (name, value) :: next :: entries => by
      rw [writeEntries]
      · simp only [List.forall_mem_cons, List.forall_mem_append]
        exact ⟨⟨⟨uses_of_mem_name name, .inl rfl, .inl rfl, uses_of_mem_write value⟩,
          uses_of_mem_separator⟩, uses_of_mem_writeEntries (next :: entries)⟩
      · exact List.cons_ne_nil _ _

end

/-- Whatever a layout writes with is ASCII. -/
theorem Uses.toNat_lt {char : Char} (uses : layout.Uses char) : char.toNat < 128 := by
  rcases uses with visible | ⟨level, between⟩
  · rw [isVisible, Bool.and_eq_true, decide_eq_true_eq, decide_eq_true_eq] at visible
    omega
  · cases layout with
    | inline => exact absurd between List.not_mem_nil
    | indented width =>
        rcases List.mem_cons.mp between with rfl | blank
        · decide
        · exact List.eq_of_mem_replicate blank ▸ by decide

/-- On one line there is nothing between items, and so nothing but visible characters. -/
theorem Uses.isVisible {char : Char} (uses : inline.Uses char) : isVisible char := by
  rcases uses with visible | ⟨level, between⟩
  · exact visible
  · exact absurd between List.not_mem_nil

end Layout

/-- A value is written on one line. -/
theorem isVisible_of_mem_print (value : Value) :
    ∀ char ∈ (value.print .inline).toList, isVisible char := by
  intro char member
  rw [Value.print, String.toList_ofList] at member
  exact (Layout.uses_of_mem_write value char member).isVisible

/-- An object that holds something ends with its brace. -/
theorem exists_write_object (layout : Layout) (level : Nat) (entry : String × Value)
    (entries : List (String × Value)) :
    ∃ inner, write layout level (.object (entry :: entries)) = inner ++ ['\x7d'] := by
  rw [write]
  exact ⟨_, rfl⟩

end LintReport.Json
