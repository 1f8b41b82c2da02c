import LintReport.Json.Reader
import LintReport.Proofs.Text.Run

/-! # The texts of JSON values

Which texts denote which values, told as a grammar without any order of reading. A
*token* is the text of one value without space around it; space stands only between the
tokens of a container. What a token denotes depends on the number of containers that may
nest (`Denotes`), as it does for the reader of that depth. -/

namespace LintReport.Json

open Text

/-- A stretch of the space that may stand between tokens. -/
def IsSpacing (text : List Char) : Prop :=
  ∀ char ∈ text, isSpace char

theorem isBlank_of_isSpace {char : Char} (space : isSpace char) : isBlank char := by
  simp only [isSpace, Bool.or_eq_true, beq_iff_eq, or_assoc] at space
  rcases space with rfl | rfl | rfl | rfl <;> rfl

theorem isSpacing_nil : IsSpacing [] :=
  fun _ member => absurd member List.not_mem_nil

/-- The characters that a value may start with. -/
def opensValue (char : Char) : Bool :=
  char.isDigit || ['"', '[', '{', '-', 'n', 't', 'f', 'N', 'I'].contains char

/-- The tokens of values that hold no others. -/
inductive ScalarText : List Char → Value → Prop where
  | string {body : List Char} {text : String}
      (literal : StringLiteral.read [] body = .ok (text, [])) :
      ScalarText ('"' :: body) (.string text)
  | keyword {word : List Char} {value : Value} (member : (word, value) ∈ keywords) :
      ScalarText word value
  | number {token : List Char} {literal : NumberLiteral} {value : Value}
      (read : NumberLiteral.read? token = some (literal, []))
      (denotes : literal.value = .ok value) : ScalarText token value

/-- The texts of names, with the colon and the space after it. -/
inductive NameText : List Char → String → Prop where
  | mk {body before after : List Char} {name : String}
      (literal : StringLiteral.read [] body = .ok (name, [])) (spaceBefore : IsSpacing before)
      (spaceAfter : IsSpacing after) : NameText ('"' :: (body ++ (before ++ ':' :: after))) name

section Containers

variable (Item : List Char → Value → Prop)

/-- The texts of the items of an array from the first one on, with the bracket that
closes it. -/
inductive ItemsText : List Char → List Value → Prop where
  | last {token spacing : List Char} {value : Value} (item : Item token value)
      (space : IsSpacing spacing) : ItemsText (token ++ (spacing ++ [']'])) [value]
  | more {token before after rest : List Char} {value : Value} {values : List Value}
      (item : Item token value) (spaceBefore : IsSpacing before) (spaceAfter : IsSpacing after)
      (items : ItemsText rest values) :
      ItemsText (token ++ (before ++ ',' :: (after ++ rest))) (value :: values)

/-- The texts of the entries of an object from the first one on, with the brace that
closes it. -/
inductive EntriesText : List Char → List (String × Value) → Prop where
  | last {label token spacing : List Char} {name : String} {value : Value}
      (named : NameText label name) (item : Item token value) (space : IsSpacing spacing) :
      EntriesText (label ++ (token ++ (spacing ++ ['}']))) [(name, value)]
  | more {label token before after rest : List Char} {name : String} {value : Value}
      {entries : List (String × Value)} (named : NameText label name) (item : Item token value)
      (spaceBefore : IsSpacing before) (spaceAfter : IsSpacing after)
      (others : EntriesText rest entries) :
      EntriesText (label ++ (token ++ (before ++ ',' :: (after ++ rest)))) ((name, value) :: entries)

/-- The tokens of arrays and objects. -/
inductive ContainerText : List Char → Value → Prop where
  | emptyArray {spacing : List Char} (space : IsSpacing spacing) :
      ContainerText ('[' :: (spacing ++ [']'])) (.array [])
  | array {spacing body : List Char} {values : List Value} (space : IsSpacing spacing)
      (items : ItemsText Item body values) : ContainerText ('[' :: (spacing ++ body)) (.array values)
  | emptyObject {spacing : List Char} (space : IsSpacing spacing) :
      ContainerText ('{' :: (spacing ++ ['}'])) (.object [])
  | object {spacing body : List Char} {pairs : List (String × Value)} (space : IsSpacing spacing)
      (entries : EntriesText Item body pairs) :
      ContainerText ('{' :: (spacing ++ body)) (.object (Keyed.ofPairs pairs))

end Containers

/-- The tokens of values in which at most `depth` containers nest. -/
def Denotes : (depth : Nat) → List Char → Value → Prop
  | 0, token, value => ScalarText token value
  | depth + 1, token, value => ScalarText token value ∨ ContainerText (Denotes depth) token value

/-- A token for a scalar denotes it at each depth. -/
theorem ScalarText.denotes {token : List Char} {value : Value} (scalar : ScalarText token value)
    (depth : Nat) : Denotes depth token value := by
  cases depth with
  | zero => exact scalar
  | succ depth => exact .inl scalar

variable {Item Other : List Char → Value → Prop}

/-- Items are items where more counts as one. -/
theorem ItemsText.mono {text : List Char} {values : List Value} (items : ItemsText Item text values)
    (wider : ∀ {token value}, Item token value → Other token value) :
    ItemsText Other text values := by
  induction items with
  | last item space => exact .last (wider item) space
  | more item before after _ ih => exact .more (wider item) before after ih

/-- Entries are entries where more counts as a value. -/
theorem EntriesText.mono {text : List Char} {pairs : List (String × Value)}
    (entries : EntriesText Item text pairs)
    (wider : ∀ {token value}, Item token value → Other token value) :
    EntriesText Other text pairs := by
  induction entries with
  | last named item space => exact .last named (wider item) space
  | more named item before after _ ih => exact .more named (wider item) before after ih

/-- A container is one where more counts as its items. -/
theorem ContainerText.mono {token : List Char} {value : Value}
    (container : ContainerText Item token value)
    (wider : ∀ {token value}, Item token value → Other token value) :
    ContainerText Other token value := by
  cases container with
  | emptyArray space => exact .emptyArray space
  | array space items => exact .array space (items.mono wider)
  | emptyObject space => exact .emptyObject space
  | object space entries => exact .object space (entries.mono wider)

/-- A token denotes the same when more containers may nest. -/
theorem Denotes.mono {few many : Nat} (within : few ≤ many) {token : List Char} {value : Value}
    (denotes : Denotes few token value) : Denotes many token value := by
  induction few generalizing many token value with
  | zero => exact ScalarText.denotes denotes many
  | succ few ih =>
      cases many with
      | zero => exact absurd within (Nat.not_succ_le_zero few)
      | succ many =>
          rcases denotes with scalar | container
          · exact .inl scalar
          · exact .inr (container.mono fun inner => ih (Nat.le_of_succ_le_succ within) inner)

theorem NameText.cons {label : List Char} {name : String} (named : NameText label name) :
    ∃ rest, label = '"' :: rest := by
  cases named with
  | mk literal before after => exact ⟨_, rfl⟩

/-- A container opens with a bracket or a brace. -/
theorem ContainerText.cons {token : List Char} {value : Value}
    (container : ContainerText Item token value) :
    ∃ first rest, token = first :: rest ∧ (first = '[' ∨ first = '{') := by
  cases container with
  | emptyArray space => exact ⟨_, _, rfl, .inl rfl⟩
  | array space items => exact ⟨_, _, rfl, .inl rfl⟩
  | emptyObject space => exact ⟨_, _, rfl, .inr rfl⟩
  | object space entries => exact ⟨_, _, rfl, .inr rfl⟩

/-- The text of entries ends with the closing brace. -/
theorem EntriesText.concat {text : List Char} {pairs : List (String × Value)}
    (entries : EntriesText Item text pairs) : ∃ rest, text = rest ++ ['}'] := by
  induction entries with
  | @last label token spacing _ _ _ _ _ =>
      exact ⟨label ++ (token ++ spacing), by simp only [List.append_assoc]⟩
  | @more label token before after _ _ _ _ _ _ _ _ _ ih =>
      obtain ⟨rest, rfl⟩ := ih
      exact ⟨label ++ (token ++ (before ++ ',' :: (after ++ rest))), by
        simp only [List.append_assoc, List.cons_append]⟩

/-- An object stands between braces. -/
theorem ContainerText.braces {token : List Char} {entries : List (String × Value)}
    (container : ContainerText Item token (.object entries)) :
    ∃ inner, token = '{' :: (inner ++ ['}']) := by
  cases container with
  | emptyObject space => exact ⟨_, rfl⟩
  | @object spacing _ _ space entries =>
      obtain ⟨rest, rfl⟩ := entries.concat
      exact ⟨spacing ++ rest, by rw [List.append_assoc]⟩

end LintReport.Json
