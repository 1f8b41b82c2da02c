import LintReport.Proofs.Json.Value
import LintReport.Proofs.Json.RoundTrip

/-! # Values inside values

A value inside one that was read was read itself, from a part of the text
(`Denotes.of_mem_items`, `Denotes.of_get?`), and an array has no more items than its text has
characters (`Denotes.length_items_le`). So what a reader lets through is no more than what a
writer can write: every value that was read is read back from its text
(`Denotes.isWritable`). -/

namespace LintReport.Json

variable {Item : List Char → Value → Prop}

/-- Each item has its token in the text. -/
theorem ItemsText.all {text : List Char} {values : List Value} (items : ItemsText Item text values)
    {value : Value} (member : value ∈ values) : ∃ token, token <:+: text ∧ Item token value := by
  induction items with
  | @last token spacing _ item _ =>
      rw [List.mem_singleton] at member
      exact ⟨token, (List.prefix_append token _).isInfix, member ▸ item⟩
  | @more token before after rest _ _ item _ _ _ ih =>
      rcases List.mem_cons.mp member with rfl | member
      · exact ⟨token, (List.prefix_append token _).isInfix, item⟩
      · obtain ⟨other, inside, held⟩ := ih member
        refine ⟨other, inside.trans ?_, held⟩
        exact ⟨token ++ before ++ ',' :: after, [], by simp⟩

/-- A text has no more items than characters. -/
theorem ItemsText.length_le {text : List Char} {values : List Value}
    (items : ItemsText Item text values) : values.length ≤ text.length := by
  induction items with
  | last _ _ =>
      simp only [List.length_append, List.length_cons, List.length_nil]
      omega
  | more _ _ _ _ ih =>
      simp only [List.length_append, List.length_cons]
      omega

/-- Each entry has the token of its value in the text. -/
theorem EntriesText.all {text : List Char} {pairs : List (String × Value)}
    (entries : EntriesText Item text pairs) {pair : String × Value} (member : pair ∈ pairs) :
    ∃ token, token <:+: text ∧ Item token pair.2 := by
  induction entries with
  | @last label token spacing _ _ _ item _ =>
      rw [List.mem_singleton] at member
      subst member
      exact ⟨token, List.infix_append' label token _, item⟩
  | @more label token before after rest _ _ _ _ item _ _ _ ih =>
      rcases List.mem_cons.mp member with rfl | member
      · exact ⟨token, List.infix_append' label token _, item⟩
      · obtain ⟨other, inside, held⟩ := ih member
        refine ⟨other, inside.trans ?_, held⟩
        exact ⟨label ++ token ++ before ++ ',' :: after, [], by simp⟩

/-! ## What is read can be written -/

/-- A scalar nests nothing. -/
theorem ScalarText.isFlat {token : List Char} {value : Value} (scalar : ScalarText token value) :
    value.isDistinct ∧ value.depth = 0 := by
  cases scalar with
  | string _ => exact ⟨rfl, rfl⟩
  | keyword member =>
      simp only [keywords, List.mem_cons, List.not_mem_nil, or_false, Prod.mk.injEq] at member
      rcases member with ⟨_, rfl⟩ | ⟨_, rfl⟩ | ⟨_, rfl⟩ | ⟨_, rfl⟩ | ⟨_, rfl⟩ | ⟨_, rfl⟩ <;>
        exact ⟨rfl, rfl⟩
  | @number _ literal _ read denotes =>
      unfold NumberLiteral.value at denotes
      split at denotes
      · split at denotes
        · cases denotes
        · rw [Except.ok.injEq] at denotes
          exact denotes ▸ ⟨rfl, rfl⟩
      · rw [Except.ok.injEq] at denotes
        exact denotes ▸ ⟨rfl, rfl⟩

theorem ScalarText.isWritable {token : List Char} {value : Value} (scalar : ScalarText token value)
    (depth : Nat) : value.IsWritable depth := by
  obtain ⟨distinct, flat⟩ := scalar.isFlat
  exact Value.isWritable_iff.mpr ⟨scalar.isSpellable, distinct, flat ▸ Nat.zero_le depth⟩

/-- **What is read can be written**: its whole numbers are short, its names are distinct, and
its containers nest no deeper than the reader allows. -/
theorem Denotes.isWritable {depth : Nat} {token : List Char} {value : Value}
    (denotes : Denotes depth token value) : value.IsWritable depth := by
  induction depth generalizing token value with
  | zero => exact ScalarText.isWritable denotes 0
  | succ depth ih =>
      rcases denotes with scalar | container
      · exact scalar.isWritable (depth + 1)
      · cases container with
        | emptyArray _ => exact fun item member => absurd member List.not_mem_nil
        | array _ items =>
            intro item member
            obtain ⟨token, _, held⟩ := items.all member
            exact ih held
        | emptyObject _ => exact ⟨List.nodup_nil, fun _ member => absurd member List.not_mem_nil⟩
        | object _ entries =>
            refine ⟨Keyed.nodup_keys_ofPairs _, ?_⟩
            intro entry member
            obtain ⟨pair, there, same⟩ := Keyed.exists_of_mem_ofPairs member
            obtain ⟨token, _, held⟩ := entries.all there
            exact same ▸ ih held

/-- What was read has no number that is too long to be spelled out. -/
theorem Denotes.isSpellable {depth : Nat} {token : List Char} {value : Value}
    (denotes : Denotes depth token value) : value.isSpellable :=
  (Value.isWritable_iff.mp denotes.isWritable).1

/-! ## Parts of what can be written -/

namespace Value

variable {depth : Nat}

theorem isWritable_null : null.IsWritable depth := by
  simp only [IsWritable]

theorem isWritable_int {value : Int} : (int value).IsWritable depth ↔ Numeral.IsShort value := by
  simp only [IsWritable, Numeral.IsShort]

theorem isWritable_object {entries : List (String × Value)} :
    (object entries).IsWritable (depth + 1) ↔
      (Keyed.keys entries).Nodup ∧ ∀ entry ∈ entries, entry.2.IsWritable depth := Iff.rfl

/-- An entry of what can be written can be written with a level less. -/
theorem IsWritable.of_get? {value inner : Value} (writable : value.IsWritable (depth + 1))
    {name : String} (found : value.get? name = some inner) : inner.IsWritable depth := by
  cases value with
  | object entries => exact writable.2 _ (Keyed.mem_of_get? found)
  | _ => cases found

/-- An entry, or the null that stands for it, can be written with a level less. -/
theorem IsWritable.getD {value : Value} (writable : value.IsWritable (depth + 1)) (name : String) :
    (value.getD name).IsWritable depth := by
  unfold Value.getD
  cases found : value.get? name with
  | none => exact isWritable_null
  | some inner => exact writable.of_get? found

end Value

/-! ## Parts of what is read -/

section Parts

variable {depth : Nat} {token : List Char}

/-- A value that is no scalar is read from the text of a container. -/
theorem Denotes.container {value : Value} (denotes : Denotes depth token value)
    (deep : value.depth ≠ 0) :
    ∃ inner, depth = inner + 1 ∧ ContainerText (Denotes inner) token value := by
  cases depth with
  | zero => exact absurd (ScalarText.isFlat denotes).2 deep
  | succ depth =>
      rcases denotes with scalar | container
      · exact absurd scalar.isFlat.2 deep
      · exact ⟨depth, rfl, container⟩

/-- Each item of an array has its token in the text. -/
theorem Denotes.of_mem_items {items : List Value} (denotes : Denotes depth token (.array items))
    {item : Value} (member : item ∈ items) : ∃ part, part <:+: token ∧ Denotes depth part item := by
  obtain ⟨inner, rfl, container⟩ := denotes.container (Nat.succ_ne_zero _)
  cases container with
  | emptyArray _ => exact absurd member List.not_mem_nil
  | @array spacing body _ _ held =>
      obtain ⟨part, inside, denotes⟩ := held.all member
      refine ⟨part, inside.trans ?_, denotes.mono (Nat.le_succ inner)⟩
      exact ⟨'[' :: spacing, [], by simp⟩

/-- An array has no more items than its text has characters. -/
theorem Denotes.length_items_le {items : List Value}
    (denotes : Denotes depth token (.array items)) : items.length ≤ token.length := by
  obtain ⟨inner, rfl, container⟩ := denotes.container (Nat.succ_ne_zero _)
  cases container with
  | emptyArray _ => exact Nat.zero_le _
  | array _ held =>
      have := held.length_le
      simp only [List.length_cons, List.length_append]
      omega

/-- Each entry of an object has the token of its value in the text. -/
theorem Denotes.of_get? {value inner : Value} (denotes : Denotes depth token value) {name : String}
    (found : value.get? name = some inner) :
    ∃ part, part <:+: token ∧ Denotes depth part inner := by
  cases value with
  | object entries =>
      obtain ⟨less, rfl, container⟩ := denotes.container (Nat.succ_ne_zero _)
      have present := Keyed.mem_of_get? found
      generalize same : Value.object entries = whole at container
      cases container with
      | emptyObject _ =>
          rw [Value.object.injEq] at same
          exact absurd (same ▸ present) List.not_mem_nil
      | @object spacing body pairs _ held =>
          rw [Value.object.injEq] at same
          obtain ⟨pair, there, rfl⟩ := Keyed.exists_of_mem_ofPairs (same ▸ present)
          obtain ⟨part, inside, denotes⟩ := held.all there
          refine ⟨part, inside.trans ?_, denotes.mono (Nat.le_succ less)⟩
          exact ⟨'\x7b' :: spacing, [], by simp⟩
      | emptyArray _ => cases same
      | array _ _ => cases same
  | _ => cases found

end Parts

end LintReport.Json
