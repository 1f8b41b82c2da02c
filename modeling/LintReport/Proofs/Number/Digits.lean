import LintReport.Number.Numeral
import LintReport.Proofs.Text.Run
import Mathlib.Data.List.Induction
import Mathlib.Tactic.Ring

/-! # Digits and the numbers they denote

A digit of any script is told by the table of digits alone (`of_isDigit`). A run of digits denotes
a number that needs no more digits than the run has (`digitsValue_lt`), so every number that is
read is short enough to be spelled out (`Numeral.isShort_of_read`). The decimal digits of a number
denote that number again (`digitsValue_toDigits`). -/

namespace LintReport.Text

/-- What holds of all ten characters of every run in the table holds of every digit. -/
theorem of_isDigit {kind : Char → Prop}
    (all : ∀ origin ∈ digitZeros, ∀ value < 10, kind (Char.ofNat (origin + value))) {char : Char}
    (digit : isDigit char) : kind char := by
  obtain ⟨value, found⟩ := Option.isSome_iff_exists.mp digit
  obtain ⟨origin, run, _⟩ := Option.map_eq_some_iff.mp found
  have bounds := List.find?_some run
  rw [Bool.and_eq_true, decide_eq_true_eq, decide_eq_true_eq] at bounds
  have known := all origin (List.mem_of_find?_eq_some run) (char.toNat - origin) (by omega)
  rwa [Nat.add_sub_cancel' bounds.1, Char.ofNat_toNat] at known

theorem isBlank_of_isDigit {char : Char} (digit : isDigit char) : isBlank char = false :=
  @of_isDigit (isBlank · = false) (by decide +kernel) char digit

/-- No blank is a digit. -/
theorem isDigit_of_isBlank {char : Char} (blank : isBlank char) : isDigit char = false := by
  cases digit : isDigit char with
  | false => rfl
  | true =>
      rw [isBlank_of_isDigit digit] at blank
      cases blank

/-- A digit is worth less than ten. -/
theorem digitValue?_lt {char : Char} {value : Nat} (known : digitValue? char = some value) :
    value < 10 := by
  simp only [digitValue?, Option.map_eq_some_iff] at known
  obtain ⟨origin, found, rfl⟩ := known
  have inside := List.find?_some found
  simp only [Bool.and_eq_true, decide_eq_true_eq] at inside
  omega

theorem positional_concat (values : List Nat) (value : Nat) :
    positional (values ++ [value]) = 10 * positional values + value := by
  simp [positional]

/-- Digits write less than the power of ten of their number. -/
theorem positional_lt {values : List Nat} (small : ∀ value ∈ values, value < 10) :
    positional values < Nat.pow 10 values.length := by
  induction values using List.reverseRecOn with
  | nil => simp [positional]
  | append_singleton values value ih =>
      have before := ih fun other member => small other (List.mem_append_left _ member)
      have last := small value (by simp)
      rw [positional_concat, List.length_append, List.length_singleton]
      simp only [Nat.pow_eq, Nat.pow_succ] at before ⊢
      omega

/-- A run of digits denotes a number that needs no more digits than the run has. -/
theorem digitsValue_lt (text : List Char) : digitsValue text < 10 ^ text.length := by
  have small : ∀ value ∈ text.filterMap digitValue?, value < 10 := by
    intro value member
    obtain ⟨char, _, known⟩ := List.mem_filterMap.mp member
    exact digitValue?_lt known
  exact Nat.lt_of_lt_of_le (positional_lt small)
    (Nat.pow_le_pow_right (by decide) (List.length_filterMap_le _ _))

/-- The digits of ASCII are ten characters in a row. -/
theorem toNat_of_isDigit {char : Char} (digit : char.isDigit) :
    48 ≤ char.toNat ∧ char.toNat ≤ 57 := by
  simp only [Char.isDigit, Bool.and_eq_true, decide_eq_true_eq] at digit
  exact ⟨UInt32.le_iff_toNat_le.mp digit.1, UInt32.le_iff_toNat_le.mp digit.2⟩

theorem isDigit_of_mem_toDigits {number : Nat} :
    ∀ char ∈ Nat.toDigits 10 number, char.isDigit := by
  intro char member
  exact Nat.isDigit_of_mem_toDigits (by decide) (by decide) member

/-- A digit of ASCII is worth its distance from zero. -/
theorem digitValue?_of_isDigit {char : Char} (digit : char.isDigit) :
    digitValue? char = some (char.toNat - 48) := by
  obtain ⟨low, high⟩ := toNat_of_isDigit digit
  simp [digitValue?, digitZeros, low, Nat.lt_succ_of_le high]

theorem isDigit_of_isDigit {char : Char} (digit : char.isDigit) : isDigit char := by
  rw [isDigit, digitValue?_of_isDigit digit, Option.isSome_some]

/-- On digits of ASCII the value is the usual one. -/
theorem digitsValue_eq_ofDigitChars {text : List Char} (all : ∀ char ∈ text, char.isDigit) :
    digitsValue text = Nat.ofDigitChars 10 text 0 := by
  induction text using List.reverseRecOn with
  | nil => rfl
  | append_singleton text char ih =>
      have digit := all char (by simp)
      have before := ih fun other member => all other (List.mem_append_left _ member)
      simp only [digitsValue, List.filterMap_append, List.filterMap_cons, List.filterMap_nil,
        digitValue?_of_isDigit digit] at before ⊢
      rw [positional_concat, before, Nat.ofDigitChars_append, Nat.ofDigitChars_cons,
        Nat.ofDigitChars_nil]
      rfl

/-- The decimal digits of a number denote that number. -/
theorem digitsValue_toDigits (number : Nat) : digitsValue (Nat.toDigits 10 number) = number := by
  rw [digitsValue_eq_ofDigitChars isDigit_of_mem_toDigits, Nat.ofDigitChars_ten_toDigits]

/-- A zero at the end is a factor of ten. -/
theorem digitsValue_concat_zero (text : List Char) :
    digitsValue (text ++ ['0']) = 10 * digitsValue text := by
  have zero : digitValue? '0' = some 0 := by decide
  rw [digitsValue, List.filterMap_append, List.filterMap_cons, zero, List.filterMap_nil,
    positional_concat, Nat.add_zero, digitsValue]

/-- Zeros at the end are factors of ten. -/
theorem digitsValue_append_zeros (text : List Char) (count : Nat) :
    digitsValue (text ++ List.replicate count '0') = digitsValue text * 10 ^ count := by
  induction count with
  | zero => simp
  | succ count ih =>
      rw [List.replicate_succ', ← List.append_assoc, digitsValue_concat_zero, ih, Nat.pow_succ]
      ring

/-- Zeros in front are worth nothing. -/
theorem digitsValue_zeros_append (count : Nat) (text : List Char) :
    digitsValue (List.replicate count '0' ++ text) = digitsValue text := by
  have zero : digitValue? '0' = some 0 := by decide
  induction count with
  | zero => rfl
  | succ count ih =>
      rw [List.replicate_succ, List.cons_append, ← ih, digitsValue, List.filterMap_cons, zero]
      rfl

end LintReport.Text

namespace LintReport.Numeral

open Text

/-- Whether a whole number has no more digits than a numeral may have. -/
def IsShort (value : Int) : Prop :=
  (Nat.toDigits 10 value.natAbs).length ≤ maxDigits

instance (value : Int) : Decidable (IsShort value) :=
  inferInstanceAs (Decidable (_ ≤ _))

/-- A number is short exactly if it is below the power of ten of the most digits. -/
theorem isShort_iff {value : Int} : IsShort value ↔ value.natAbs < 10 ^ maxDigits :=
  Nat.length_toDigits_le_iff (by decide) (by decide)

theorem IsShort.mono {value other : Int} (short : IsShort value)
    (within : other.natAbs ≤ value.natAbs) : IsShort other :=
  isShort_iff.mpr (Nat.lt_of_le_of_lt within (isShort_iff.mp short))

/-- What is read from digits is short, since longer ones are refused. -/
theorem isShort_of_ofDigits {digits : List Char} {size : Nat} (read : ofDigits digits = .ok size) :
    IsShort size := by
  unfold ofDigits at read
  split at read
  · cases read
  · next few =>
      rw [Except.ok.injEq] at read
      subst read
      exact isShort_iff.mpr <| Nat.lt_of_lt_of_le (digitsValue_lt digits)
        (Nat.pow_le_pow_right (by decide) (Nat.not_lt.mp few))

theorem natAbs_signed (negative : Bool) (size : Nat) : (signed negative size).natAbs = size := by
  cases negative <;> simp [signed]

/-- A number that is read from a numeral can be spelled out. -/
theorem isShort_of_read {text : List Char} {value : Int} (success : read text = .ok value) :
    IsShort value := by
  simp only [read] at success
  split at success
  · cases success
  · split at success
    · cases success
    · next size digits =>
        split at success
        · rw [Except.ok.injEq] at success
          subst success
          exact (isShort_of_ofDigits digits).mono (natAbs_signed _ size).le
        · cases success

end LintReport.Numeral
