import LintReport.Issue
import LintReport.Proofs.Issue.Grammar
import LintReport.Proofs.Number.Numeral
import Mathlib.Data.Rat.Floor

/-! # Coordinates

A line or a column is reported as a whole number, a floating-point number or a numeral, and it
counts from one (`Ordinal.IsOrdinal`). What is found at its place, if anything, gives a coordinate
that counts from zero, and a default where it does not denote an ordinal
(`Ordinal.isCoordinate_iff`). The digits of a text line denote what their places say
(`Ordinal.ofDigits_sub_one`). -/

namespace LintReport

open Json Text

/-! ## Floating-point numbers -/

namespace Binary64

/-- A rational number without its fractional part. -/
def wholePart (exact : Rat) : Int :=
  if 0 ≤ exact then ⌊exact⌋ else ⌈exact⌉

/-- The whole part is cut towards zero on both sides. -/
theorem wholePart_neg {exact : Rat} (known : 0 ≤ exact) :
    wholePart (-exact) = -wholePart exact := by
  rcases known.eq_or_lt with rfl | positive
  · rfl
  · rw [wholePart, wholePart, if_neg (by simpa using positive), if_pos known, Int.ceil_neg]

/-- The whole part of a quotient is the quotient of natural numbers. -/
theorem wholePart_natCast_div (numerator denominator : Nat) :
    wholePart (numerator / denominator) = (numerator / denominator : Nat) := by
  rw [wholePart, if_pos (by positivity), Rat.floor_natCast_div_natCast]
  rfl

/-- Cutting off the fractional part is a matter of the value alone. -/
theorem truncate?_eq (number : Binary64) : number.truncate? = number.toRat?.map wholePart := by
  cases number with
  | finite negative exponent fraction =>
      have cut :=
        wholePart_natCast_div (quotient exponent fraction).1 (quotient exponent fraction).2
      rw [truncate?, toRat?, Option.map_some, Rat.mkRat_eq_div]
      cases negative with
      | false =>
          dsimp only
          rw [if_neg Bool.false_ne_true, if_neg Bool.false_ne_true, Int.cast_natCast, cut]
      | true =>
          dsimp only
          rw [if_pos rfl, if_pos rfl, Int.cast_neg, Int.cast_natCast, neg_div,
            wholePart_neg (by positivity), cut]
  | _ => rfl

end Binary64

namespace Ordinal

/-! ## Whole numbers -/

/-- Whether a value denotes a whole number. A boolean does not. -/
inductive IsWhole : Value → Int → Prop
  | int (number : Int) : IsWhole (.int number) number
  | float {number : Binary64} {exact : Rat} (finite : number.toRat? = some exact) :
      IsWhole (.float number) (Binary64.wholePart exact)
  | string {text : String} {number : Int} (numeral : Numeral.IsNumeral text.toList number) :
      IsWhole (.string text) number

/-- A whole number is read off a value exactly if the value denotes it. -/
theorem whole?_eq_some_iff {value : Value} {whole : Int} :
    whole? value = some whole ↔ IsWhole value whole := by
  constructor
  · intro denoted
    cases value with
    | int number =>
        rw [whole?, Option.some.injEq] at denoted
        exact denoted ▸ .int number
    | float number =>
        rw [whole?, Binary64.truncate?_eq] at denoted
        obtain ⟨exact, finite, rfl⟩ := Option.map_eq_some_iff.mp denoted
        exact .float finite
    | string text =>
        rw [whole?] at denoted
        cases success : Numeral.read text.toList with
        | ok number =>
            rw [success, Except.toOption, Option.some.injEq] at denoted
            exact denoted ▸ .string (Numeral.read_eq_ok_iff.mp success)
        | error fault =>
            rw [success] at denoted
            cases denoted
    | _ => cases denoted
  · intro whole
    cases whole with
    | int => rfl
    | float finite => rw [whole?, Binary64.truncate?_eq, finite, Option.map_some]
    | string numeral => rw [whole?, Numeral.read_eq_ok_iff.mpr numeral, Except.toOption]

/-- Whether a value is usable as a line or a column that counts from one. -/
structure IsOrdinal (value : Value) (ordinal : Int) : Prop where
  whole : IsWhole value ordinal
  positive : 1 ≤ ordinal

/-- An ordinal is read off a value exactly if the value denotes it. -/
theorem ofValue?_eq_some_iff {value : Value} {ordinal : Int} :
    ofValue? value = some ordinal ↔ IsOrdinal value ordinal := by
  rw [ofValue?, Option.filter_eq_some_iff, whole?_eq_some_iff, decide_eq_true_eq]
  exact ⟨fun ⟨whole, positive⟩ => ⟨whole, positive⟩, fun ⟨whole, positive⟩ => ⟨whole, positive⟩⟩

/-- A positive number is its own ordinal, whatever the default is. -/
theorem ofValue_of_whole? {value : Value} {number : Nat}
    (whole : whole? value = some (number : Int)) (positive : 1 ≤ number) (default : Int) :
    ofValue value default = number := by
  have kept : ofValue? value = some (number : Int) := by
    rw [ofValue?, whole, Option.filter_some]
    exact if_pos (decide_eq_true (Int.ofNat_le.mpr positive))
  rw [ofValue, kept, Option.getD_some]

/-! ## Coordinates -/

/-- Whether a coordinate that counts from zero is the one that what was found stands for. -/
inductive IsCoordinate (found : Option Value) (default : Int) : Int → Prop
  | given {value : Value} {ordinal : Int} (present : found = some value)
      (usable : IsOrdinal value ordinal) : IsCoordinate found default (ordinal - 1)
  | missing (unusable : ∀ value ∈ found, ∀ ordinal, ¬ IsOrdinal value ordinal) :
      IsCoordinate found default default

/-- A coordinate is one less than the ordinal of its field, or its default. -/
theorem isCoordinate_iff {found : Option Value} {default coordinate : Int} :
    IsCoordinate found default coordinate ↔
      coordinate = ofValue (found.getD .null) (default + 1) - 1 := by
  have exactly : ∀ {ordinal}, ofValue? (found.getD .null) = some ordinal ↔
      ∃ value, found = some value ∧ IsOrdinal value ordinal := by
    intro ordinal
    rw [ofValue?_eq_some_iff]
    cases found with
    | none =>
        constructor
        · rintro ⟨whole, _⟩
          cases whole
        · rintro ⟨_, absent, _⟩
          cases absent
    | some value => simp
  rw [ofValue]
  constructor
  · intro stands
    cases stands with
    | given present usable => rw [exactly.mpr ⟨_, present, usable⟩, Option.getD_some]
    | missing unusable =>
        have none : ofValue? (found.getD .null) = none := by
          apply Option.eq_none_iff_forall_ne_some.mpr
          intro ordinal denoted
          obtain ⟨value, present, usable⟩ := exactly.mp denoted
          exact unusable value present ordinal usable
        rw [none, Option.getD_none, Int.add_sub_cancel]
  · rintro rfl
    cases denoted : ofValue? (found.getD .null) with
    | some ordinal =>
        obtain ⟨value, present, usable⟩ := exactly.mp denoted
        exact .given present usable
    | none =>
        rw [Option.getD_none, Int.add_sub_cancel]
        refine .missing fun value present ordinal usable => ?_
        rw [exactly.mpr ⟨value, present, usable⟩] at denoted
        cases denoted

/-! ## Digits -/

/-- The coordinate that a run of digits stands for, the first one for zero and for too many
digits. -/
def coordinate (digits : List Char) : Int :=
  if digits.length ≤ Numeral.maxDigits then ((digitsValue digits - 1 : Nat) : Int) else 0

/-- Digits denote their number as long as they are few enough to be read. -/
theorem whole?_digits {digits : List Char} (number : TextLine.IsNumber digits) :
    whole? (.string (String.ofList digits)) =
      if digits.length ≤ Numeral.maxDigits then some (digitsValue digits : Int) else none := by
  obtain ⟨filled, all⟩ := number
  rw [whole?, String.toList_ofList]
  split
  · next short => rw [Numeral.read_digits all filled short, Except.toOption]
  · next long =>
      cases success : Numeral.read digits with
      | error fault => rfl
      | ok value =>
          have few := (Numeral.read_eq_ok_iff.mp success).length_digits_le
          rw [List.filter_eq_self.mpr all] at few
          exact absurd few long

/-- The coordinate of digits is one less than their ordinal. -/
theorem ofDigits_sub_one {digits : List Char} (number : TextLine.IsNumber digits) :
    ofDigits digits - 1 = coordinate digits := by
  have whole := whole?_digits number
  rw [coordinate]
  split at whole
  · next short =>
      rw [if_pos short]
      by_cases positive : 1 ≤ digitsValue digits
      · rw [ofDigits, ofValue_of_whole? whole positive]
        omega
      · have zero : digitsValue digits = 0 := by omega
        rw [ofDigits, ofValue, ofValue?, whole, zero]
        rfl
  · next long =>
      rw [if_neg long, ofDigits, ofValue, ofValue?, whole]
      rfl

end Ordinal

end LintReport
