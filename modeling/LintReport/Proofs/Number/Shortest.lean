import LintReport.Proofs.Number.Nearest
import Mathlib.Data.Nat.Cast.Order.Field
import Mathlib.Tactic.NormNum

/-! # Shortest decimals

A decimal is read by its value alone, however many zeros its coefficient ends with
(`Binary64.ofDecimal_congr`), and the decimal that a finite number is printed from reads
back as that number (`Binary64.ofDecimal_shortest`). -/

namespace LintReport

namespace Decimal

/-- A decimal is its coefficient times its power of ten. -/
theorem toRat_eq (decimal : Decimal) :
    decimal.toRat = decimal.coefficient * 10 ^ decimal.scale := by
  unfold toRat
  split
  · next up =>
      obtain ⟨power, same⟩ := Int.eq_ofNat_of_zero_le up
      rw [same]
      simp
  · next down =>
      obtain ⟨power, same⟩ : ∃ size : Nat, decimal.scale = -(size : Int) :=
        ⟨(-decimal.scale).toNat, by omega⟩
      rw [same, Rat.mkRat_eq_div]
      simp [div_eq_mul_inv]

theorem toRat_eq_zero_iff {decimal : Decimal} : decimal.toRat = 0 ↔ decimal.coefficient = 0 := by
  simp [toRat_eq, zpow_ne_zero]

/-- A number has the digits that the powers of ten around it say. -/
theorem digits_bounds {number : Nat} (positive : 0 < number) :
    10 ^ ((Nat.toDigits 10 number).length - 1) ≤ number ∧
      number < 10 ^ (Nat.toDigits 10 number).length := by
  have filled : 0 < (Nat.toDigits 10 number).length := Nat.length_toDigits_pos
  refine ⟨?_, (Nat.length_toDigits_le_iff (by decide) filled).mp le_rfl⟩
  by_contra fewer
  rcases Nat.eq_zero_or_pos ((Nat.toDigits 10 number).length - 1) with none | some
  · rw [none] at fewer
    exact fewer positive
  · have := (Nat.length_toDigits_le_iff (by decide) some).mpr (Nat.not_le.mp fewer)
    omega

/-- A decimal other than zero lies between the powers of ten around the place of its
point. -/
theorem pointPlace_spec {decimal : Decimal} (nonzero : decimal.coefficient ≠ 0) :
    (10 : Rat) ^ (decimal.pointPlace - 1) ≤ decimal.toRat ∧
      decimal.toRat < 10 ^ decimal.pointPlace := by
  obtain ⟨least, most⟩ := digits_bounds (Nat.pos_of_ne_zero nonzero)
  have filled : 0 < decimal.digits.length := Nat.length_toDigits_pos
  have scaled : (0 : Rat) < 10 ^ decimal.scale := by positivity
  have lower : (10 : Rat) ^ (decimal.digits.length - 1) ≤ decimal.coefficient := by
    exact_mod_cast least
  have upper : (decimal.coefficient : Rat) < 10 ^ decimal.digits.length := by
    exact_mod_cast most
  have below :
      decimal.pointPlace - 1 = ((decimal.digits.length - 1 : Nat) : Int) + decimal.scale := by
    rw [pointPlace]
    omega
  rw [below, pointPlace, toRat_eq, zpow_add₀ (by norm_num), zpow_add₀ (by norm_num), zpow_natCast,
    zpow_natCast]
  exact ⟨mul_le_mul_of_nonneg_right lower scaled.le, mul_lt_mul_of_pos_right upper scaled⟩

/-- A decimal below a power of ten has its point no farther right than that power says. -/
theorem pointPlace_le {decimal : Decimal} (nonzero : decimal.coefficient ≠ 0) {power : Int}
    (below : decimal.toRat < 10 ^ power) : decimal.pointPlace ≤ power := by
  have least := (pointPlace_spec nonzero).1
  have := (zpow_lt_zpow_iff_right₀ (by norm_num : (1 : Rat) < 10)).mp (least.trans_lt below)
  omega

/-- A decimal from a power of ten on has its point farther right. -/
theorem lt_pointPlace {decimal : Decimal} (nonzero : decimal.coefficient ≠ 0) {power : Int}
    (above : (10 : Rat) ^ power ≤ decimal.toRat) : power < decimal.pointPlace :=
  (zpow_lt_zpow_iff_right₀ (by norm_num : (1 : Rat) < 10)).mp
    (above.trans_lt (pointPlace_spec nonzero).2)

/-- The place of the point depends on the value alone. -/
theorem pointPlace_congr {decimal other : Decimal} (nonzero : decimal.coefficient ≠ 0)
    (same : decimal.toRat = other.toRat) : decimal.pointPlace = other.pointPlace := by
  have filled : other.coefficient ≠ 0 := by
    rwa [Ne, ← toRat_eq_zero_iff, ← same, toRat_eq_zero_iff]
  have first := pointPlace_le nonzero (same ▸ (pointPlace_spec filled).2)
  have second := pointPlace_le filled (same ▸ (pointPlace_spec nonzero).2)
  omega

/-- A zero at the end of the coefficient says nothing about the value. -/
theorem toRat_mul_ten (coefficient : Nat) (scale : Int) :
    toRat ⟨coefficient * 10, scale⟩ = toRat ⟨coefficient, scale + 1⟩ := by
  rw [toRat_eq, toRat_eq, zpow_add₀ (by norm_num)]
  push_cast
  ring

/-- Zeros that are dropped do not change the value. -/
theorem toRat_dropZeros (decimal : Decimal) : decimal.dropZeros.toRat = decimal.toRat := by
  have drop : ∀ steps (decimal : Decimal), (dropZeros.go steps decimal).toRat = decimal.toRat := by
    intro steps
    induction steps with
    | zero => exact fun _ => rfl
    | succ steps ih =>
        intro decimal
        rw [dropZeros.go]
        split
        · next zero =>
            rw [ih, ← toRat_mul_ten, Nat.div_mul_cancel (Nat.dvd_of_mod_eq_zero zero)]
        · rfl
  exact drop _ decimal

end Decimal

namespace Binary64

/-- A decimal is read by its value alone. -/
theorem ofDecimal_congr {decimal other : Decimal} (same : decimal.toRat = other.toRat)
    (negative : Bool) : ofDecimal negative decimal = ofDecimal negative other := by
  have zeros : decimal.coefficient = 0 ↔ other.coefficient = 0 := by
    rw [← Decimal.toRat_eq_zero_iff, same, Decimal.toRat_eq_zero_iff]
  unfold ofDecimal
  by_cases zero : decimal.coefficient = 0
  · rw [if_pos zero, if_pos (zeros.mp zero)]
  · rw [if_neg zero, if_neg (mt zeros.mpr zero), Decimal.pointPlace_congr zero same, same]

variable (exponent : Fin 2047) (fraction : Fin (Nat.pow 2 52))

/-- The finite numbers other than zero lie between these powers of two. -/
theorem size_bounds (nonzero : significand exponent fraction ≠ 0) :
    (2 : Rat) ^ (-1074 : Int) ≤ size exponent fraction ∧
      size exponent fraction < 2 ^ (1024 : Int) := by
  have filled : (1 : Rat) ≤ significand exponent fraction := by
    exact_mod_cast Nat.pos_of_ne_zero nonzero
  have small : (significand exponent fraction : Rat) < 2 ^ (53 : Int) := by
    exact_mod_cast significand_lt exponent fraction
  have least : -1074 ≤ unitPower exponent := by
    unfold unitPower
    omega
  have most : unitPower exponent ≤ 971 := by
    have := exponent.isLt
    unfold unitPower
    omega
  constructor
  · calc (2 : Rat) ^ (-1074 : Int) ≤ 2 ^ unitPower exponent :=
          zpow_le_zpow_right₀ (by norm_num) least
      _ ≤ size exponent fraction := le_mul_of_one_le_left (by positivity) filled
  · calc size exponent fraction < 2 ^ (53 : Int) * 2 ^ unitPower exponent :=
          mul_lt_mul_of_pos_right small (by positivity)
      _ ≤ 2 ^ (53 : Int) * 2 ^ (971 : Int) := by gcongr; norm_num
      _ = 2 ^ (1024 : Int) := by rw [← zpow_add₀ two_ne_zero, show (53 : Int) + 971 = 1024 by rfl]

/-- Three powers of two stay below one power of ten. -/
theorem two_pow_le_ten_pow (power : Nat) : (2 : Rat) ^ (3 * power) ≤ 10 ^ power := by
  rw [pow_mul]
  gcongr
  norm_num

/-- The finite numbers lie between the decimals that are settled by their point alone. -/
theorem size_bounds_ten (nonzero : significand exponent fraction ≠ 0) :
    (10 : Rat) ^ (-401 : Int) ≤ size exponent fraction ∧
      size exponent fraction < 10 ^ (400 : Int) := by
  obtain ⟨least, most⟩ := size_bounds exponent fraction nonzero
  constructor
  · refine le_trans ?_ least
    rw [zpow_neg, zpow_neg]
    gcongr
    calc (2 : Rat) ^ (1074 : Int) ≤ 2 ^ (1203 : Int) := by gcongr <;> norm_num
      _ ≤ 10 ^ (401 : Int) := two_pow_le_ten_pow 401
  · calc size exponent fraction < 2 ^ (1024 : Int) := most
      _ ≤ 2 ^ (1200 : Int) := by gcongr <;> norm_num
      _ ≤ 10 ^ (400 : Int) := two_pow_le_ten_pow 400

/-- A decimal with the size of a finite number is read as this number. -/
theorem ofDecimal_of_toRat_eq_size {decimal : Decimal} (negative : Bool)
    (nonzero : significand exponent fraction ≠ 0)
    (same : decimal.toRat = size exponent fraction) :
    ofDecimal negative decimal = finite negative exponent fraction := by
  obtain ⟨least, most⟩ := size_bounds_ten exponent fraction nonzero
  have positive : decimal.toRat ≠ 0 := by
    rw [same]
    exact (lt_of_lt_of_le (by positivity) least).ne'
  have filled := mt Decimal.toRat_eq_zero_iff.mpr positive
  have low : -401 < decimal.pointPlace :=
    Decimal.lt_pointPlace filled (same ▸ least)
  have high : decimal.pointPlace ≤ 400 :=
    Decimal.pointPlace_le filled (same ▸ most)
  rw [ofDecimal, if_neg filled, if_neg (by omega), if_neg (by omega), same,
    nearest_size exponent fraction negative nonzero]

/-- The denominator of a number is a power of two. -/
theorem quotient_snd : ∃ power, (quotient exponent fraction).2 = 2 ^ power := by
  unfold quotient
  dsimp only
  split
  · exact ⟨0, rfl⟩
  · exact ⟨_, rfl⟩

/-- However many digits the search has tried, what it finds is read back as the float. -/
theorem ofDecimal_shortestFrom (negative : Bool) (nonzero : significand exponent fraction ≠ 0)
    (more count : Nat) :
    ofDecimal negative (shortestFrom (finite negative exponent fraction) negative
      (quotient exponent fraction).1 (quotient exponent fraction).2 more count) =
        finite negative exponent fraction := by
  induction more generalizing count with
  | zero =>
      obtain ⟨power, two⟩ := quotient_snd exponent fraction
      apply ofDecimal_of_toRat_eq_size exponent fraction negative nonzero
      rw [shortestFrom, two, Nat.log2_two_pow, Nat.pow_eq, Decimal.toRat_eq,
        ← quotient_eq_size, two]
      push_cast
      rw [show (10 : Rat) = 5 * 2 by norm_num, mul_zpow, zpow_neg, zpow_neg, zpow_natCast,
        zpow_natCast]
      field_simp
  | succ more ih =>
      rw [shortestFrom]
      dsimp only
      split
      · next near => exact near
      · split
        · next far => exact far
        · exact ih (count + 1)

/-- Only zero has a zero numerator. -/
theorem quotient_fst_eq_zero_iff :
    (quotient exponent fraction).1 = 0 ↔ significand exponent fraction = 0 := by
  have positive : (2 : Rat) ^ unitPower exponent ≠ 0 := zpow_ne_zero _ two_ne_zero
  obtain ⟨power, two⟩ := quotient_snd exponent fraction
  have same := quotient_eq_size exponent fraction
  rw [size, two, div_eq_iff (by positivity)] at same
  constructor
  · intro zero
    simpa [zero, positive] using same.symm
  · intro zero
    simpa [zero] using same

/-- **The shortest decimal of a number reads back as the number.** -/
theorem ofDecimal_shortest (negative : Bool) :
    ofDecimal negative (shortest negative exponent fraction) =
      finite negative exponent fraction := by
  unfold shortest
  dsimp only
  split
  · next zero =>
      have none := (quotient_fst_eq_zero_iff exponent fraction).mp zero
      have fields : exponent.val = 0 ∧ fraction.val = 0 := by
        unfold significand at none
        split at none
        · next lowest => exact ⟨lowest, none⟩
        · exact absurd none (Nat.add_pos_right _ (Nat.two_pow_pos 52)).ne'
      rw [← ofWord_fields, fields.1, fields.2]
      simp [ofDecimal, Binary64.zero]
  · next some =>
      have nonzero := mt (quotient_fst_eq_zero_iff exponent fraction).mpr some
      rw [ofDecimal_congr (Decimal.toRat_dropZeros _),
        ofDecimal_shortestFrom exponent fraction negative nonzero]

/-- A finite number has no more than so many digits before the point. -/
theorem natAbs_truncate?_lt {number : Binary64} {whole : Int} (cut : number.truncate? = some whole)
    {digits : Nat} (enough : 400 ≤ digits) : whole.natAbs < 10 ^ digits := by
  cases number with
  | finite negative exponent fraction =>
      have below : size exponent fraction < 10 ^ (digits : Int) := by
        by_cases zero : significand exponent fraction = 0
        · rw [size, zero, Nat.cast_zero, zero_mul]
          positivity
        · refine lt_of_lt_of_le (size_bounds_ten exponent fraction zero).2 ?_
          exact zpow_le_zpow_right₀ (by norm_num) (by exact_mod_cast enough)
      have least : (((quotient exponent fraction).1 / (quotient exponent fraction).2 : Nat) : Rat) <
          10 ^ (digits : Int) := by
        refine lt_of_le_of_lt Nat.cast_div_le ?_
        rw [quotient_eq_size]
        exact below
      have same :
          whole.natAbs = (quotient exponent fraction).1 / (quotient exponent fraction).2 := by
        rw [truncate?, Option.some.injEq] at cut
        subst cut
        cases negative with
        | true => exact (Int.natAbs_neg _).trans (Int.natAbs_natCast _)
        | false => exact Int.natAbs_natCast _
      rw [same]
      exact_mod_cast least
  | _ => cases cut

end Binary64

end LintReport
