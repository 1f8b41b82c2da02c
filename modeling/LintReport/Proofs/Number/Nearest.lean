import LintReport.Number.Binary64
import Mathlib.Algebra.Order.Field.Power
import Mathlib.Data.Rat.Lemmas
import Mathlib.Tactic.FieldSimp
import Mathlib.Tactic.GCongr
import Mathlib.Tactic.Linarith
import Mathlib.Tactic.Positivity
import Mathlib.Tactic.Ring

/-! # Nearest numbers

The size of a finite number is a significand times a power of two, its unit. The number
nearest to that size is the number itself (`Binary64.nearest_size`), because the unit is
found again from the size and nothing is left to round. -/

namespace LintReport.Binary64

/-! ## Quotients -/

/-- A quotient in which nothing is left over is not rounded. -/
theorem roundQuotient_mul {denominator : Nat} (positive : 0 < denominator) (whole : Nat) :
    roundQuotient (whole * denominator) denominator = whole := by
  simp [roundQuotient, Nat.mul_div_cancel _ positive, positive]

/-- A quotient of whole numbers is at least a power of two exactly if it is so without
fractions. -/
theorem two_zpow_le_iff (numerator : Nat) {denominator : Nat} (positive : 0 < denominator)
    (power : Int) :
    (if 0 ≤ power then denominator * Nat.pow 2 power.toNat ≤ numerator
      else denominator ≤ numerator * Nat.pow 2 (-power).toNat) ↔
      (2 : Rat) ^ power ≤ numerator / denominator := by
  have nonzero : (0 : Rat) < denominator := by exact_mod_cast positive
  rw [le_div_iff₀ nonzero]
  split
  · next up =>
      obtain ⟨power, rfl⟩ := Int.eq_ofNat_of_zero_le up
      rw [Int.toNat_natCast, Nat.pow_eq, zpow_natCast, mul_comm]
      exact_mod_cast Iff.rfl
  · next down =>
      obtain ⟨power, rfl⟩ : ∃ size : Nat, power = -(size : Int) :=
        ⟨(-power).toNat, by omega⟩
      rw [neg_neg, Int.toNat_natCast, Nat.pow_eq, zpow_neg, zpow_natCast, inv_mul_le_iff₀
        (by positivity), mul_comm]
      exact_mod_cast Iff.rfl

/-- Numbers between powers of two have a quotient between powers of two. -/
theorem quotient_bounds {numerator denominator : Nat} (up : 0 < numerator)
    (down : 0 < denominator) :
    (2 : Rat) ^ ((numerator.log2 : Int) - denominator.log2 - 1) ≤ numerator / denominator ∧
      (numerator : Rat) / denominator < 2 ^ ((numerator.log2 : Int) - denominator.log2 + 1) := by
  have nonzero : (0 : Rat) < denominator := by exact_mod_cast down
  have least : (2 : Rat) ^ numerator.log2 ≤ numerator := by
    exact_mod_cast Nat.log2_self_le up.ne'
  have most : (numerator : Rat) < 2 ^ (numerator.log2 + 1) := by
    exact_mod_cast Nat.lt_log2_self
  have small : (2 : Rat) ^ denominator.log2 ≤ denominator := by
    exact_mod_cast Nat.log2_self_le down.ne'
  have large : (denominator : Rat) < 2 ^ (denominator.log2 + 1) := by
    exact_mod_cast Nat.lt_log2_self
  constructor
  · rw [le_div_iff₀ nonzero]
    calc (2 : Rat) ^ ((numerator.log2 : Int) - denominator.log2 - 1) * denominator
        ≤ 2 ^ ((numerator.log2 : Int) - denominator.log2 - 1) * 2 ^ (denominator.log2 + 1) := by
          gcongr
      _ = 2 ^ numerator.log2 := by
          rw [← zpow_natCast, ← zpow_natCast, ← zpow_add₀ two_ne_zero]
          congr 1
          push_cast
          ring
      _ ≤ numerator := least
  · rw [div_lt_iff₀ nonzero]
    calc (numerator : Rat) < 2 ^ (numerator.log2 + 1) := most
      _ = 2 ^ ((numerator.log2 : Int) - denominator.log2 + 1) * 2 ^ denominator.log2 := by
          rw [← zpow_natCast, ← zpow_natCast, ← zpow_add₀ two_ne_zero]
          congr 1
          push_cast
          ring
      _ ≤ 2 ^ ((numerator.log2 : Int) - denominator.log2 + 1) * denominator := by gcongr

/-- A quotient lies between the power of two that is found for it and the next one. -/
theorem quotientLog2_spec {numerator denominator : Nat} (up : 0 < numerator)
    (down : 0 < denominator) :
    (2 : Rat) ^ quotientLog2 numerator denominator ≤ numerator / denominator ∧
      (numerator : Rat) / denominator < 2 ^ (quotientLog2 numerator denominator + 1) := by
  obtain ⟨least, most⟩ := quotient_bounds up down
  have reached := two_zpow_le_iff numerator down ((numerator.log2 : Int) - denominator.log2)
  unfold quotientLog2
  dsimp only
  by_cases enough : (2 : Rat) ^ ((numerator.log2 : Int) - denominator.log2) ≤
      numerator / denominator
  · rw [if_pos (reached.mpr enough)]
    exact ⟨enough, most⟩
  · rw [if_neg (mt reached.mp enough), sub_add_cancel]
    exact ⟨least, lt_of_not_ge enough⟩

/-- A quotient between two neighbouring powers of two has the lower one as its logarithm. -/
theorem quotientLog2_eq {numerator denominator : Nat} (up : 0 < numerator)
    (down : 0 < denominator) {power : Int} (above : (2 : Rat) ^ power ≤ numerator / denominator)
    (below : (numerator : Rat) / denominator < 2 ^ (power + 1)) :
    quotientLog2 numerator denominator = power := by
  obtain ⟨least, most⟩ := quotientLog2_spec up down
  have first := (zpow_lt_zpow_iff_right₀ (by norm_num : (1 : Rat) < 2)).mp (least.trans_lt below)
  have second := (zpow_lt_zpow_iff_right₀ (by norm_num : (1 : Rat) < 2)).mp (above.trans_lt most)
  omega

/-- A quotient below a power of two has a smaller logarithm. -/
theorem quotientLog2_lt {numerator denominator : Nat} (up : 0 < numerator)
    (down : 0 < denominator) {power : Int} (below : (numerator : Rat) / denominator < 2 ^ power) :
    quotientLog2 numerator denominator < power :=
  (zpow_lt_zpow_iff_right₀ (by norm_num : (1 : Rat) < 2)).mp
    ((quotientLog2_spec up down).1.trans_lt below)

/-! ## Sizes -/

/-- The significand of a finite number. -/
def significand (exponent : Fin 2047) (fraction : Fin (Nat.pow 2 52)) : Nat :=
  if exponent.val = 0 then fraction.val else fraction.val + Nat.pow 2 52

/-- The power of two that the significand of a finite number counts. -/
def unitPower (exponent : Fin 2047) : Int :=
  (max exponent.val 1 : Nat) - 1075

/-- The size of a finite number. -/
def size (exponent : Fin 2047) (fraction : Fin (Nat.pow 2 52)) : Rat :=
  significand exponent fraction * 2 ^ unitPower exponent

variable (exponent : Fin 2047) (fraction : Fin (Nat.pow 2 52))

/-- The quotient of a float is its size. -/
theorem quotient_eq_size :
    ((quotient exponent fraction).1 : Rat) / (quotient exponent fraction).2 =
      size exponent fraction := by
  have parts : quotient exponent fraction =
      if 0 ≤ unitPower exponent then
        (significand exponent fraction * Nat.pow 2 (unitPower exponent).toNat, 1)
      else (significand exponent fraction, Nat.pow 2 (-unitPower exponent).toNat) := rfl
  rw [parts, size]
  split
  · next up =>
      obtain ⟨power, same⟩ := Int.eq_ofNat_of_zero_le up
      rw [same]
      simp
  · next down =>
      obtain ⟨power, same⟩ : ∃ size : Nat, unitPower exponent = -(size : Int) :=
        ⟨(-unitPower exponent).toNat, by omega⟩
      rw [same]
      simp [div_eq_mul_inv]

theorem natAbs_num_div_den {value : Rat} (positive : 0 < value) :
    (value.num.natAbs : Rat) / value.den = value := by
  rw [Nat.cast_natAbs, abs_of_nonneg (Rat.num_nonneg.mpr positive.le), Rat.num_div_den]

/-- The unit of a number is found again from its size. -/
theorem unit_of_significand {significand numerator denominator : Nat} {power : Int}
    (up : 0 < numerator) (down : 0 < denominator)
    (same : (numerator : Rat) / denominator = significand * 2 ^ power)
    (small : significand < 2 ^ 53) (least : -1074 ≤ power)
    (normal : 2 ^ 52 ≤ significand ∨ power = -1074) :
    max (-1074) (quotientLog2 numerator denominator - 52) = power := by
  have bounded : (significand : Rat) < 2 ^ 53 := by exact_mod_cast small
  have positive : (0 : Rat) < 2 ^ power := by positivity
  have top : (numerator : Rat) / denominator < 2 ^ (52 + power + 1) := by
    rw [same, show (52 : Int) + power + 1 = 53 + power by ring, zpow_add₀ two_ne_zero]
    exact mul_lt_mul_of_pos_right (by exact_mod_cast small) positive
  by_cases large : 2 ^ 52 ≤ significand
  · have bottom : (2 : Rat) ^ (52 + power) ≤ numerator / denominator := by
      rw [same, zpow_add₀ two_ne_zero]
      exact mul_le_mul_of_nonneg_right (by exact_mod_cast large) positive.le
    rw [quotientLog2_eq up down bottom top]
    omega
  · obtain rfl := normal.resolve_left large
    have lower := quotientLog2_lt up down top
    omega

/-- The number that a significand and a unit make is found again from its size. -/
theorem nearest_of_significand (negative : Bool) {significand : Nat} {power : Int}
    (positive : 0 < significand) (small : significand < 2 ^ 53) (least : -1074 ≤ power)
    (normal : 2 ^ 52 ≤ significand ∨ power = -1074) :
    nearest negative (significand * 2 ^ power) =
      ofWord negative ((power + 1074).toNat * Nat.pow 2 52 + significand) := by
  have filled : (0 : Rat) < significand * 2 ^ power := by positivity
  generalize value : (significand : Rat) * 2 ^ power = size at filled
  have same : (size.num.natAbs : Rat) / size.den = significand * 2 ^ power := by
    rw [natAbs_num_div_den filled, value]
  have up : 0 < size.num.natAbs := Int.natAbs_pos.mpr (Rat.num_pos.mpr filled).ne'
  have nonzero : (size.den : Rat) ≠ 0 := by exact_mod_cast size.den_ne_zero
  have unit := unit_of_significand up size.den_pos same small least normal
  rw [nearest, if_neg up.ne', unit]
  dsimp only
  congr 2
  rw [div_eq_iff nonzero] at same
  split
  · next above =>
      obtain ⟨power, rfl⟩ := Int.eq_ofNat_of_zero_le above
      have whole : size.num.natAbs = significand * (size.den * 2 ^ power) := by
        rw [zpow_natCast] at same
        have exact : (size.num.natAbs : Rat) = significand * (size.den * 2 ^ power) := by
          rw [same]
          ring
        exact_mod_cast exact
      rw [Int.toNat_natCast, Nat.pow_eq, whole]
      exact roundQuotient_mul (Nat.mul_pos size.den_pos (Nat.two_pow_pos power)) significand
  · next below =>
      obtain ⟨power, rfl⟩ : ∃ size : Nat, power = -(size : Int) := ⟨(-power).toNat, by omega⟩
      have whole : size.num.natAbs * 2 ^ power = significand * size.den := by
        rw [zpow_neg, zpow_natCast] at same
        have exact : (size.num.natAbs : Rat) * 2 ^ power = significand * size.den := by
          rw [same]
          field_simp
        exact_mod_cast exact
      rw [neg_neg, Int.toNat_natCast, Nat.pow_eq, whole]
      exact roundQuotient_mul size.den_pos significand

/-- The fields of a float side by side are its significand, shifted by its exponent. -/
theorem word_eq :
    (unitPower exponent + 1074).toNat * Nat.pow 2 52 + significand exponent fraction =
      exponent.val * Nat.pow 2 52 + fraction.val := by
  unfold unitPower significand
  split
  · next zero => simp [zero]
  · next positive =>
      obtain ⟨power, same⟩ := Nat.exists_eq_succ_of_ne_zero positive
      have found : (((max exponent.val 1 : Nat) : Int) - 1075 + 1074).toNat = power := by omega
      rw [found, same, Nat.succ_mul]
      omega

/-- The fields of a finite number are found again in its word. -/
theorem ofWord_fields (negative : Bool) :
    ofWord negative (exponent.val * Nat.pow 2 52 + fraction.val) =
      finite negative exponent fraction := by
  have positive : 0 < Nat.pow 2 52 := Nat.two_pow_pos 52
  have high : (exponent.val * Nat.pow 2 52 + fraction.val) / Nat.pow 2 52 = exponent.val := by
    rw [Nat.add_comm, Nat.add_mul_div_right _ _ positive, Nat.div_eq_of_lt fraction.isLt,
      Nat.zero_add]
  have low : (exponent.val * Nat.pow 2 52 + fraction.val) % Nat.pow 2 52 = fraction.val := by
    rw [Nat.add_comm, Nat.add_mul_mod_self_right, Nat.mod_eq_of_lt fraction.isLt]
  have small : (exponent.val * Nat.pow 2 52 + fraction.val) / Nat.pow 2 52 < 2047 := by
    rw [high]
    exact exponent.isLt
  rw [ofWord, dif_pos small]
  simp only [high, low]

/-- A significand has at most 53 bits. -/
theorem significand_lt : significand exponent fraction < 2 ^ 53 := by
  have within := fraction.isLt
  unfold significand
  split <;> simp only [Nat.pow_eq] at within ⊢ <;> omega

/-- **A finite number is the nearest one to its own size.** -/
theorem nearest_size (negative : Bool) (nonzero : significand exponent fraction ≠ 0) :
    nearest negative (size exponent fraction) = finite negative exponent fraction := by
  have least : -1074 ≤ unitPower exponent := by
    unfold unitPower
    omega
  have normal : 2 ^ 52 ≤ significand exponent fraction ∨ unitPower exponent = -1074 := by
    by_cases zero : exponent.val = 0
    · right
      simp [unitPower, zero]
    · left
      rw [significand, if_neg zero]
      exact Nat.le_add_left (Nat.pow 2 52) fraction.val
  rw [size, nearest_of_significand negative (Nat.pos_of_ne_zero nonzero)
    (significand_lt exponent fraction) least normal, word_eq, ofWord_fields]

/-! ## Bounds -/

/-- What is at most a whole number is not rounded above it. -/
theorem roundQuotient_le {numerator denominator whole : Nat} (positive : 0 < denominator)
    (bound : numerator ≤ whole * denominator) : roundQuotient numerator denominator ≤ whole := by
  have down : numerator / denominator ≤ whole := Nat.div_le_of_le_mul (by rwa [Nat.mul_comm])
  unfold roundQuotient
  dsimp only
  split
  · exact down
  · next up =>
      have parts := Nat.div_add_mod numerator denominator
      have more : numerator / denominator ≠ whole := by
        rintro rfl
        rw [Nat.mul_comm] at bound
        omega
      omega

/-- What is at least a whole number is not rounded below it. -/
theorem le_roundQuotient {numerator denominator whole : Nat} (positive : 0 < denominator)
    (bound : whole * denominator ≤ numerator) : whole ≤ roundQuotient numerator denominator := by
  have least := (Nat.le_div_iff_mul_le positive).mpr bound
  unfold roundQuotient
  dsimp only
  split
  · exact least
  · exact Nat.le_succ_of_le least

/-- A quotient counted in units of a power of two, to the nearest whole number. -/
def roundedUnits (numerator denominator : Nat) (unit : Int) : Nat :=
  if 0 ≤ unit then roundQuotient numerator (denominator * Nat.pow 2 unit.toNat)
  else roundQuotient (numerator * Nat.pow 2 (-unit).toNat) denominator

variable {numerator denominator whole : Nat} {unit : Int}

/-- What is at most so many units is not rounded above them. -/
theorem roundedUnits_le (down : 0 < denominator)
    (bound : (numerator : Rat) / denominator ≤ whole * 2 ^ unit) :
    roundedUnits numerator denominator unit ≤ whole := by
  have nonzero : (0 : Rat) < denominator := by exact_mod_cast down
  rw [div_le_iff₀ nonzero] at bound
  unfold roundedUnits
  split
  · next above =>
      obtain ⟨power, rfl⟩ := Int.eq_ofNat_of_zero_le above
      apply roundQuotient_le (Nat.mul_pos down (Nat.two_pow_pos _))
      rw [zpow_natCast] at bound
      have exact : (numerator : Rat) ≤ whole * (denominator * 2 ^ power) := by linarith
      exact_mod_cast exact
  · next below =>
      obtain ⟨power, rfl⟩ : ∃ size : Nat, unit = -(size : Int) := ⟨(-unit).toNat, by omega⟩
      apply roundQuotient_le down
      rw [zpow_neg, zpow_natCast, mul_assoc, inv_mul_eq_div, ← mul_div_assoc,
        le_div_iff₀ (by positivity)] at bound
      rw [neg_neg, Int.toNat_natCast, Nat.pow_eq]
      exact_mod_cast bound

/-- What is at least so many units is not rounded below them. -/
theorem le_roundedUnits (down : 0 < denominator)
    (bound : (whole : Rat) * 2 ^ unit ≤ numerator / denominator) :
    whole ≤ roundedUnits numerator denominator unit := by
  have nonzero : (0 : Rat) < denominator := by exact_mod_cast down
  rw [le_div_iff₀ nonzero] at bound
  unfold roundedUnits
  split
  · next above =>
      obtain ⟨power, rfl⟩ := Int.eq_ofNat_of_zero_le above
      apply le_roundQuotient (Nat.mul_pos down (Nat.two_pow_pos _))
      rw [zpow_natCast] at bound
      have exact : (whole : Rat) * (denominator * 2 ^ power) ≤ numerator := by linarith
      exact_mod_cast exact
  · next below =>
      obtain ⟨power, rfl⟩ : ∃ size : Nat, unit = -(size : Int) := ⟨(-unit).toNat, by omega⟩
      apply le_roundQuotient down
      rw [zpow_neg, zpow_natCast, mul_assoc, inv_mul_eq_div, ← mul_div_assoc,
        div_le_iff₀ (by positivity)] at bound
      rw [neg_neg, Int.toNat_natCast, Nat.pow_eq]
      exact_mod_cast bound

/-- The number that a significand and a unit make, with the next power of two among the
significands. -/
theorem exists_ofWord (negative : Bool) {significand : Nat} {power : Int}
    (small : significand ≤ 2 ^ 53) (least : -1074 ≤ power) (most : power ≤ 970)
    (normal : 2 ^ 52 ≤ significand ∨ power = -1074) :
    ∃ exponent fraction,
      ofWord negative ((power + 1074).toNat * Nat.pow 2 52 + significand) =
        finite negative exponent fraction ∧ size exponent fraction = significand * 2 ^ power := by
  obtain ⟨steps, rfl⟩ : ∃ steps : Nat, power = steps - 1074 := ⟨(power + 1074).toNat, by omega⟩
  have found : ((steps : Int) - 1074 + 1074).toNat = steps := by omega
  rw [found]
  by_cases subnormal : significand < 2 ^ 52
  · obtain rfl : steps = 0 := by omega
    refine ⟨⟨0, by decide⟩, ⟨significand, subnormal⟩, ?_, ?_⟩
    · exact ofWord_fields ⟨0, by decide⟩ ⟨significand, subnormal⟩ negative
    · simp [size, Binary64.significand, unitPower]
  by_cases top : significand = 2 ^ 53
  · have word : steps * Nat.pow 2 52 + significand = (steps + 2) * Nat.pow 2 52 + 0 := by
      simp only [Nat.pow_eq]
      omega
    refine ⟨⟨steps + 2, by omega⟩, ⟨0, by decide⟩, ?_, ?_⟩
    · rw [word]
      exact ofWord_fields ⟨steps + 2, by omega⟩ ⟨0, by decide⟩ negative
    · have unit : unitPower ⟨steps + 2, by omega⟩ = (steps : Int) - 1074 + 1 := by
        simp only [unitPower]
        omega
      have whole : ((0 + Nat.pow 2 52 : Nat) : Rat) * 2 = (2 ^ 53 : Nat) := by norm_num
      rw [size, unit, zpow_add_one₀ two_ne_zero, top, Binary64.significand,
        if_neg (Nat.succ_ne_zero _), ← whole]
      ring
  · have inside : significand - 2 ^ 52 < Nat.pow 2 52 := by
      simp only [Nat.pow_eq]
      omega
    have word : steps * Nat.pow 2 52 + significand =
        (steps + 1) * Nat.pow 2 52 + (significand - 2 ^ 52) := by
      simp only [Nat.pow_eq]
      omega
    refine ⟨⟨steps + 1, by omega⟩, ⟨significand - 2 ^ 52, inside⟩, ?_, ?_⟩
    · rw [word]
      exact ofWord_fields ⟨steps + 1, by omega⟩ ⟨significand - 2 ^ 52, inside⟩ negative
    · have unit : unitPower ⟨steps + 1, by omega⟩ = (steps : Int) - 1074 := by
        simp only [unitPower]
        omega
      have whole : significand - 2 ^ 52 + Nat.pow 2 52 = significand :=
        Nat.sub_add_cancel (Nat.not_lt.mp subnormal)
      rw [size, unit, Binary64.significand, if_neg (Nat.succ_ne_zero _), whole]

/-- The unit of a number makes a significand of 53 bits, or it is the least one. -/
theorem unit_bounds {log2 unit : Int} (chosen : max (-1074) (log2 - 52) = unit) :
    (2 : Rat) ^ (log2 + 1) ≤ (2 ^ 53 : Nat) * 2 ^ unit ∧
      (unit = -1074 ∨ ((2 ^ 52 : Nat) : Rat) * 2 ^ unit ≤ 2 ^ log2) := by
  constructor
  · calc (2 : Rat) ^ (log2 + 1) ≤ 2 ^ (53 + unit) :=
          zpow_le_zpow_right₀ (by norm_num) (by omega)
      _ = (2 ^ 53 : Nat) * 2 ^ unit := by
          rw [zpow_add₀ two_ne_zero]
          norm_num
  · by_cases least : unit = -1074
    · exact .inl least
    · right
      calc ((2 ^ 52 : Nat) : Rat) * 2 ^ unit = 2 ^ (52 + unit) := by
            rw [zpow_add₀ two_ne_zero]
            norm_num
        _ ≤ 2 ^ log2 := zpow_le_zpow_right₀ (by norm_num) (by omega)

/-- **Nearest numbers keep bounds**: what is at most a number of 53 bits is not rounded above
it. -/
theorem nearest_le (negative : Bool) {value : Rat} {significand : Nat} {power : Int}
    (least : 0 ≤ value) (bound : value ≤ significand * 2 ^ power) (small : significand < 2 ^ 53)
    (low : -1074 ≤ power) (high : power ≤ 970) :
    ∃ exponent fraction, nearest negative value = finite negative exponent fraction ∧
      size exponent fraction ≤ significand * 2 ^ power := by
  obtain rfl | positive := least.eq_or_lt
  · refine ⟨⟨0, by decide⟩, ⟨0, by decide⟩, rfl, ?_⟩
    simpa [size, Binary64.significand] using bound
  have up : 0 < value.num.natAbs := Int.natAbs_pos.mpr (Rat.num_pos.mpr positive).ne'
  have same := natAbs_num_div_den positive
  obtain ⟨above, below⟩ := quotientLog2_spec up value.den_pos
  generalize log : quotientLog2 value.num.natAbs value.den = log2 at above below
  obtain ⟨unit, chosen⟩ : ∃ unit : Int, max (-1074) (log2 - 52) = unit := ⟨_, rfl⟩
  have rounded : nearest negative value = ofWord negative
      ((unit + 1074).toNat * Nat.pow 2 52 + roundedUnits value.num.natAbs value.den unit) := by
    rw [nearest, if_neg up.ne', log, chosen]
    rfl
  rw [same] at above below
  -- the bound is a whole number of units, because the number itself has 53 bits of them
  have coarse : unit ≤ power := by
    by_contra fine
    have normal : unit = log2 - 52 := by omega
    have bits : (2 : Rat) ^ (53 + power) ≤ significand * 2 ^ power := by
      refine le_trans ?_ (above.trans bound)
      exact zpow_le_zpow_right₀ (by norm_num) (by omega)
    rw [zpow_add₀ two_ne_zero] at bits
    have large := le_of_mul_le_mul_right bits (by positivity)
    exact absurd small (Nat.not_lt.mpr (by exact_mod_cast large))
  obtain ⟨more, rfl⟩ : ∃ more : Nat, power = unit + more := ⟨(power - unit).toNat, by omega⟩
  have units : (significand : Rat) * 2 ^ (unit + more) =
      (significand * 2 ^ more : Nat) * 2 ^ unit := by
    rw [zpow_add₀ two_ne_zero, zpow_natCast]
    push_cast
    ring
  have most : roundedUnits value.num.natAbs value.den unit ≤ significand * 2 ^ more := by
    apply roundedUnits_le value.den_pos
    rw [same, ← units]
    exact bound
  obtain ⟨next, first⟩ := unit_bounds chosen
  have top : roundedUnits value.num.natAbs value.den unit ≤ 2 ^ 53 := by
    apply roundedUnits_le value.den_pos
    rw [same]
    exact below.le.trans next
  have normal : 2 ^ 52 ≤ roundedUnits value.num.natAbs value.den unit ∨ unit = -1074 := by
    rcases first with subnormal | first
    · exact .inr subnormal
    · left
      apply le_roundedUnits value.den_pos
      rw [same]
      exact first.trans above
  obtain ⟨exponent, fraction, word, sized⟩ :=
    exists_ofWord negative top (by omega) (by omega) normal
  refine ⟨exponent, fraction, rounded.trans word, ?_⟩
  rw [sized, units]
  gcongr

end LintReport.Binary64
