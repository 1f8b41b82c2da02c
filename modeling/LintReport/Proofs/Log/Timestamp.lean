import LintReport.Log.Timestamp
import LintReport.Proofs.Number.Shortest

/-! # Which moments have a date

A moment has a date exactly if it lies in the years 1 to 9999 (`Moment.date_eq_ok_iff`), and so
a record has a timestamp exactly if its time denotes such a moment (`exists_timestamp_iff`). A
time between the first second of these years and the last but a few microseconds does
(`isDated_of_between`): it is kept as a floating-point number, and rounding it does not take it
out of these years. -/

namespace LintReport.Log

/-! ## Years -/

/-- The days of the years 1 to 9999, counted from the first of January 1970. -/
theorem Date.year_ofDays (days : Int) :
    (1 ≤ (ofDays days).year ↔ -719162 ≤ days) ∧ ((ofDays days).year ≤ 9999 ↔ days ≤ 2932896) := by
  have shifted := Int.mul_ediv_add_emod (days + 719468) 146097
  have first : 0 ≤ (days + 719468) % 146097 := Int.emod_nonneg _ (by decide)
  have last : (days + 719468) % 146097 < 146097 := Int.emod_lt_of_pos _ (by decide)
  simp only [ofDays]
  generalize (days + 719468) % 146097 = day at shifted first last ⊢
  generalize (days + 719468) / 146097 = cycle at shifted ⊢
  have years : 0 ≤ (day - day / 1460 + day / 36524 - day / 146096) / 365 ∧
      (day - day / 1460 + day / 36524 - day / 146096) / 365 ≤ 399 := by omega
  -- the years begin in the first cycle and end in the one that starts with the year 9600
  constructor
  · rcases Int.lt_trichotomy cycle 0 with before | rfl | after <;> omega
  · rcases Int.lt_trichotomy cycle 24 with before | rfl | after <;> omega

/-! ## Moments -/

/-- Whether a moment lies in the years 1 to 9999. -/
def Moment.IsDated (moment : Moment) : Prop :=
  -62135596800 ≤ moment.seconds ∧ moment.seconds < 253402300800

theorem fitsBits_64_iff {number : Int} :
    fitsBits 64 number ↔ -9223372036854775808 ≤ number ∧ number < 9223372036854775808 := by
  simp [fitsBits]

theorem fitsBits_32_iff {number : Int} :
    fitsBits 32 number ↔ -2147483648 ≤ number ∧ number < 2147483648 := by
  simp [fitsBits]

/-- Among the years that fit the calendar, those from 1 to 9999 are the ones that denote such a
year. -/
theorem bmod_year_iff {year : Int} (fits : fitsBits 32 (year - 1900)) :
    ¬ (year.bmod (Nat.pow 2 32) < 1 ∨ 9999 < year.bmod (Nat.pow 2 32)) ↔
      1 ≤ year ∧ year ≤ 9999 := by
  rw [fitsBits_32_iff] at fits
  rw [Int.bmod_def]
  simp only [Nat.pow_eq]
  split <;> omega

/-- **Dated moments**: a moment has a date exactly if it lies in the years 1 to 9999. -/
theorem Moment.date_eq_ok_iff {moment : Moment} {date : Date} :
    moment.date = .ok date ↔ moment.IsDated ∧ date = Date.ofDays (moment.seconds / 86400) := by
  obtain ⟨first, last⟩ := Date.year_ofDays (moment.seconds / 86400)
  unfold Moment.date IsDated
  dsimp only
  generalize Date.ofDays (moment.seconds / 86400) = found at first last ⊢
  constructor
  · intro made
    split at made
    · cases made
    split at made
    · cases made
    · next calendar =>
        split at made
        · cases made
        · next inside =>
            rw [Bool.not_eq_true', Bool.not_eq_false] at calendar
            have years := (bmod_year_iff calendar).mp inside
            exact ⟨by omega, (Except.ok.inj made).symm⟩
  · rintro ⟨dated, rfl⟩
    have years : 1 ≤ date.year ∧ date.year ≤ 9999 := ⟨first.mpr (by omega), last.mpr (by omega)⟩
    have clock : fitsBits 64 moment.seconds := fitsBits_64_iff.mpr (by omega)
    have calendar : fitsBits 32 (date.year - 1900) := fitsBits_32_iff.mpr (by omega)
    simp only [clock, calendar, Bool.not_true, Bool.false_eq_true, if_false]
    exact if_neg ((bmod_year_iff calendar).mpr years)

/-! ## Timestamps -/

/-- Whether a number of microseconds since the epoch denotes a moment in the years 1 to 9999. -/
def IsDated (created : Int) : Prop :=
  ∃ moment, Moment.ofMicroseconds? created = some moment ∧ moment.IsDated

/-- **Timestamps** exist for the times that denote a moment in the years 1 to 9999, and for no
other. -/
theorem exists_timestamp_iff {created : Int} :
    (∃ time, timestamp created = .ok time) ↔ IsDated created := by
  unfold timestamp IsDated
  cases denoted : Moment.ofMicroseconds? created with
  | none => simp
  | some moment =>
      simp only [Option.some.injEq, exists_eq_left']
      constructor
      · rintro ⟨time, made⟩
        split at made
        · cases made
        · next date found => exact (Moment.date_eq_ok_iff.mp found).1
      · intro dated
        rw [Moment.date_eq_ok_iff.mpr ⟨dated, rfl⟩]
        exact ⟨_, rfl⟩

/-! ## Rounded times -/

open Binary64

/-- The microseconds that the fraction of a quotient of seconds is rounded to. -/
def fractionMicros (numerator denominator : Nat) : Nat :=
  match nearest false (mkRat (numerator % denominator * 1000000) denominator) with
  | .finite _ exponent fraction =>
      roundQuotient (quotient exponent fraction).1 (quotient exponent fraction).2
  | _ => 0

/-- A float up to a whole number is not rounded above it. -/
theorem roundQuotient_quotient_le {exponent : Fin 2047} {fraction : Fin (Nat.pow 2 52)}
    {limit : Nat} (bound : size exponent fraction ≤ limit) :
    roundQuotient (quotient exponent fraction).1 (quotient exponent fraction).2 ≤ limit := by
  obtain ⟨power, denominator⟩ := @quotient_snd exponent fraction
  have positive : 0 < (quotient exponent fraction).2 := denominator ▸ Nat.two_pow_pos power
  apply roundQuotient_le positive
  rw [← quotient_eq_size, div_le_iff₀ (by exact_mod_cast positive)] at bound
  exact_mod_cast bound

variable {numerator denominator : Nat}

/-- A fraction up to so many microseconds is not rounded above them. -/
theorem fractionMicros_le {limit : Nat} (positive : 0 < denominator) (small : limit ≤ 1000000)
    (bound : numerator % denominator * 1000000 ≤ limit * denominator) :
    fractionMicros numerator denominator ≤ limit := by
  have nonzero : (0 : Rat) < denominator := by exact_mod_cast positive
  have value : mkRat (numerator % denominator * 1000000) denominator =
      (numerator % denominator * 1000000 : Nat) / denominator := by
    have whole : (numerator : Int) % denominator * 1000000 =
        (numerator % denominator * 1000000 : Nat) := by push_cast; rfl
    rw [whole, Rat.mkRat_eq_div, Int.cast_natCast]
  have least : 0 ≤ mkRat (numerator % denominator * 1000000) denominator := by
    rw [value]
    positivity
  have most : mkRat (numerator % denominator * 1000000) denominator ≤ limit * 2 ^ (0 : Int) := by
    rw [value, zpow_zero, mul_one, div_le_iff₀ nonzero]
    exact_mod_cast bound
  obtain ⟨exponent, fraction, rounded, within⟩ :=
    nearest_le false least most (by omega) (by decide) (by decide)
  rw [zpow_zero, mul_one] at within
  rw [fractionMicros, rounded]
  exact roundQuotient_quotient_le within

/-- Seconds up to some whole ones and some microseconds are rounded to no more than these. -/
theorem total_le {whole micros : Nat} (positive : 0 < denominator) (small : micros < 1000000)
    (bound : numerator * 1000000 ≤ (whole * 1000000 + micros) * denominator) :
    numerator / denominator * 1000000 + fractionMicros numerator denominator ≤
      whole * 1000000 + micros := by
  have parts := Nat.div_add_mod numerator denominator
  have left := Nat.mod_lt numerator positive
  by_cases below : numerator / denominator < whole
  · have fraction : numerator % denominator * 1000000 ≤ 1000000 * denominator := by
      rw [Nat.mul_comm]
      exact Nat.mul_le_mul_left 1000000 left.le
    have most := fractionMicros_le positive (le_refl 1000000) fraction
    calc numerator / denominator * 1000000 + fractionMicros numerator denominator
        ≤ numerator / denominator * 1000000 + 1000000 := Nat.add_le_add_left most _
      _ = (numerator / denominator + 1) * 1000000 := (Nat.succ_mul _ _).symm
      _ ≤ whole * 1000000 := Nat.mul_le_mul_right 1000000 below
      _ ≤ whole * 1000000 + micros := Nat.le_add_right _ _
  · have same : numerator / denominator = whole := by
      apply Nat.le_antisymm _ (Nat.not_lt.mp below)
      apply Nat.le_of_lt_succ
      rw [Nat.div_lt_iff_lt_mul positive]
      nlinarith
    have rest : numerator % denominator * 1000000 ≤ micros * denominator := by
      rw [same] at parts
      nlinarith
    rw [same]
    exact Nat.add_le_add_left (fractionMicros_le positive small.le rest) _

/-- A time that is at most a number of 53 bits in seconds denotes a moment no further from the
epoch than that number is, rounded up to the microsecond. -/
theorem exists_total {created : Int} {limit significand whole micros : Nat} {power : Int}
    (near : created.natAbs ≤ limit) (least : (limit : Rat) / 1000000 ≤ significand * 2 ^ power)
    (most : (significand : Rat) * 2 ^ power ≤ whole + micros / 1000000)
    (bits : significand < 2 ^ 53) (low : -1074 ≤ power) (high : power ≤ 970)
    (small : micros < 1000000) :
    ∃ total ≤ whole * 1000000 + micros,
      Moment.ofMicroseconds? created =
        some { seconds := (if created < 0 then -(total : Int) else total) / 1000000
               microseconds :=
                 ((if created < 0 then -(total : Int) else total) % 1000000).toNat } := by
  have value : mkRat created.natAbs 1000000 = (created.natAbs : Rat) / 1000000 := by
    rw [Rat.mkRat_eq_div, Int.cast_natCast, Nat.cast_ofNat]
  have bound : mkRat created.natAbs 1000000 ≤ significand * 2 ^ power := by
    rw [value]
    refine le_trans ?_ least
    gcongr
  obtain ⟨exponent, fraction, rounded, within⟩ :=
    nearest_le (created < 0) (by rw [value]; positivity) bound bits low high
  obtain ⟨steps, denominator⟩ := @quotient_snd exponent fraction
  have positive : 0 < (quotient exponent fraction).2 := denominator ▸ Nat.two_pow_pos steps
  have nonzero : (0 : Rat) < (quotient exponent fraction).2 := by exact_mod_cast positive
  refine ⟨_, @total_le (quotient exponent fraction).1 (quotient exponent fraction).2 whole micros
    positive small ?_, ?_⟩
  · have bound := within.trans most
    rw [← quotient_eq_size, div_le_iff₀ nonzero] at bound
    have scaled : ((quotient exponent fraction).1 : Rat) * 1000000 ≤
        (whole * 1000000 + micros) * (quotient exponent fraction).2 := by linarith
    exact_mod_cast scaled
  · rw [Moment.ofMicroseconds?, rounded]
    rfl

/-- **Times in range**: every time from the first second of the year 1 on, and up to 31
microseconds before the end of the year 9999, denotes a moment in these years. -/
theorem isDated_of_between {created : Int} (first : -62135596800000000 ≤ created)
    (last : created ≤ 253402300799999969) : IsDated created := by
  by_cases before : created < 0
  · have near : created.natAbs ≤ 62135596800000000 := by omega
    obtain ⟨total, most, denoted⟩ := @exists_total created _ 62135596800 62135596800 0 0 near
      (by norm_num) (by norm_num) (by norm_num) (by decide) (by decide) (by decide)
    rw [if_pos before] at denoted
    refine ⟨_, denoted, ?_⟩
    unfold Moment.IsDated
    dsimp only
    omega
  · have near : created.natAbs ≤ 253402300799999969 := by omega
    -- the bound is the last number of 53 bits before the year 10000
    obtain ⟨total, most, denoted⟩ :=
      @exists_total created _ 8303486592614399 253402300799 999970 (-15) near
        (by norm_num) (by norm_num) (by norm_num) (by decide) (by decide) (by decide)
    rw [if_neg before] at denoted
    refine ⟨_, denoted, ?_⟩
    unfold Moment.IsDated
    dsimp only
    omega

end LintReport.Log
