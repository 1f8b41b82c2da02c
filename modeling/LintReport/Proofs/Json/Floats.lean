import LintReport.Proofs.Json.Printed
import LintReport.Proofs.Number.Shortest

/-! # Floating-point numbers are read back

The text of a floating-point number is a literal in parts: digits, a fraction and an
exponent, of which the last two may be missing, but not both. In whichever of the forms it
is written, the literal has the value of the decimal that it was written from, so the
number that is read is the one that was written (`ScalarText.float`). -/

namespace LintReport.Json

open Text

namespace NumberLiteral

/-- The text of a literal in parts. -/
def partsText (whole : List Char) (fraction : Option (List Char)) (exponent : Option Int) :
    List Char :=
  whole ++ ((fraction.map ('.' :: ·)).getD [] ++ (exponent.map Binary64.exponentText).getD [])

/-- The decimal that a literal in parts denotes. -/
def partsDecimal (whole : List Char) (fraction : Option (List Char)) (exponent : Option Int) :
    Decimal where
  coefficient := digitsValue (whole ++ fraction.getD [])
  scale := exponent.getD 0 - (fraction.getD []).length

/-- Whether the parts of a literal are well-formed and do not denote a whole number. -/
structure IsFloat (whole : List Char) (fraction : Option (List Char)) (exponent : Option Int) :
    Prop where
  isWhole : wholeOf? whole = some (whole, [])
  isFraction : ∀ digits, fraction = some digits → digits ≠ [] ∧ ∀ char ∈ digits, char.isDigit
  marked : fraction.isSome ∨ exponent.isSome

/-- Digits without a zero in front are a whole part. -/
theorem wholeOf?_digits {first : Char} {others : List Char} (nonzero : first ≠ '0')
    (all : ∀ char ∈ first :: others, char.isDigit) :
    wholeOf? (first :: others) = some (first :: others, []) := by
  have rest := @digitsOf_append others []
    (fun char member => all char (List.mem_cons_of_mem first member)) startsWithout_nil
  rw [List.append_nil] at rest
  rw [wholeOf?, if_neg nonzero, if_pos (all first List.mem_cons_self), rest]

theorem digitsOf_all {digits : List Char} (all : ∀ char ∈ digits, char.isDigit) :
    digitsOf digits = (digits, []) := by
  simpa using digitsOf_append all startsWithout_nil

/-- The exponent is the number that its digits and its sign write. -/
theorem exponentOf_signed (negative : Bool) {digits : List Char} (filled : digits ≠ [])
    (all : ∀ char ∈ digits, char.isDigit) :
    exponentOf ('e' :: (if negative then '-' else '+') :: digits) =
      (some (Numeral.signed negative (digitsValue digits)), []) := by
  have sign : Numeral.splitSign ((if negative then '-' else '+') :: digits) =
      (negative, digits) := by
    cases negative <;> rfl
  obtain ⟨first, others, rfl⟩ := List.exists_cons_of_ne_nil filled
  simp only [exponentOf, sign, digitsOf_all all, true_or, if_true]

/-- An exponent is read back, whatever zeros stand before its digits. -/
theorem exponentOf_exponentText (exponent : Int) :
    exponentOf (Binary64.exponentText exponent) = (some exponent, []) := by
  have filled : List.replicate (2 - (Nat.toDigits 10 exponent.natAbs).length) '0' ++
      Nat.toDigits 10 exponent.natAbs ≠ [] :=
    List.append_ne_nil_of_right_ne_nil _ Nat.toDigits_ne_nil
  have all : ∀ char ∈ List.replicate (2 - (Nat.toDigits 10 exponent.natAbs).length) '0' ++
      Nat.toDigits 10 exponent.natAbs, char.isDigit := by
    refine List.forall_mem_append.mpr ⟨fun char member => ?_, isDigit_of_mem_toDigits⟩
    rw [List.eq_of_mem_replicate member]
    rfl
  have read := exponentOf_signed (decide (exponent < 0)) filled all
  rw [digitsValue_zeros_append, digitsValue_toDigits] at read
  have value : Numeral.signed (decide (exponent < 0)) exponent.natAbs = exponent := by
    by_cases below : exponent < 0
    · simp only [Numeral.signed, below, decide_true, if_true]
      omega
    · simp only [Numeral.signed, below, decide_false, Bool.false_eq_true, if_false]
      omega
  rw [value] at read
  simpa only [Binary64.exponentText, decide_eq_true_eq, List.cons_append] using read

/-- What is written for an exponent is read back, and nothing for none. -/
theorem exponentOf_tail (exponent : Option Int) :
    exponentOf ((exponent.map Binary64.exponentText).getD []) = (exponent, []) := by
  cases exponent with
  | none => rfl
  | some exponent => exact exponentOf_exponentText exponent

/-- An exponent starts with its letter. -/
theorem startsWithout_tail (kind : Char → Bool) (other : kind 'e' = false)
    (exponent : Option Int) :
    StartsWithout kind ((exponent.map Binary64.exponentText).getD []) := by
  cases exponent with
  | none => exact startsWithout_nil
  | some exponent => exact startsWithout_cons.mpr other

/-- A fraction is read up to the exponent. -/
theorem fractionOf_append {fraction : Option (List Char)} {rest : List Char}
    (isFraction : ∀ digits, fraction = some digits → digits ≠ [] ∧ ∀ char ∈ digits, char.isDigit)
    (digitless : StartsWithout Char.isDigit rest) (pointless : StartsWithout (· == '.') rest) :
    fractionOf ((fraction.map ('.' :: ·)).getD [] ++ rest) = (fraction, rest) := by
  cases fraction with
  | none =>
      rw [Option.map_none, Option.getD_none, List.nil_append]
      unfold fractionOf
      split
      · simp at pointless
      · rfl
  | some digits =>
      obtain ⟨filled, all⟩ := isFraction digits rfl
      obtain ⟨first, others, rfl⟩ := List.exists_cons_of_ne_nil filled
      have read := digitsOf_append all digitless
      rw [Option.map_some, Option.getD_some, List.cons_append, fractionOf, read]

/-- A literal is read back part by part. -/
theorem read?_parts {whole : List Char} {fraction : Option (List Char)} {exponent : Option Int}
    (float : IsFloat whole fraction exponent) (negative : Bool) :
    read? ((if negative then ['-'] else []) ++ partsText whole fraction exponent) =
      some (⟨negative, whole, fraction, exponent⟩, []) := by
  obtain ⟨_, ⟨first, others, starts, digit⟩, again⟩ := wholeOf?_token float.isWhole
  have sign : minusOf ((if negative then ['-'] else []) ++ partsText whole fraction exponent) =
      (negative, partsText whole fraction exponent) := by
    cases negative with
    | true => rfl
    | false =>
        rw [partsText, starts]
        unfold minusOf
        split
        · next minus =>
            rw [(List.cons.inj minus).1] at digit
            cases digit
        · rfl
  have digitless := startsWithout_tail Char.isDigit rfl exponent
  have afterWhole : StartsWithout Char.isDigit ((fraction.map ('.' :: ·)).getD [] ++
      (exponent.map Binary64.exponentText).getD []) := by
    cases fraction with
    | none => exact digitless
    | some digits => exact startsWithout_cons.mpr rfl
  have afterFraction :=
    fractionOf_append float.isFraction digitless (startsWithout_tail _ rfl exponent)
  simp only [read?, sign]
  simp only [partsText, again _ afterWhole, afterFraction, exponentOf_tail]

/-- A literal with a fraction or an exponent denotes the float nearest to its decimal. -/
theorem value_parts {whole : List Char} {fraction : Option (List Char)} {exponent : Option Int}
    (float : IsFloat whole fraction exponent) (negative : Bool) :
    value ⟨negative, whole, fraction, exponent⟩ =
      .ok (.float (.ofDecimal negative (partsDecimal whole fraction exponent))) := by
  have marked : ¬ (fraction.isNone ∧ exponent.isNone) := by
    rintro ⟨noFraction, noExponent⟩
    rcases float.marked with some | some <;> simp_all
  rw [value, if_neg marked]
  rfl

/-- Whether a text is a literal in parts that denotes a decimal. -/
def Spells (text : List Char) (decimal : Decimal) : Prop :=
  ∃ whole fraction exponent, text = partsText whole fraction exponent ∧
    IsFloat whole fraction exponent ∧ (partsDecimal whole fraction exponent).toRat = decimal.toRat

section Decimals

variable {decimal : Decimal} {first : Char} {others : List Char}

theorem isFraction_some {digits : List Char} (filled : digits ≠ [])
    (all : ∀ char ∈ digits, char.isDigit) :
    ∀ found, some digits = some found → found ≠ [] ∧ ∀ char ∈ found, char.isDigit := by
  rintro found ⟨⟩
  exact ⟨filled, all⟩

/-- A decimal is determined by the digits before and behind its point and by where the point is. -/
theorem toRat_partsDecimal {whole : List Char} {fraction : Option (List Char)}
    {exponent : Option Int} (digits : digitsValue (whole ++ fraction.getD []) = decimal.coefficient)
    (scale : exponent.getD 0 - (fraction.getD []).length = decimal.scale) :
    (partsDecimal whole fraction exponent).toRat = decimal.toRat := by
  rw [partsDecimal, digits, scale]

/-- Zeros in front of digits are digits. -/
theorem isDigit_zeros_append {digits : List Char} (all : ∀ char ∈ digits, char.isDigit)
    (count : Nat) : ∀ char ∈ List.replicate count '0' ++ digits, char.isDigit := by
  refine List.forall_mem_append.mpr ⟨fun char member => ?_, all⟩
  rw [List.eq_of_mem_replicate member]
  rfl

/-- The digits of a small number stand after a zero, the point and more zeros. -/
theorem spells_small (place : decimal.pointPlace ≤ 0) :
    Spells ('0' :: '.' :: List.replicate (-decimal.pointPlace).toNat '0' ++ decimal.digits)
      decimal := by
  refine ⟨['0'], some (List.replicate (-decimal.pointPlace).toNat '0' ++ decimal.digits), none,
    by simp [partsText], ⟨rfl, ?_, .inl rfl⟩, toRat_partsDecimal ?_ ?_⟩
  · exact isFraction_some (List.append_ne_nil_of_right_ne_nil _ Nat.toDigits_ne_nil)
      (isDigit_zeros_append isDigit_of_mem_toDigits _)
  · rw [Option.getD_some, ← List.append_assoc, ← List.replicate_one,
      List.replicate_append_replicate, digitsValue_zeros_append, Decimal.digits,
      digitsValue_toDigits]
  · rw [Decimal.pointPlace] at place
    simp only [Option.getD_none, Option.getD_some, List.length_append, List.length_replicate,
      Decimal.pointPlace]
    omega

/-- What the digits of a number other than zero start with is read as a whole number, and so
it is with zeros after it. -/
theorem wholeOf?_digits_take (nonzero : decimal.coefficient ≠ 0) (count : Nat)
    (filled : 0 < count) (zeros : Nat) :
    wholeOf? (decimal.digits.take count ++ List.replicate zeros '0') =
      some (decimal.digits.take count ++ List.replicate zeros '0', []) := by
  obtain ⟨first, others, digits, leading⟩ := exists_first_digit (Nat.pos_of_ne_zero nonzero)
  obtain ⟨count, rfl⟩ := Nat.exists_eq_succ_of_ne_zero filled.ne'
  have all : ∀ char ∈ first :: others, char.isDigit := digits ▸ isDigit_of_mem_toDigits
  rw [Decimal.digits, digits, List.take_succ_cons, List.cons_append]
  apply wholeOf?_digits leading
  intro char member
  rcases List.mem_cons.mp member with rfl | member
  · exact all char List.mem_cons_self
  · rcases List.mem_append.mp member with early | zero
    · exact all char (List.mem_cons_of_mem _ (List.mem_of_mem_take early))
    · rw [List.eq_of_mem_replicate zero]
      rfl

/-- A number of some digits has the point between them. -/
theorem spells_pointed (nonzero : decimal.coefficient ≠ 0) (above : 0 < decimal.pointPlace)
    (below : decimal.scale < 0) :
    Spells (decimal.digits.take decimal.pointPlace.toNat ++
      '.' :: decimal.digits.drop decimal.pointPlace.toNat) decimal := by
  have inside : decimal.pointPlace.toNat < decimal.digits.length := by
    rw [Decimal.pointPlace] at above ⊢
    omega
  refine ⟨decimal.digits.take decimal.pointPlace.toNat,
    some (decimal.digits.drop decimal.pointPlace.toNat), none, by simp [partsText],
    ⟨?_, ?_, .inl rfl⟩, toRat_partsDecimal ?_ ?_⟩
  · simpa using wholeOf?_digits_take nonzero decimal.pointPlace.toNat (by omega) 0
  · refine isFraction_some ?_ fun char member =>
      isDigit_of_mem_toDigits char (List.mem_of_mem_drop member)
    simpa using inside
  · rw [Option.getD_some, List.take_append_drop, Decimal.digits, digitsValue_toDigits]
  · simp only [Option.getD_none, Option.getD_some, List.length_drop]
    rw [Decimal.pointPlace] at inside above ⊢
    omega

/-- A whole number has a fraction of zero. -/
theorem spells_whole (nonzero : decimal.coefficient ≠ 0) (whole : 0 ≤ decimal.scale) :
    Spells (decimal.digits ++ List.replicate decimal.scale.toNat '0' ++ ['.', '0']) decimal := by
  refine ⟨decimal.digits ++ List.replicate decimal.scale.toNat '0', some ['0'], none,
    by simp [partsText], ⟨?_, isFraction_some (by simp) (by simp), .inl rfl⟩, ?_⟩
  · have read := wholeOf?_digits_take nonzero decimal.digits.length
      Nat.length_toDigits_pos decimal.scale.toNat
    rwa [List.take_length] at read
  · obtain ⟨zeros, same⟩ := Int.eq_ofNat_of_zero_le whole
    have zero : ['0'] = List.replicate 1 '0' := rfl
    rw [partsDecimal, Decimal.toRat_eq, Decimal.toRat_eq]
    simp only [Option.getD_some, Option.getD_none, List.length_singleton]
    rw [same, Int.toNat_natCast, List.append_assoc, zero, List.replicate_append_replicate,
      digitsValue_append_zeros, Decimal.digits, digitsValue_toDigits, pow_succ]
    push_cast
    rw [zpow_natCast]
    norm_num
    ring

/-- Any other number has one digit before the point, and an exponent. -/
theorem spells_scientific (nonzero : first ≠ '0') (digits : decimal.digits = first :: others) :
    Spells (first :: (if others = [] then [] else '.' :: others) ++
      Binary64.exponentText (decimal.pointPlace - 1)) decimal := by
  have all : ∀ char ∈ first :: others, char.isDigit := digits ▸ isDigit_of_mem_toDigits
  have value : digitsValue (first :: others) = decimal.coefficient := by
    rw [← digits, Decimal.digits, digitsValue_toDigits]
  have length : decimal.digits.length = others.length + 1 := by rw [digits, List.length_cons]
  have alone : wholeOf? [first] = some ([first], []) :=
    wholeOf?_digits nonzero fun char member =>
      all char (List.mem_singleton.mp member ▸ List.mem_cons_self)
  by_cases single : others = []
  · subst single
    refine ⟨[first], none, some (decimal.pointPlace - 1), by simp [partsText],
      ⟨alone, by simp, .inr rfl⟩, toRat_partsDecimal value ?_⟩
    simp only [Option.getD_some, Option.getD_none, List.length_nil, Decimal.pointPlace, length]
    omega
  · refine ⟨[first], some others, some (decimal.pointPlace - 1), by simp [partsText, single],
      ⟨alone, isFraction_some single fun char member => all char (List.mem_cons_of_mem _ member),
        .inr rfl⟩, toRat_partsDecimal value ?_⟩
    simp only [Option.getD_some, Decimal.pointPlace, length]
    omega

end Decimals

/-- A decimal is written in parts that denote its value. -/
theorem spells_decimalText (decimal : Decimal) : Spells (Binary64.decimalText decimal) decimal := by
  rw [Binary64.decimalText]
  split
  · next zero =>
      refine ⟨['0'], some ['0'], none, rfl, ⟨rfl, isFraction_some (by simp) (by simp), .inl rfl⟩,
        ?_⟩
      rw [Decimal.toRat_eq_zero_iff.mpr zero]
      rfl
  · next nonzero =>
      split
      · next small => exact spells_small small.2
      · split
        · next medium =>
            split
            · next below => exact spells_pointed nonzero medium.1 below
            · next above => exact spells_whole nonzero (Int.not_lt.mp above)
        · obtain ⟨first, others, digits, leading⟩ :=
            exists_first_digit (Nat.pos_of_ne_zero nonzero)
          have spelled := spells_scientific leading digits
          rw [Decimal.digits, digits]
          cases others with
          | nil => exact spelled
          | cons second others => exact spelled

end NumberLiteral

/-- **A floating-point number is read back** from the text that it is written as. -/
theorem ScalarText.float (value : Binary64) :
    ScalarText (value.text floatWords) (.float value) := by
  cases value with
  | nan => exact .keyword (by simp [keywords, Binary64.text, floatWords])
  | infinite negative =>
      cases negative with
      | false => exact .keyword (by simp [keywords, Binary64.text, floatWords])
      | true => exact .keyword (by simp [keywords, Binary64.text, floatWords])
  | finite negative exponent fraction =>
      obtain ⟨whole, digits, power, written, float, same⟩ :=
        NumberLiteral.spells_decimalText (Binary64.shortest negative exponent fraction)
      rw [Binary64.text, written]
      refine .number (NumberLiteral.read?_parts float negative) ?_
      rw [NumberLiteral.value_parts float, Binary64.ofDecimal_congr same,
        Binary64.ofDecimal_shortest]

end LintReport.Json
