/-! # Floating-point numbers of 64 bits

The binary floating-point numbers with a significand of 53 bits, as data: a sign, an
exponent field and a fraction field, two infinities and one not-a-number. Equality is
equality of these fields, so the two zeros differ. A decimal number is read as the nearest
of these numbers, a tie going to the even significand (`Binary64.nearest`); a finite number is
printed with the fewest digits that read back as the same number (`Binary64.shortest`), or with
a given number of them. -/

namespace LintReport

/-! ## Decimal numbers -/

/-- The number `coefficient * 10 ^ scale`. -/
structure Decimal where
  coefficient : Nat
  scale : Int
  deriving DecidableEq, Repr

namespace Decimal

/-- The digits of the coefficient, `0` for the coefficient zero. -/
def digits (decimal : Decimal) : List Char :=
  Nat.toDigits 10 decimal.coefficient

/-- The place of the point: a number other than zero lies between the powers of ten
with this exponent and the one below. -/
def pointPlace (decimal : Decimal) : Int :=
  decimal.digits.length + decimal.scale

/-- The rational number that a decimal denotes. -/
def toRat (decimal : Decimal) : Rat :=
  if 0 ≤ decimal.scale then ((decimal.coefficient * Nat.pow 10 decimal.scale.toNat : Nat) : Rat)
  else mkRat decimal.coefficient (Nat.pow 10 (-decimal.scale).toNat)

/-- The decimal without the zeros that its coefficient ends with; the number of
digits bounds the steps. -/
def dropZeros (decimal : Decimal) : Decimal :=
  go decimal.digits.length decimal
where
  /-- Drops at most the given number of zeros. -/
  go : Nat → Decimal → Decimal
    | 0, decimal => decimal
    | steps + 1, decimal =>
        if decimal.coefficient % 10 = 0 then
          go steps ⟨decimal.coefficient / 10, decimal.scale + 1⟩
        else decimal

end Decimal

/-! ## Binary numbers -/

/-- A floating-point number of 64 bits. A finite one has an exponent field below the
largest, which stands for the infinities, and a fraction field of 52 bits. -/
inductive Binary64 where
  | finite (negative : Bool) (exponent : Fin 2047) (fraction : Fin (Nat.pow 2 52))
  | infinite (negative : Bool)
  | nan
  deriving DecidableEq

namespace Binary64

/-- The whole number nearest to a quotient; a half goes to the even neighbour. -/
def roundQuotient (numerator denominator : Nat) : Nat :=
  let whole := numerator / denominator
  let twice := 2 * (numerator % denominator)
  if twice < denominator ∨ (twice = denominator ∧ whole % 2 = 0) then whole else whole + 1

/-- The exponent of the largest power of two that is at most the quotient of two
positive numbers. -/
def quotientLog2 (numerator denominator : Nat) : Int :=
  let guess : Int := (numerator.log2 : Int) - denominator.log2
  let reached :=
    if 0 ≤ guess then denominator * Nat.pow 2 guess.toNat ≤ numerator
    else denominator ≤ numerator * Nat.pow 2 (-guess).toNat
  if reached then guess else guess - 1

/-- The number whose exponent and fraction fields make up a word, or the infinity when
the exponent field is too large. Adding one to the word gives the next number up. -/
def ofWord (negative : Bool) (word : Nat) : Binary64 :=
  if small : word / Nat.pow 2 52 < 2047 then
    .finite negative ⟨word / Nat.pow 2 52, small⟩ ⟨word % Nat.pow 2 52, Nat.mod_lt _ (by decide)⟩
  else .infinite negative

/-- The zero with the given sign. -/
def zero (negative : Bool) : Binary64 :=
  ofWord negative 0

/-- The number of the given sign nearest to a size that is not negative. -/
def nearest (negative : Bool) (size : Rat) : Binary64 :=
  let numerator := size.num.natAbs
  let denominator := size.den
  if numerator = 0 then zero negative
  else
    let unit : Int := max (-1074) (quotientLog2 numerator denominator - 52)
    let significand :=
      if 0 ≤ unit then roundQuotient numerator (denominator * Nat.pow 2 unit.toNat)
      else roundQuotient (numerator * Nat.pow 2 (-unit).toNat) denominator
    ofWord negative ((unit + 1074).toNat * Nat.pow 2 52 + significand)

/-- The number nearest to a decimal. A decimal far above the largest number or far below
the smallest is settled by the place of its point alone. -/
def ofDecimal (negative : Bool) (decimal : Decimal) : Binary64 :=
  if decimal.coefficient = 0 then zero negative
  else if 400 < decimal.pointPlace then .infinite negative
  else if decimal.pointPlace < -400 then zero negative
  else nearest negative decimal.toRat

/-- The size of a finite number as a quotient of whole numbers. -/
def quotient (exponent : Fin 2047) (fraction : Fin (Nat.pow 2 52)) : Nat × Nat :=
  let significand := if exponent.val = 0 then fraction.val else fraction.val + Nat.pow 2 52
  let unit : Int := (max exponent.val 1 : Nat) - 1075
  if 0 ≤ unit then (significand * Nat.pow 2 unit.toNat, 1)
  else (significand, Nat.pow 2 (-unit).toNat)

/-- The whole number that is left when the fractional part of a finite number is cut
off. -/
def truncate? : Binary64 → Option Int
  | .finite negative exponent fraction =>
      let (numerator, denominator) := quotient exponent fraction
      let whole := numerator / denominator
      some (if negative then -(whole : Int) else whole)
  | _ => none

/-- The rational number that a finite number is. -/
def toRat? : Binary64 → Option Rat
  | .finite negative exponent fraction =>
      let (numerator, denominator) := quotient exponent fraction
      some (mkRat (if negative then -(numerator : Int) else numerator) denominator)
  | _ => none

/-- Whether a number is one of the two zeros. -/
def isZero : Binary64 → Bool
  | .finite _ exponent fraction => exponent.val == 0 && fraction.val == 0
  | _ => false

/-- Whether a number is neither infinite nor not-a-number. -/
def isFinite : Binary64 → Bool
  | .finite .. => true
  | _ => false

end Binary64

end LintReport

namespace LintReport.Binary64

/-! ## Shortest numerals

Of the shortest digits those nearest to the number are printed. The point is written in
its place while the number is neither very large nor very small, and an exponent is
written otherwise (`text`). -/

/-- The exponent of the largest power of ten that is at most the quotient of two
positive numbers. -/
def quotientLog10 (numerator denominator : Nat) : Int :=
  let guess : Int :=
    ((Nat.toDigits 10 numerator).length : Int) - (Nat.toDigits 10 denominator).length
  let reached :=
    if 0 ≤ guess then denominator * Nat.pow 10 guess.toNat ≤ numerator
    else denominator ≤ numerator * Nat.pow 10 (-guess).toNat
  if reached then guess else guess - 1

/-- The decimals with a given scale on both sides of a quotient, the nearer one first;
of two equally near the even one comes first. -/
def neighbours (numerator denominator : Nat) (scale : Int) : Decimal × Decimal :=
  let (scaledNumerator, scaledDenominator) :=
    if 0 ≤ scale then (numerator, denominator * Nat.pow 10 scale.toNat)
    else (numerator * Nat.pow 10 (-scale).toNat, denominator)
  let below := scaledNumerator / scaledDenominator
  if roundQuotient scaledNumerator scaledDenominator = below then
    (⟨below, scale⟩, ⟨below + 1, scale⟩)
  else (⟨below + 1, scale⟩, ⟨below, scale⟩)

/-- The first of the decimals with at least `count` digits, and at most `more` digits
beyond those, that reads back as the number; the exact decimal of the number if none
of them does. -/
def shortestFrom (number : Binary64) (negative : Bool) (numerator denominator : Nat) :
    Nat → Nat → Decimal
  | 0, _ => ⟨numerator * Nat.pow 5 denominator.log2, -(denominator.log2 : Int)⟩
  | more + 1, count =>
      let scale := quotientLog10 numerator denominator - (count - 1)
      let (near, far) := neighbours numerator denominator scale
      if ofDecimal negative near = number then near
      else if ofDecimal negative far = number then far
      else shortestFrom number negative numerator denominator more (count + 1)

/-- The decimal with the fewest digits that reads back as a finite number. -/
def shortest (negative : Bool) (exponent : Fin 2047) (fraction : Fin (Nat.pow 2 52)) : Decimal :=
  let (numerator, denominator) := quotient exponent fraction
  if numerator = 0 then ⟨0, 0⟩
  else
    let number := finite negative exponent fraction
    (shortestFrom number negative numerator denominator 17 1).dropZeros

/-- The words for the numbers that no digits denote. -/
structure Words where
  infinity : String
  notANumber : String

/-- The exponent of a numeral, with its sign and two digits at least. -/
def exponentText (exponent : Int) : List Char :=
  let digits := Nat.toDigits 10 exponent.natAbs
  'e' :: (if exponent < 0 then '-' else '+') :: List.replicate (2 - digits.length) '0' ++ digits

/-- A decimal as a numeral. The point is written in its place from `0.0001` on and
below `10 ^ 16`, with a digit on both sides; all other numbers have one digit before
the point and an exponent. -/
def decimalText (decimal : Decimal) : List Char :=
  let digits := decimal.digits
  let place := decimal.pointPlace
  if decimal.coefficient = 0 then ['0', '.', '0']
  else if -4 < place ∧ place ≤ 0 then
    '0' :: '.' :: List.replicate (-place).toNat '0' ++ digits
  else if 0 < place ∧ place ≤ 16 then
    if decimal.scale < 0 then digits.take place.toNat ++ '.' :: digits.drop place.toNat
    else digits ++ List.replicate decimal.scale.toNat '0' ++ ['.', '0']
  else
    match digits with
    | [] => []
    | [digit] => digit :: exponentText (place - 1)
    | digit :: others => digit :: '.' :: others ++ exponentText (place - 1)

/-- The text of a number, with the given words for the infinities and for
not-a-number. -/
def text (words : Words) : Binary64 → List Char
  | .nan => words.notANumber.toList
  | .infinite negative => (if negative then ['-'] else []) ++ words.infinity.toList
  | .finite negative exponent fraction =>
      (if negative then ['-'] else []) ++ decimalText (shortest negative exponent fraction)

/-! ## Rounded numerals

The size of a number, a quotient of whole numbers, with a given number of digits: after the point
(`fixedText`), before and after it (`scientificText`), or in whichever of the two ways suits the
size (`generalText`). A half is rounded to the even digit. A numeral that is marked has a point
even if no digit follows. -/

/-- The digits of a number, with zeros in front up to a width. -/
def paddedDigits (width number : Nat) : List Char :=
  let digits := Nat.toDigits 10 number
  List.replicate (width - digits.length) '0' ++ digits

/-- The digits of a numeral with a point between them. -/
def withPoint (marked : Bool) (whole fraction : List Char) : List Char :=
  if fraction = [] ∧ !marked then whole else whole ++ '.' :: fraction

/-- The digits before the point and the given number of digits after it. -/
def fixedDigits (places numerator denominator : Nat) : List Char × List Char :=
  let digits :=
    paddedDigits (places + 1) (roundQuotient (numerator * Nat.pow 10 places) denominator)
  (digits.take (digits.length - places), digits.drop (digits.length - places))

/-- The numeral with so many digits after the point. -/
def fixedText (marked : Bool) (places numerator denominator : Nat) : List Char :=
  let (whole, fraction) := fixedDigits places numerator denominator
  withPoint marked whole fraction

/-- The decimal with so many digits that is nearest to a quotient. -/
def rounded (count numerator denominator : Nat) : Decimal :=
  if numerator = 0 then ⟨0, 1 - (count : Int)⟩
  else
    let scale := quotientLog10 numerator denominator - ((count : Int) - 1)
    let (near, _) := neighbours numerator denominator scale
    if Nat.pow 10 count ≤ near.coefficient then ⟨near.coefficient / 10, scale + 1⟩ else near

/-- The exponent that a decimal with so many digits is written with. -/
def roundedExponent (count : Nat) (decimal : Decimal) : Int :=
  decimal.scale + count - 1

/-- The numeral with one digit before the point, so many after it, and an exponent. -/
def scientificText (marked : Bool) (places numerator denominator : Nat) : List Char :=
  let decimal := rounded (places + 1) numerator denominator
  let digits := paddedDigits (places + 1) decimal.coefficient
  withPoint marked (digits.take 1) (digits.drop 1) ++
    exponentText (roundedExponent (places + 1) decimal)

/-- Digits without the zeros that they end with. -/
def withoutLastZeros (digits : List Char) : List Char :=
  (digits.reverse.dropWhile (· = '0')).reverse

/-- The numeral with so many digits in all, and with an exponent when the number is small
or needs more digits. Zeros at the end of the fraction are left out unless the numeral
is marked. -/
def generalText (marked : Bool) (precision numerator denominator : Nat) : List Char :=
  let count := max 1 precision
  let decimal := rounded count numerator denominator
  let exponent := roundedExponent count decimal
  let shorten (fraction : List Char) : List Char :=
    if marked then fraction else withoutLastZeros fraction
  if -4 ≤ exponent ∧ exponent < count then
    let (whole, fraction) :=
      fixedDigits ((count : Int) - 1 - exponent).toNat numerator denominator
    withPoint marked whole (shorten fraction)
  else
    let digits := paddedDigits count decimal.coefficient
    withPoint marked (digits.take 1) (shorten (digits.drop 1)) ++ exponentText exponent

end LintReport.Binary64
