import LintReport.Text.Basic

/-! # Integers written as text

Reading an integer from a text of its own (`Numeral.read`): outer padding, one
sign, then digits of any script with single underscores between them. A numeral
of too many digits is refused whatever follows it. -/

namespace LintReport.Numeral

open LintReport.Text

/-- The most digits that a numeral may have. -/
def maxDigits : Nat := 4300

/-- More digits than a numeral may have. -/
structure TooManyDigits where
  count : Nat
  deriving DecidableEq, Repr

/-- The sentence that tells a reader that a numeral is too long. -/
def TooManyDigits.message (problem : TooManyDigits) : String :=
  s!"Exceeds the limit ({maxDigits} digits) for integer string conversion: " ++
    s!"value has {problem.count} digits; use sys.set_int_max_str_digits() to increase the limit"

/-- The number that a run of digits denotes, unless there are too many of them. -/
def ofDigits (digits : List Char) : Except TooManyDigits Nat :=
  if maxDigits < digits.length then .error ⟨digits.length⟩ else .ok (digitsValue digits)

/-- Why a text is not read as an integer. -/
inductive Fault where
  /-- It does not have the form of a numeral. -/
  | malformed
  /-- It has more digits than a numeral may have. -/
  | tooLong (problem : TooManyDigits)
  deriving DecidableEq, Repr

/-- Padding around a numeral: the ASCII spaces and line controls, and any other
blank outside ASCII, which leaves out the ASCII information separators. -/
def isPadding (char : Char) : Bool :=
  isBlank char && !(0x1C ≤ char.toNat && char.toNat ≤ 0x1F)

/-- The sign that a numeral may start with, whether it is negative, and the rest. -/
def splitSign : List Char → Bool × List Char
  | '-' :: rest => (true, rest)
  | '+' :: rest => (false, rest)
  | rest => (false, rest)

/-- What the run of digits in a numeral is made of. -/
def isRunChar (char : Char) : Bool :=
  isDigit char || char == '_'

/-- Underscores are well placed when each has a digit on both sides. The flag says
whether a digit came just before. -/
def underscoresSeparate : Bool → List Char → Bool
  | digitBefore, [] => digitBefore
  | digitBefore, char :: rest =>
      if char = '_' then digitBefore && underscoresSeparate false rest
      else underscoresSeparate true rest

/-- The integer with the given sign and size. -/
def signed (negative : Bool) (size : Nat) : Int :=
  if negative then -(size : Int) else size

/-- Reads a text as an integer. -/
def read (text : List Char) : Except Fault Int :=
  let (negative, body) := splitSign (text.dropWhile isPadding)
  let run := body.takeWhile isRunChar
  if !underscoresSeparate false run then .error .malformed
  else match ofDigits (run.filter isDigit) with
    | .error problem => .error (.tooLong problem)
    | .ok size =>
        if (body.dropWhile isRunChar).all isPadding then .ok (signed negative size)
        else .error .malformed

example : read " +1_000\n".toList = .ok 1000 := by rfl

example : read "1__0".toList = .error .malformed := by rfl

end LintReport.Numeral
