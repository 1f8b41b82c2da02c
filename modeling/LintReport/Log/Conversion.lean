import LintReport.Json.Printer
import LintReport.Log.Place
import LintReport.Number.Binary64

/-! # Values at the places of a template

The letter of a place says how a value is written there (`Form`), and its marks, width
and precision say how that text is laid out (`layOut`). Numbers keep their sign and the
marker of their base apart from their digits, so that zeros can stand between them. -/

namespace LintReport.Log

open Json

/-- How a value is written at a place. -/
inductive Form where
  /-- As messages show it. -/
  | shown
  /-- With quotes around texts. -/
  | spelled
  /-- With quotes around texts, in ASCII. -/
  | ascii
  | decimal
  | octal
  | hexadecimal
  | scientific
  | fixed
  | general
  | character
  deriving DecidableEq, Repr

/-- The letters of places; a large letter writes in large letters. -/
def letters : List (Char × Form) :=
  [('s', .shown), ('r', .spelled), ('a', .ascii), ('d', .decimal), ('i', .decimal),
    ('u', .decimal), ('o', .octal), ('x', .hexadecimal), ('X', .hexadecimal),
    ('e', .scientific), ('E', .scientific), ('f', .fixed), ('F', .fixed), ('g', .general),
    ('G', .general), ('c', .character)]

/-- Why a value cannot be written at a place. -/
inductive ConversionFault where
  /-- A number is needed, and the value is of another kind. -/
  | notANumber (letter : Char) (kind : String)
  /-- A whole number is needed, and the value is of another kind. -/
  | notWhole (letter : Char) (kind : String)
  /-- A floating-point number is needed, and the value is of another kind. -/
  | notReal (kind : String)
  /-- A whole number is needed, and the value is not-a-number. -/
  | noWholeNumber
  /-- A whole number is needed, and the value is infinite. -/
  | infinite
  /-- A floating-point number is needed, and the whole number is too large for one. -/
  | tooLarge
  /-- A character is needed. -/
  | notACharacter
  /-- No character has the number. -/
  | outsideCharacters
  deriving DecidableEq, Repr

/-- The sentence for a fault. -/
def ConversionFault.message : ConversionFault → String
  | .notANumber letter kind => s!"%{letter} format: a real number is required, not {kind}"
  | .notWhole letter kind => s!"%{letter} format: an integer is required, not {kind}"
  | .notReal kind => s!"must be real number, not {kind}"
  | .noWholeNumber => "cannot convert float NaN to integer"
  | .infinite => "cannot convert float infinity to integer"
  | .tooLarge => "int too large to convert to float"
  | .notACharacter => "%c requires int or char"
  | .outsideCharacters => "%c arg not in range(0x110000)"

/-- The word for the kind of a value. -/
def kindName : Value → String
  | .null => "NoneType"
  | .bool _ => "bool"
  | .int _ => "int"
  | .float _ => "float"
  | .string _ => "str"
  | .array _ => "list"
  | .object _ => "dict"

/-- The whole number that a value is; truth values count as one and zero. -/
def exactWhole? : Value → Option Int
  | .bool value => some (if value then 1 else 0)
  | .int value => some value
  | _ => none

/-- The whole number that a value denotes without its fractional part. -/
def wholeNumber (letter : Char) (value : Value) : Except ConversionFault Int :=
  match exactWhole? value, value with
  | some whole, _ => .ok whole
  | none, .float .nan => .error .noWholeNumber
  | none, .float (.infinite _) => .error .infinite
  | none, .float number => .ok (number.truncate?.getD 0)
  | none, value => .error (.notANumber letter (kindName value))

/-- The floating-point number that a value denotes. -/
def realNumber (value : Value) : Except ConversionFault Binary64 :=
  match exactWhole? value, value with
  | some whole, _ =>
      match Binary64.nearest (whole < 0) whole.natAbs with
      | .infinite _ => .error .tooLarge
      | number => .ok number
  | none, .float number => .ok number
  | none, value => .error (.notReal (kindName value))

/-- The character that a value denotes: a text of one character, or its number. -/
def characterOf (value : Value) : Except ConversionFault Char :=
  match exactWhole? value, value with
  | some code, _ =>
      if 0 ≤ code ∧ code < 0x110000 then .ok (Char.ofNat code.toNat) else .error .outsideCharacters
  | none, .string text =>
      match text.toList with
      | [char] => .ok char
      | _ => .error .notACharacter
  | none, _ => .error .notACharacter

/-- A value in the parts that its layout tells apart. -/
structure Written where
  /-- Whether it is a number, which may have a sign and may be padded with zeros. -/
  numeric : Bool
  sign : List Char := []
  marker : List Char := []
  body : List Char
  deriving DecidableEq, Repr

/-- A minus for a negative number. -/
def minusSign (negative : Bool) : List Char :=
  if negative then ['-'] else []

/-- A text, cut off at a precision. -/
def writtenText (precision : Option Nat) (text : List Char) : Written :=
  { numeric := false
    body :=
      match precision with
      | some length => text.take length
      | none => text }

/-- A whole number in a base, with as many digits as a precision asks for. -/
def writtenWhole (base : Nat) (marker : List Char) (precision : Option Nat) (number : Int) :
    Written :=
  let digits := Nat.toDigits base number.natAbs
  { numeric := true
    sign := minusSign (number < 0)
    marker
    body := List.replicate (precision.getD 1 - digits.length) '0' ++ digits }

/-- A floating-point number; a finite one is written by the given function of its
size. -/
def writtenReal (write : Nat → Nat → List Char) : Binary64 → Written
  | .nan => { numeric := true, body := "nan".toList }
  | .infinite negative =>
      { numeric := true, sign := minusSign negative, body := "inf".toList }
  | .finite negative exponent fraction =>
      let (numerator, denominator) := Binary64.quotient exponent fraction
      { numeric := true, sign := minusSign negative, body := write numerator denominator }

/-- A text in ASCII, with numeric escapes for all other characters. -/
def asciiText (text : List Char) : List Char :=
  text.flatMap fun char => if char.toNat < 0x80 then [char] else Text.numericEscape char

/-- How a value is written in a form. The precision of a floating-point number is six
unless it is given. -/
def written (letter : Char) (form : Form) (full : Bool) (precision : Option Nat)
    (value : Value) : Except ConversionFault Written :=
  let whole (base : Nat) (mark : Char) : Except ConversionFault Written :=
    match exactWhole? value with
    | some number => .ok (writtenWhole base (if full then ['0', mark] else []) precision number)
    | none => .error (.notWhole letter (kindName value))
  let real (write : Bool → Nat → Nat → Nat → List Char) : Except ConversionFault Written :=
    (realNumber value).map (writtenReal (write full (precision.getD 6)))
  match form with
  | .shown => .ok (writtenText precision value.shown.toList)
  | .spelled => .ok (writtenText precision (spell value))
  | .ascii => .ok (writtenText precision (asciiText (spell value)))
  | .decimal => (wholeNumber letter value).map (writtenWhole 10 [] precision)
  | .octal => whole 8 'o'
  | .hexadecimal => whole 16 'x'
  | .scientific => real Binary64.scientificText
  | .fixed => real Binary64.fixedText
  | .general => real Binary64.generalText
  | .character => (characterOf value).map fun char => { numeric := false, body := [char] }

/-- A written value in large letters. -/
def Written.capitalized (value : Written) : Written :=
  { value with marker := value.marker.map Char.toUpper, body := value.body.map Char.toUpper }

/-- The sign that a written value gets from the marks of its place. -/
def Written.fullSign (value : Written) (marks : Marks) : List Char :=
  if !value.numeric ∨ value.sign ≠ [] then value.sign
  else if marks.plus then ['+']
  else if marks.blank then [' ']
  else []

/-- Lays a written value out over a width. Zeros stand between the sign and the digits,
blanks on one side of everything. -/
def layOut (marks : Marks) (width : Nat) (value : Written) : List Char :=
  let front := value.fullSign marks ++ value.marker
  let missing := width - (front.length + value.body.length)
  if marks.left then front ++ value.body ++ List.replicate missing ' '
  else if marks.zeros && value.numeric then front ++ List.replicate missing '0' ++ value.body
  else List.replicate missing ' ' ++ front ++ value.body

/-- The text of a value at a place with the given letter. -/
def convert (letter : Char) (form : Form) (marks : Marks) (width : Nat)
    (precision : Option Nat) (value : Value) : Except ConversionFault (List Char) :=
  match written letter form marks.full precision value with
  | .error fault => .error fault
  | .ok value => .ok (layOut marks width (if letter.isUpper then value.capitalized else value))

end LintReport.Log
