import LintReport.Json.Value
import LintReport.Number.Numeral
import LintReport.Text.Encoding

/-! # JSON literals

Reading a string or a number at the start of a text, and why a text is not read as a JSON value.
A fault that belongs to a place of the text carries the rest of the text from there on, so that
reading needs no counter; the offset, line and column are computed from that rest when the fault
is told (`Fault.message`). -/

namespace LintReport.Json

/-! ## Faults -/

/-- What is wrong at a place of a text. -/
inductive Cause where
  | byteOrderMark
  | noValue
  | noName
  | noColon
  | noComma
  | extraData
  | unterminatedString
  | controlCharacter
  | unknownEscape
  | brokenUnitEscape
  deriving DecidableEq, Repr

/-- A value that holds other values. -/
inductive Container where
  | array
  | object
  deriving DecidableEq, Repr

/-- Why a text is not read. -/
inductive Fault where
  /-- Something is wrong at the place where the given rest of the text begins. -/
  | misread (cause : Cause) (rest : List Char)
  /-- A container is opened inside too many others. -/
  | tooDeep (container : Container)
  /-- A whole number has too many digits. -/
  | numeralTooLong (problem : Numeral.TooManyDigits)
  deriving DecidableEq, Repr

/-- A place of a text: the characters before it, and its line and column, which count
from one. -/
structure Place where
  offset : Nat
  line : Nat
  column : Nat
  deriving DecidableEq, Repr

/-- The place where a rest of a text begins. -/
def Place.ofRest (text rest : List Char) : Place :=
  let before := text.take (text.length - rest.length)
  { offset := before.length
    line := before.count '\n' + 1
    column := (before.reverse.takeWhile (· ≠ '\n')).length + 1 }

/-- The sentence for a cause. -/
def Cause.message : Cause → String
  | .byteOrderMark => "Unexpected UTF-8 BOM (decode using utf-8-sig)"
  | .noValue => "Expecting value"
  | .noName => "Expecting property name enclosed in double quotes"
  | .noColon => "Expecting ':' delimiter"
  | .noComma => "Expecting ',' delimiter"
  | .extraData => "Extra data"
  | .unterminatedString => "Unterminated string starting at"
  | .controlCharacter => "Invalid control character at"
  | .unknownEscape => "Invalid \\escape"
  | .brokenUnitEscape => "Invalid \\uXXXX escape"

/-- The name of a container. -/
def Container.name : Container → String
  | .array => "array"
  | .object => "object"

/-- The sentence for a fault of the given text. -/
def Fault.message (text : List Char) : Fault → String
  | .misread cause rest =>
      let place := Place.ofRest text rest
      s!"{cause.message}: line {place.line} column {place.column} (char {place.offset})"
  | .tooDeep container =>
      s!"maximum recursion depth exceeded while decoding a JSON {container.name} " ++
        "from a unicode string"
  | .numeralTooLong problem => problem.message

end LintReport.Json

namespace LintReport.Json.StringLiteral

open Text.Utf16

/-! ## String literals

A `\u` escape gives one unit of sixteen bits, so reading goes in two steps: the literal is cut
into pieces (`pieces`), and two units that form a pair are then put together into
one character (`assemble`). -/

/-- One item of a literal: a character, or the sixteen-bit unit of an escape. -/
inductive Piece where
  | char (char : Char)
  | unit (unit : Nat)
  deriving DecidableEq, Repr

/-- The value of a hexadecimal digit of ASCII. -/
def hexValue? (char : Char) : Option Nat :=
  let code := char.toNat
  if 0x30 ≤ code ∧ code ≤ 0x39 then some (code - 0x30)
  else if 0x41 ≤ code ∧ code ≤ 0x46 then some (code - 0x41 + 10)
  else if 0x61 ≤ code ∧ code ≤ 0x66 then some (code - 0x61 + 10)
  else none

/-- The unit that four hexadecimal digits denote. -/
def unit? (first second third fourth : Char) : Option Nat :=
  match hexValue? first, hexValue? second, hexValue? third, hexValue? fourth with
  | some a, some b, some c, some d => some (((a * 16 + b) * 16 + c) * 16 + d)
  | _, _, _, _ => none

/-- The character that a backslash and one more character stand for. -/
def escape? (char : Char) : Option Char :=
  match char with
  | '"' => some '"'
  | '\\' => some '\\'
  | '/' => some '/'
  | 'b' => some '\x08'
  | 'f' => some '\x0c'
  | 'n' => some '\n'
  | 'r' => some '\r'
  | 't' => some '\t'
  | _ => none

/-- Puts a piece in front of what is read after it. -/
def prepend (piece : Piece) :
    Except Fault (List Piece × List Char) → Except Fault (List Piece × List Char)
  | .ok (pieces, rest) => .ok (piece :: pieces, rest)
  | .error fault => .error fault

/-- The pieces up to the closing quote, and the text after it. The text from the
opening quote on is given, because a literal without end is reported there. A unit
escape needs four digits and one more character of text. -/
def pieces (opening : List Char) : List Char → Except Fault (List Piece × List Char)
  | [] => .error (.misread .unterminatedString opening)
  | '"' :: rest => .ok ([], rest)
  | ['\\'] => .error (.misread .unterminatedString opening)
  | '\\' :: 'u' :: first :: second :: third :: fourth :: next :: rest =>
      match unit? first second third fourth with
      | some unit => prepend (.unit unit) (pieces opening (next :: rest))
      | none =>
          .error (.misread .brokenUnitEscape
            ('u' :: first :: second :: third :: fourth :: next :: rest))
  | '\\' :: letter :: rest =>
      if letter = 'u' then .error (.misread .brokenUnitEscape (letter :: rest))
      else match escape? letter with
        | some char => prepend (.char char) (pieces opening rest)
        | none => .error (.misread .unknownEscape ('\\' :: letter :: rest))
  | char :: rest =>
      if char.toNat < 0x20 then .error (.misread .controlCharacter (char :: rest))
      else prepend (.char char) (pieces opening rest)

/-- The characters of the pieces. Two neighbouring units that form a pair give one
character. -/
def assemble : List Piece → List Char
  | [] => []
  | .char char :: rest => char :: assemble rest
  | .unit leading :: .unit trailing :: rest =>
      if isLeading leading && isTrailing trailing then
        pairChar leading trailing :: assemble rest
      else unitChar leading :: assemble (.unit trailing :: rest)
  | .unit unit :: rest => unitChar unit :: assemble rest

/-- Reads a literal after its opening quote. -/
def read (opening body : List Char) : Except Fault (String × List Char) :=
  match pieces opening body with
  | .ok (found, rest) => .ok (String.ofList (assemble found), rest)
  | .error fault => .error fault

theorem prepend_eq_ok {piece : Piece} {outcome : Except Fault (List Piece × List Char)}
    {found : List Piece} {rest : List Char} (success : prepend piece outcome = .ok (found, rest)) :
    ∃ others, outcome = .ok (others, rest) ∧ found = piece :: others := by
  match outcome, success with
  | .ok (others, _), success =>
      simp only [prepend, Except.ok.injEq, Prod.mk.injEq] at success
      exact ⟨others, by rw [success.2], success.1.symm⟩

/-- Cutting a literal into pieces leaves a shorter text. -/
theorem length_lt_of_pieces {opening body rest : List Char} {found : List Piece}
    (success : pieces opening body = .ok (found, rest)) : rest.length < body.length := by
  fun_induction pieces opening body generalizing found with
  | case2 => simp_all
  | case4 _ _ _ _ _ _ _ _ ih =>
      obtain ⟨others, success, _⟩ := prepend_eq_ok success
      have := ih success
      simp only [List.length_cons] at this ⊢
      omega
  | case7 _ _ _ _ _ _ ih =>
      obtain ⟨others, success, _⟩ := prepend_eq_ok success
      have := ih success
      simp only [List.length_cons]
      omega
  | case10 _ _ _ _ _ _ _ ih =>
      obtain ⟨others, success, _⟩ := prepend_eq_ok success
      have := ih success
      simp only [List.length_cons]
      omega
  | _ => simp_all

/-- Reading a literal leaves a shorter text. -/
theorem length_lt_of_read {opening body rest : List Char} {text : String}
    (success : read opening body = .ok (text, rest)) : rest.length < body.length := by
  unfold read at success
  split at success
  · next found _ cut =>
      simp only [Except.ok.injEq, Prod.mk.injEq] at success
      exact success.2 ▸ length_lt_of_pieces cut
  · simp at success

end LintReport.Json.StringLiteral

namespace LintReport.Json

/-! ## Number literals

The longest literal is taken: a point or an exponent mark without a digit after it is left in the
text. A literal with a fraction or an exponent denotes a floating-point number, any other a whole
number. -/

/-- The parts of a number literal: its sign, the digits before the point, those after
it, and the exponent. -/
structure NumberLiteral where
  negative : Bool
  whole : List Char
  fraction : Option (List Char)
  exponent : Option Int
  deriving DecidableEq, Repr

namespace NumberLiteral

/-- The digits that a text starts with, and the rest. -/
def digitsOf (text : List Char) : List Char × List Char :=
  (text.takeWhile Char.isDigit, text.dropWhile Char.isDigit)

/-- The minus sign that a text may start with. -/
def minusOf : List Char → Bool × List Char
  | '-' :: rest => (true, rest)
  | rest => (false, rest)

/-- The digits of a whole number, which have no leading zero. -/
def wholeOf? : List Char → Option (List Char × List Char)
  | [] => none
  | char :: rest =>
      if char = '0' then some ([char], rest)
      else if char.isDigit then some (char :: (digitsOf rest).1, (digitsOf rest).2)
      else none

/-- The digits after a point, if there is a point with a digit after it. -/
def fractionOf (text : List Char) : Option (List Char) × List Char :=
  match text with
  | '.' :: rest =>
      match digitsOf rest with
      | ([], _) => (none, text)
      | (digits, rest) => (some digits, rest)
  | _ => (none, text)

/-- The exponent after its mark, if there is a mark with a digit after it or after its
sign. -/
def exponentOf (text : List Char) : Option Int × List Char :=
  match text with
  | [] => (none, [])
  | mark :: rest =>
      if mark = 'e' ∨ mark = 'E' then
        let (negative, rest) := Numeral.splitSign rest
        match digitsOf rest with
        | ([], _) => (none, text)
        | (digits, rest) => (some (Numeral.signed negative (Text.digitsValue digits)), rest)
      else (none, text)

/-- The longest number literal that a text starts with, and the rest. -/
def read? (text : List Char) : Option (NumberLiteral × List Char) :=
  let (negative, rest) := minusOf text
  match wholeOf? rest with
  | none => none
  | some (whole, rest) =>
      let (fraction, rest) := fractionOf rest
      let (exponent, rest) := exponentOf rest
      some ({ negative, whole, fraction, exponent }, rest)

/-- The value of a literal. -/
def value (literal : NumberLiteral) : Except Fault Value :=
  if literal.fraction.isNone ∧ literal.exponent.isNone then
    match Numeral.ofDigits literal.whole with
    | .error problem => .error (.numeralTooLong problem)
    | .ok size => .ok (.int (Numeral.signed literal.negative size))
  else
    let fraction := literal.fraction.getD []
    .ok (.float (.ofDecimal literal.negative
      { coefficient := Text.digitsValue (literal.whole ++ fraction)
        scale := literal.exponent.getD 0 - fraction.length }))

theorem length_digitsOf_le (text : List Char) : (digitsOf text).2.length ≤ text.length :=
  (List.dropWhile_suffix _).length_le

theorem length_minusOf_le (text : List Char) : (minusOf text).2.length ≤ text.length := by
  unfold minusOf
  split <;> simp

theorem length_splitSign_le (text : List Char) :
    (Numeral.splitSign text).2.length ≤ text.length := by
  unfold Numeral.splitSign
  split <;> simp

theorem length_fractionOf_le (text : List Char) : (fractionOf text).2.length ≤ text.length := by
  unfold fractionOf
  split
  · next rest =>
      have shorter := length_digitsOf_le rest
      split
      · simp
      · next cut =>
          simp only [cut] at shorter
          simp only [List.length_cons]
          omega
  · simp

theorem length_exponentOf_le (text : List Char) : (exponentOf text).2.length ≤ text.length := by
  unfold exponentOf
  split
  · simp
  · next mark rest =>
      have unsigned := length_splitSign_le rest
      have shorter := length_digitsOf_le (Numeral.splitSign rest).2
      split
      · dsimp only
        split
        · simp
        · next cut =>
            simp only [cut] at shorter
            simp only [List.length_cons]
            omega
      · simp

/-- Reading a literal leaves a shorter text. -/
theorem length_lt_of_read? {text rest : List Char} {literal : NumberLiteral}
    (success : read? text = some (literal, rest)) : rest.length < text.length := by
  unfold read? at success
  have start := length_minusOf_le text
  generalize minusOf text = sign at success start
  match whole : wholeOf? sign.2 with
  | none => simp [whole] at success
  | some (digits, middle) =>
      simp only [whole, Option.some.injEq, Prod.mk.injEq] at success
      have ending := length_exponentOf_le (fractionOf middle).2
      have fraction := length_fractionOf_le middle
      have shorter : middle.length < sign.2.length := by
        unfold wholeOf? at whole
        split at whole
        · simp at whole
        · next others same =>
            rw [same]
            have := length_digitsOf_le others
            split at whole
            · simp only [Option.some.injEq, Prod.mk.injEq] at whole
              simp [← whole.2]
            · split at whole
              · simp only [Option.some.injEq, Prod.mk.injEq] at whole
                simp only [← whole.2, List.length_cons]
                omega
              · simp at whole
      rw [← success.2]
      omega

end NumberLiteral

end LintReport.Json
