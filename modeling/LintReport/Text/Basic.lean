/-! # Characters and lines

A text is a list of characters here, so that every rule is a rule on lists. Blank
characters are trimmed off its two ends (`trim`); the decimal digits of every script come in
runs of ten (`digitValue?`); and a text is cut at its newlines and put together again, with
the three spellings of a line end read as one (`unifyLineEnds`). -/

namespace LintReport.Text

/-! ## Blank characters -/

/-- A character is blank when it is a white-space character, a line or paragraph
separator, or one of the four information separators. -/
def isBlank (char : Char) : Bool :=
  let code := char.toNat
  (0x09 ≤ code && code ≤ 0x0D) || (0x1C ≤ code && code ≤ 0x20) || code == 0x85 ||
    code == 0xA0 || code == 0x1680 || (0x2000 ≤ code && code ≤ 0x200A) || code == 0x2028 ||
    code == 0x2029 || code == 0x202F || code == 0x205F || code == 0x3000

/-- The text without the blanks it starts with. -/
def trimStart (text : List Char) : List Char :=
  text.dropWhile isBlank

/-- The text without the blanks it ends with. -/
def trimEnd (text : List Char) : List Char :=
  (text.reverse.dropWhile isBlank).reverse

/-- The text without the blanks at its two ends. -/
def trim (text : List Char) : List Char :=
  trimEnd (trimStart text)

/-- A text is blank when all of its characters are. -/
def isBlankText (text : List Char) : Bool :=
  text.all isBlank

/-- The blanks of a lone newline or carriage return are dropped like any other. -/
example : trim ['\r', ' ', 'a', ' ', 'b', '\n'] = ['a', ' ', 'b'] := by decide

/-! ## Decimal digits -/

/-- The code points of the zeros, one for each run of ten digits. -/
def digitZeros : List Nat :=
  [0x30, 0x660, 0x6F0, 0x7C0, 0x966, 0x9E6, 0xA66, 0xAE6, 0xB66, 0xBE6, 0xC66, 0xCE6, 0xD66,
    0xDE6, 0xE50, 0xED0, 0xF20, 0x1040, 0x1090, 0x17E0, 0x1810, 0x1946, 0x19D0, 0x1A80, 0x1A90,
    0x1B50, 0x1BB0, 0x1C40, 0x1C50, 0xA620, 0xA8D0, 0xA900, 0xA9D0, 0xA9F0, 0xAA50, 0xABF0,
    0xFF10, 0x104A0, 0x10D30, 0x11066, 0x110F0, 0x11136, 0x111D0, 0x112F0, 0x11450, 0x114D0,
    0x11650, 0x116C0, 0x11730, 0x118E0, 0x11950, 0x11C50, 0x11D50, 0x11DA0, 0x16A60, 0x16AC0,
    0x16B50, 0x1D7CE, 0x1D7D8, 0x1D7E2, 0x1D7EC, 0x1D7F6, 0x1E140, 0x1E2F0, 0x1E950, 0x1FBF0]

/-- The value of a decimal digit, from 0 to 9; nothing for any other character. -/
def digitValue? (char : Char) : Option Nat :=
  (digitZeros.find? fun origin => origin ≤ char.toNat && char.toNat < origin + 10).map
    fun origin => char.toNat - origin

/-- A character is a digit when it has a digit value. -/
def isDigit (char : Char) : Bool :=
  (digitValue? char).isSome

/-- The number that a run of digit values denotes, the first being the highest. -/
def positional (values : List Nat) : Nat :=
  values.foldl (fun number value => 10 * number + value) 0

/-- The number that the digits of a text denote, whatever stands between them. -/
def digitsValue (text : List Char) : Nat :=
  positional (text.filterMap digitValue?)

/-- Digits of different scripts may stand in one number. -/
example : digitsValue ['1', '\u0662'] = 12 := by decide

/-! ## Lines -/

/-- The pieces between the occurrences of a character; there is one more of them
than there are occurrences. -/
def splitAt (mark : Char) : List Char → List (List Char)
  | [] => [[]]
  | char :: rest =>
      if char = mark then [] :: splitAt mark rest
      else match splitAt mark rest with
        | [] => [[char]]
        | piece :: pieces => (char :: piece) :: pieces

/-- The lines of a text, which a newline ends. -/
def lines (text : List Char) : List (List Char) :=
  splitAt '\n' text

/-- The texts one after another with a separator between neighbours. -/
def join (separator : List Char) : List (List Char) → List Char
  | [] => []
  | [piece] => piece
  | piece :: pieces => piece ++ separator ++ join separator pieces

/-- The text with every carriage return, alone or before a newline, read as a
newline. -/
def unifyLineEnds : List Char → List Char
  | [] => []
  | '\r' :: '\n' :: rest => '\n' :: unifyLineEnds rest
  | char :: rest => (if char = '\r' then '\n' else char) :: unifyLineEnds rest

/-- A needle occurs in a text when it starts at some place of the text. -/
def occurs (needle : List Char) : List Char → Bool
  | [] => needle.isEmpty
  | char :: rest => needle.isPrefixOf (char :: rest) || occurs needle rest

/-- What follows a given beginning; nothing when the text begins otherwise. -/
def after? : List Char → List Char → Option (List Char)
  | [], text => some text
  | _ :: _, [] => none
  | expected :: beginning, char :: rest => if expected = char then after? beginning rest else none

theorem splitAt_ne_nil (mark : Char) (text : List Char) : splitAt mark text ≠ [] := by
  cases text with
  | nil => simp [splitAt]
  | cons char rest =>
      simp only [splitAt]
      split
      · simp
      · split <;> simp

/-- Joining the pieces with the mark gives the text back. -/
theorem join_splitAt (mark : Char) (text : List Char) :
    join [mark] (splitAt mark text) = text := by
  induction text with
  | nil => rfl
  | cons char rest ih =>
      cases pieces : splitAt mark rest with
      | nil => exact absurd pieces (splitAt_ne_nil mark rest)
      | cons piece more =>
          rw [pieces] at ih
          by_cases same : char = mark
          · subst same
            simp [splitAt, pieces, join, ih]
          · cases more with
            | nil => simp_all [splitAt, join]
            | cons next others => simp_all [splitAt, join]

end LintReport.Text
