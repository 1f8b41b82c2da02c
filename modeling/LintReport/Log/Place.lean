/-! # Places of a template

A template is a text with places for arguments (`pieces`). A place starts with a percent
sign and ends with a letter; between them stand, in this order and all of them optional,
the name of the argument, marks, a width and a precision. A place may break off with the
template, and what is wrong with it is told only when it is filled. -/

namespace LintReport.Log

/-- The marks of a place. -/
structure Marks where
  /-- The padding stands on the right. -/
  left : Bool
  /-- A number without a sign gets a plus. -/
  plus : Bool
  /-- A number without a sign gets a blank. -/
  blank : Bool
  /-- A number is written in its fuller form. -/
  full : Bool
  /-- A number is padded with zeros. -/
  zeros : Bool
  deriving DecidableEq, Repr

/-- A width or a precision: a number, or an argument that is taken for it. -/
inductive Size where
  | number (size : Nat)
  | argument
  deriving DecidableEq, Repr

/-- The name of an argument, which may have no end. -/
inductive ArgumentName where
  | closed (name : String)
  | unclosed
  deriving DecidableEq, Repr

/-- A place for an argument. -/
structure Place where
  name : Option ArgumentName
  marks : Marks
  width : Option Size
  precision : Option Size
  /-- The letter that the place ends with, unless it breaks off. -/
  letter : Option Char
  /-- The number of characters of the template after the place. -/
  after : Nat
  deriving DecidableEq, Repr

/-- A part of a template. -/
inductive Piece where
  | char (char : Char)
  | place (place : Place)
  deriving DecidableEq, Repr

/-- A name up to the parenthesis that closes it, and what follows. The depth is the number
of parentheses that are open inside the name. -/
def splitName (depth : Nat) : List Char → Option (List Char × List Char)
  | [] => none
  | char :: rest =>
      if char = ')' ∧ depth = 0 then some ([], rest)
      else
        let depth := if char = '(' then depth + 1 else if char = ')' then depth - 1 else depth
        (splitName depth rest).map fun (name, after) => (char :: name, after)

/-- The name at the beginning of a place, and what follows. -/
def readName : List Char → Option ArgumentName × List Char
  | '(' :: rest =>
      match splitName 0 rest with
      | some (name, after) => (some (.closed (String.ofList name)), after)
      | none => (some .unclosed, [])
  | text => (none, text)

/-- Whether a character is a mark. -/
def isMark (char : Char) : Bool :=
  ['-', '+', ' ', '#', '0'].contains char

/-- The marks at the beginning of a text, and what follows. -/
def readMarks (text : List Char) : Marks × List Char :=
  let marks := text.takeWhile isMark
  ({ left := marks.contains '-'
     plus := marks.contains '+'
     blank := marks.contains ' '
     full := marks.contains '#'
     zeros := marks.contains '0' },
    text.dropWhile isMark)

/-- The number that digits of ASCII denote. -/
def sizeOf (digits : List Char) : Nat :=
  digits.foldl (fun size digit => size * 10 + (digit.toNat - '0'.toNat)) 0

/-- The size at the beginning of a text, and what follows. -/
def readSize (text : List Char) : Option Size × List Char :=
  match text with
  | '*' :: rest => (some .argument, rest)
  | text =>
      match text.takeWhile Char.isDigit with
      | [] => (none, text)
      | digits => (some (.number (sizeOf digits)), text.dropWhile Char.isDigit)

/-- The precision at the beginning of a text, and what follows. A point without a size
stands for the precision zero. -/
def readPrecision : List Char → Option Size × List Char
  | '.' :: rest =>
      let (size, after) := readSize rest
      (some (size.getD (.number 0)), after)
  | text => (none, text)

/-- A text without the letter for the length of a number, which means nothing. -/
def withoutLength : List Char → List Char
  | char :: rest => if ['h', 'l', 'L'].contains char then rest else char :: rest
  | [] => []

/-- The place that begins after a percent sign, and what follows. -/
def readPlace (text : List Char) : Place × List Char :=
  let (name, text) := readName text
  let (marks, text) := readMarks text
  let (width, text) := readSize text
  let (precision, text) := readPrecision text
  let text := withoutLength text
  ({ name, marks, width, precision, letter := text.head?, after := text.length - 1 }, text.tail)

theorem length_splitName {depth : Nat} {text name after : List Char}
    (split : splitName depth text = some (name, after)) : after.length ≤ text.length := by
  induction text generalizing depth name with
  | nil => simp [splitName] at split
  | cons char rest ih =>
      rw [splitName] at split
      split at split
      · simp only [Option.some.injEq, Prod.mk.injEq] at split
        simp [← split.2]
      · obtain ⟨⟨inner, beyond⟩, found, same⟩ := Option.map_eq_some_iff.mp split
        simp only [Prod.mk.injEq] at same
        obtain ⟨-, rfl⟩ := same
        have := ih found
        simp only [List.length_cons]
        omega

theorem length_readName (text : List Char) : (readName text).2.length ≤ text.length := by
  unfold readName
  split
  · next rest =>
      split
      · next name after split => simpa using Nat.le_succ_of_le (length_splitName split)
      · simp
  · simp

theorem length_readMarks (text : List Char) : (readMarks text).2.length ≤ text.length :=
  (List.dropWhile_suffix isMark).length_le

theorem length_readSize (text : List Char) : (readSize text).2.length ≤ text.length := by
  unfold readSize
  split
  · simp
  · split
    · simp
    · exact (List.dropWhile_suffix Char.isDigit).length_le

theorem length_readPrecision (text : List Char) :
    (readPrecision text).2.length ≤ text.length := by
  unfold readPrecision
  split
  · next rest => simpa using Nat.le_succ_of_le (length_readSize rest)
  · simp

theorem length_withoutLength (text : List Char) :
    (withoutLength text).length ≤ text.length := by
  unfold withoutLength
  split
  · split <;> simp
  · simp

/-- What follows a place is no longer than the place with what follows it. -/
theorem length_readPlace (text : List Char) : (readPlace text).2.length ≤ text.length := by
  have name := length_readName text
  have marks := length_readMarks (readName text).2
  have width := length_readSize (readMarks (readName text).2).2
  have precision := length_readPrecision (readSize (readMarks (readName text).2).2).2
  have length := length_withoutLength
    (readPrecision (readSize (readMarks (readName text).2).2).2).2
  simp only [readPlace, List.length_tail]
  omega

/-- The parts of a template, in order. Two percent signs stand for one. -/
def pieces : List Char → List Piece
  | [] => []
  | '%' :: '%' :: rest => .char '%' :: pieces rest
  | '%' :: rest => .place (readPlace rest).1 :: pieces (readPlace rest).2
  | char :: rest => .char char :: pieces rest
termination_by text => text.length
decreasing_by
  · simp only [List.length_cons]
    omega
  · have := length_readPlace rest
    simp only [List.length_cons]
    omega
  · simp

end LintReport.Log
