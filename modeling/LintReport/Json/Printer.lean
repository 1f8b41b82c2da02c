import LintReport.Json.Value
import LintReport.Number.Binary64
import LintReport.Text.Quoted

/-! # Writing JSON values

A value is written as JSON in ASCII, either on one line or with one line for each item
(`Layout`). Both layouts share one writer, which differs only in the space between
tokens, so a reader that skips space reads both alike. Inside a sentence a value is shown as a
note shows it (`Value.shown`). -/

namespace LintReport.Json

/-! ## JSON texts -/

/-- Where the space between tokens goes. -/
inductive Layout where
  /-- All on one line, with one blank after each comma. -/
  | inline
  /-- Each item on a line of its own, with so many blanks for each level. -/
  | indented (width : Nat)
  deriving DecidableEq, Repr

/-- The line break and the blanks before an item at a level, none on one line. -/
def Layout.gap (layout : Layout) (level : Nat) : List Char :=
  match layout with
  | .inline => []
  | .indented width => '\n' :: List.replicate (width * level) ' '

/-- The comma between two items at a level and the space after it. -/
def Layout.separator (layout : Layout) (level : Nat) : List Char :=
  match layout with
  | .inline => [',', ' ']
  | .indented _ => ',' :: layout.gap level

/-- The escape of a unit of sixteen bits. -/
def unitEscape (unit : Nat) : List Char :=
  '\\' :: 'u' :: Text.hexadecimal 4 unit

/-- How a character stands in a string literal. What is not a graphic character of
ASCII is given by its units, two of them beyond the first 65536 code points. -/
def writeChar (char : Char) : List Char :=
  let code := char.toNat
  if char = '"' ∨ char = '\\' then ['\\', char]
  else if char = '\n' then ['\\', 'n']
  else if char = '\r' then ['\\', 'r']
  else if char = '\t' then ['\\', 't']
  else if char = '\x08' then ['\\', 'b']
  else if char = '\x0c' then ['\\', 'f']
  else if 0x20 ≤ code ∧ code ≤ 0x7E then [char]
  else if code < 0x10000 then unitEscape code
  else
    unitEscape (0xD800 + (code - 0x10000) / 0x400) ++
      unitEscape (0xDC00 + (code - 0x10000) % 0x400)

/-- A string literal. -/
def writeString (text : String) : List Char :=
  '"' :: text.toList.flatMap writeChar ++ ['"']

/-- The words of JSON's readers for the numbers that no digits denote. -/
def floatWords : Binary64.Words where
  infinity := "Infinity"
  notANumber := "NaN"

mutual

/-- Writes a value that stands at a level. -/
def write (layout : Layout) (level : Nat) : Value → List Char
  | .null => "null".toList
  | .bool value => (if value then "true" else "false").toList
  | .int value => (toString value).toList
  | .float value => value.text floatWords
  | .string text => writeString text
  | .array [] => ['[', ']']
  | .array (item :: items) =>
      '[' :: layout.gap (level + 1) ++ writeItems layout (level + 1) (item :: items) ++
        layout.gap level ++ [']']
  | .object [] => ['{', '}']
  | .object (entry :: entries) =>
      '{' :: layout.gap (level + 1) ++ writeEntries layout (level + 1) (entry :: entries) ++
        layout.gap level ++ ['}']

/-- Writes items that stand at a level, with separators between them. -/
def writeItems (layout : Layout) (level : Nat) : List Value → List Char
  | [] => []
  | [item] => write layout level item
  | item :: items =>
      write layout level item ++ layout.separator level ++ writeItems layout level items

/-- Writes entries that stand at a level, with separators between them. -/
def writeEntries (layout : Layout) (level : Nat) : List (String × Value) → List Char
  | [] => []
  | [(name, value)] => writeString name ++ ':' :: ' ' :: write layout level value
  | (name, value) :: entries =>
      writeString name ++ ':' :: ' ' :: write layout level value ++ layout.separator level ++
        writeEntries layout level entries

end

/-- The text of a value, whether or not it can be written out. -/
def Value.print (layout : Layout) (value : Value) : String :=
  String.ofList (write layout 0 value)

/-- The text of a value, unless it cannot be written out: a whole number inside it has too
many digits, or too many containers nest. -/
def Value.dump (layout : Layout) (value : Value) : Option String :=
  if value.isSpellable ∧ value.depth ≤ maxDepth then some (value.print layout) else none

/-! ## Values inside a sentence

A string stands for itself, and anything else is spelled out, with the strings inside it
quoted. -/

/-- The words of shown text for the numbers that no digits denote. -/
def shownWords : Binary64.Words where
  infinity := "inf"
  notANumber := "nan"

mutual

/-- Spells a value out, strings in quotes. -/
def spell : Value → List Char
  | .null => "None".toList
  | .bool value => (if value then "True" else "False").toList
  | .int value => (toString value).toList
  | .float value => value.text shownWords
  | .string text => Text.quoted text.toList
  | .array items => '[' :: spellItems items ++ [']']
  | .object entries => '{' :: spellEntries entries ++ ['}']

/-- Spells items out, with commas between them. -/
def spellItems : List Value → List Char
  | [] => []
  | [item] => spell item
  | item :: items => spell item ++ ',' :: ' ' :: spellItems items

/-- Spells entries out, with commas between them. -/
def spellEntries : List (String × Value) → List Char
  | [] => []
  | [(name, value)] => Text.quoted name.toList ++ ':' :: ' ' :: spell value
  | (name, value) :: entries =>
      Text.quoted name.toList ++ ':' :: ' ' :: spell value ++ ',' :: ' ' :: spellEntries entries

end

/-- The text that a value is shown as: a string stands for itself. -/
def Value.shown : Value → String
  | .string text => text
  | value => String.ofList (spell value)

end LintReport.Json
