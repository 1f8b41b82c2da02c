import LintReport.Log.Conversion

/-! # Message templates

Filling arguments into the message of a record. Places take the arguments one after
another, and there must be as many arguments as places; but a single object is asked for
its values by their names, and need not be used (`Supply`). A template is filled from its
start, so the first place with a fault decides. -/

namespace LintReport.Log

open Json

/-- Why a template cannot be filled. -/
inductive TemplateFault where
  /-- There are more places than arguments. -/
  | tooFew
  /-- There are more arguments than places. -/
  | tooMany
  /-- The template ends in the middle of a place. -/
  | incomplete
  /-- The template ends in the middle of a name. -/
  | openName
  /-- A place has a name, but the arguments have none. -/
  | noNames
  /-- No argument has the name. -/
  | unknownName (name : String)
  /-- The argument for a width or a precision is no whole number. -/
  | sizeNotWhole
  /-- The argument for a width or a precision does not fit into a number of the named
  kind. -/
  | sizeOutOfRange (kind : String)
  /-- A width in the template is too large. -/
  | widthTooLarge
  /-- A precision in the template is too large. -/
  | precisionTooLarge
  /-- A place has a letter that stands for nothing. -/
  | unknownLetter (letter : Char) (index : Nat)
  /-- The argument does not suit the letter of its place. -/
  | unsuited (fault : ConversionFault)
  deriving DecidableEq, Repr

/-- A letter as a message shows it: a question mark in place of one that is not
ASCII. -/
def shownLetter (letter : Char) : Char :=
  if 0x1F ≤ letter.toNat ∧ letter.toNat ≤ 0x7E then letter else '?'

/-- The sentence for a fault. -/
def TemplateFault.message : TemplateFault → String
  | .tooFew => "not enough arguments for format string"
  | .tooMany => "not all arguments converted during string formatting"
  | .incomplete => "incomplete format"
  | .openName => "incomplete format key"
  | .noNames => "format requires a mapping"
  | .unknownName name => Text.inQuotes name
  | .sizeNotWhole => "* wants int"
  | .sizeOutOfRange kind => s!"Python int too large to convert to C {kind}"
  | .widthTooLarge => "width too big"
  | .precisionTooLarge => "precision too big"
  | .unknownLetter letter index =>
      s!"unsupported format character '{shownLetter letter}' " ++
        s!"(0x{String.ofList (Nat.toDigits 16 letter.toNat)}) at index {index}"
  | .unsuited fault => fault.message

/-- Where the values for the places come from. -/
inductive Supply where
  /-- The values, one after another. -/
  | inOrder (values : List Value)
  /-- The entries of an object, and the value that the next place takes. -/
  | byName (entries : Keyed Value) (next : Option Value)
  deriving DecidableEq

namespace Supply

/-- The supply that arguments make up. -/
def ofArguments : List Value → Supply
  | [.object (entry :: entries)] =>
      .byName (entry :: entries) (some (.object (entry :: entries)))
  | values => .inOrder values

/-- The next value, and the supply after it. -/
def next : Supply → Except TemplateFault (Value × Supply)
  | .inOrder (value :: values) => .ok (value, .inOrder values)
  | .byName entries (some value) => .ok (value, .byName entries none)
  | _ => .error .tooFew

/-- The supply whose next value is the one with a name. -/
def select (name : ArgumentName) : Supply → Except TemplateFault Supply
  | .inOrder _ => .error .noNames
  | .byName entries _ =>
      match name with
      | .unclosed => .error .openName
      | .closed name =>
          match entries.get? name with
          | some value => .ok (.byName entries (some value))
          | none => .error (.unknownName name)

/-- The fault of values that are left over at the end. -/
def leftOver? : Supply → Option TemplateFault
  | .inOrder (_ :: _) => some .tooMany
  | _ => none

end Supply

/-- The largest of the numbers with so many bits, one of them for the sign. -/
def largestOfBits (bits : Nat) : Nat :=
  Nat.pow 2 (bits - 1) - 1

/-- The whole number that is given for a width or a precision, and the supply after it. -/
def takeSize (bits : Nat) (kind : String) (supply : Supply) :
    Except TemplateFault (Int × Supply) :=
  match supply.next with
  | .error fault => .error fault
  | .ok (value, supply) =>
      match exactWhole? value with
      | none => .error .sizeNotWhole
      | some size =>
          if -(largestOfBits bits : Int) - 1 ≤ size ∧ size ≤ largestOfBits bits then
            .ok (size, supply)
          else .error (.sizeOutOfRange kind)

/-- The width of a place, whether an argument asks for padding on the right, and the
supply after it. -/
def widthOf (place : Place) (supply : Supply) : Except TemplateFault (Nat × Bool × Supply) :=
  match place.width with
  | none => .ok (0, false, supply)
  | some (.number width) =>
      if width ≤ largestOfBits 64 then .ok (width, false, supply) else .error .widthTooLarge
  | some .argument =>
      match takeSize 64 "ssize_t" supply with
      | .error fault => .error fault
      | .ok (width, supply) => .ok (width.natAbs, width < 0, supply)

/-- The precision of a place, and the supply after it. One below zero counts as zero. -/
def precisionOf (place : Place) (supply : Supply) :
    Except TemplateFault (Option Nat × Supply) :=
  match place.precision with
  | none => .ok (none, supply)
  | some (.number precision) =>
      if precision ≤ largestOfBits 32 then .ok (some precision, supply)
      else .error .precisionTooLarge
  | some .argument =>
      match takeSize 32 "int" supply with
      | .error fault => .error fault
      | .ok (precision, supply) => .ok (some precision.toNat, supply)

/-- The supply once the name of a place has been looked up. -/
def supplyOf (place : Place) (supply : Supply) : Except TemplateFault Supply :=
  match place.name with
  | some name => supply.select name
  | none => .ok supply

/-- The text of a place of a template with so many characters, and the supply after
it. -/
def fillPlace (length : Nat) (place : Place) (supply : Supply) :
    Except TemplateFault (List Char × Supply) := do
  let supply ← supplyOf place supply
  let (width, left, supply) ← widthOf place supply
  let (precision, supply) ← precisionOf place supply
  match place.letter with
  | none => .error .incomplete
  | some letter =>
      let (value, supply) ← supply.next
      match letters.lookup letter with
      | none => .error (.unknownLetter letter (length - place.after - 1))
      | some form =>
          let marks := { place.marks with left := place.marks.left || left }
          match convert letter form marks width precision value with
          | .error fault => .error (.unsuited fault)
          | .ok text => .ok (text, supply)

/-- The text of the parts of a template with so many characters. -/
def fillPieces (length : Nat) : List Piece → Supply → Except TemplateFault (List Char)
  | [], supply =>
      match supply.leftOver? with
      | some fault => .error fault
      | none => .ok []
  | .char char :: others, supply => (fillPieces length others supply).map (char :: ·)
  | .place place :: others, supply =>
      match fillPlace length place supply with
      | .error fault => .error fault
      | .ok (text, supply) => (fillPieces length others supply).map (text ++ ·)

/-- Fills the arguments in. Without arguments the template stands as it is. -/
def fill (template : String) (arguments : List Value) : Except TemplateFault String :=
  match arguments with
  | [] => .ok template
  | arguments =>
      (fillPieces template.length (pieces template.toList) (Supply.ofArguments arguments)).map
        String.ofList

end LintReport.Log
