/-! # Encodings of text

Reading bytes as text. Bytes that are no UTF-8 never stop the reading (`Utf8.decode`): the
longest start of a sequence that cannot be finished becomes one replacement character,
and reading goes on with the byte after it. Who does not want them replaced can ask
for the first of them (`Utf8.fault?`). Units of sixteen bits are read as text where JSON gives
them (`Utf16.decode`). When nobody says in which encoding the bytes of a JSON text are, they
tell it themselves (`Encoding.read?`). -/

namespace LintReport.Text.Utf8

/-! ## UTF-8 -/

/-- What stands for bytes that are no UTF-8. -/
def replacement : Char := '\uFFFD'

/-- What the first byte of a longer sequence asks for: the number of bytes that follow,
and the bounds of the first of them. -/
structure Lead where
  following : Nat
  low : Nat
  high : Nat
  deriving DecidableEq, Repr

/-- What a byte asks for as the first of a longer sequence. The bounds leave out
sequences that are too long for their character, surrogates, and code points that are
too large. -/
def lead? (byte : Nat) : Option Lead :=
  if byte < 0xC2 then none
  else if byte ≤ 0xDF then some ⟨1, 0x80, 0xBF⟩
  else if byte = 0xE0 then some ⟨2, 0xA0, 0xBF⟩
  else if byte = 0xED then some ⟨2, 0x80, 0x9F⟩
  else if byte ≤ 0xEF then some ⟨2, 0x80, 0xBF⟩
  else if byte = 0xF0 then some ⟨3, 0x90, 0xBF⟩
  else if byte ≤ 0xF3 then some ⟨3, 0x80, 0xBF⟩
  else if byte = 0xF4 then some ⟨3, 0x80, 0x8F⟩
  else none

/-- The bits that the first byte of a sequence gives to the code point, by the number of
bytes that follow it. -/
def leadBits (following byte : Nat) : Nat :=
  byte % Nat.pow 2 (6 - following)

/-- Finishes a sequence: its character, or the replacement where a byte is missing or
out of bounds, and the bytes that are left. -/
def finish : Nat → Nat → Nat → Nat → List UInt8 → Char × List UInt8
  | 0, _, _, code, bytes => (Char.ofNat code, bytes)
  | _ + 1, _, _, _, [] => (replacement, [])
  | following + 1, low, high, code, byte :: bytes =>
      if low ≤ byte.toNat ∧ byte.toNat ≤ high then
        finish following 0x80 0xBF (code * 64 + byte.toNat % 64) bytes
      else (replacement, byte :: bytes)

/-- The first character of some bytes, and the bytes that are left. -/
def next (first : UInt8) (bytes : List UInt8) : Char × List UInt8 :=
  let byte := first.toNat
  if byte < 0x80 then (Char.ofNat byte, bytes)
  else match lead? byte with
    | none => (replacement, bytes)
    | some lead =>
        finish lead.following lead.low lead.high (leadBits lead.following byte) bytes

theorem length_finish_le (following low high code : Nat) (bytes : List UInt8) :
    (finish following low high code bytes).2.length ≤ bytes.length := by
  induction following generalizing low high code bytes with
  | zero => simp [finish]
  | succ following ih =>
      cases bytes with
      | nil => simp [finish]
      | cons byte bytes =>
          simp only [finish]
          split
          · exact Nat.le_succ_of_le (ih ..)
          · simp

theorem length_next_le (first : UInt8) (bytes : List UInt8) :
    (next first bytes).2.length ≤ bytes.length := by
  unfold next
  dsimp only
  split
  · simp
  · split
    · simp
    · exact length_finish_le ..

/-- The text that bytes are read as. -/
def decode : List UInt8 → List Char
  | [] => []
  | first :: bytes =>
      let found := next first bytes
      have := length_next_le first bytes
      found.1 :: decode found.2
termination_by bytes => bytes.length
decreasing_by
  simp only [List.length_cons]
  omega

/-- Why bytes are no UTF-8. -/
inductive FaultKind where
  /-- No sequence starts with the byte. -/
  | start
  /-- A sequence goes on with a byte that cannot stand there. -/
  | continuation
  /-- The bytes end before the sequence does. -/
  | truncated
  deriving DecidableEq, Repr

/-- The words for a kind of fault. -/
def FaultKind.words : FaultKind → String
  | .start => "invalid start byte"
  | .continuation => "invalid continuation byte"
  | .truncated => "unexpected end of data"

/-- Bytes that are no UTF-8: the place of the first of them, the start of a sequence that
they are, and why it is not finished. -/
structure Fault where
  place : Nat
  bytes : List UInt8
  kind : FaultKind
  deriving DecidableEq, Repr

/-- The sentence that tells a reader of a fault. -/
def Fault.message (fault : Fault) : String :=
  let bytes :=
    match fault.bytes with
    | [byte] =>
        let digits := String.ofList (Nat.toDigits 16 byte.toNat)
        s!"byte 0x{digits} in position {fault.place}"
    | bytes => s!"bytes in position {fault.place}-{fault.place + bytes.length - 1}"
  s!"'utf-8' codec can't decode {bytes}: {fault.kind.words}"

/-- The first fault in bytes that start at the given place. A character that is read from
other bytes than its own is a replacement. -/
def faultFrom? (place : Nat) : List UInt8 → Option Fault
  | [] => none
  | first :: bytes =>
      let found := next first bytes
      have := length_next_le first bytes
      let own := String.utf8EncodeChar found.1
      if own.isPrefixOf (first :: bytes) then faultFrom? (place + own.length) found.2
      else
        some
          { place
            bytes := first :: bytes.take (bytes.length - found.2.length)
            kind :=
              if (lead? first.toNat).isNone then .start
              else if found.2.isEmpty then .truncated
              else .continuation }
termination_by bytes => bytes.length
decreasing_by
  simp only [List.length_cons]
  omega

/-- The first fault in bytes; there is none in bytes that are UTF-8. -/
def fault? (bytes : List UInt8) : Option Fault :=
  faultFrom? 0 bytes

end LintReport.Text.Utf8

namespace LintReport.Text.Utf16

/-! ## UTF-16

Two units that form a pair give one character; half of a pair on its own is no character, and a
replacement stands in for it. A text with that replacement may be one that no encoding can
write. -/

/-- The first unit of a pair. -/
def isLeading (unit : Nat) : Bool :=
  0xD800 ≤ unit && unit < 0xDC00

/-- The second unit of a pair. -/
def isTrailing (unit : Nat) : Bool :=
  0xDC00 ≤ unit && unit < 0xE000

/-- The character that stands in for half of a pair on its own. -/
def standIn : Char := '\uFFFD'

/-- The character of a unit on its own, which for half of a pair is only a stand-in. -/
def unitChar (unit : Nat) : Char :=
  if isLeading unit || isTrailing unit then standIn else Char.ofNat unit

/-- The character of a pair. -/
def pairChar (leading trailing : Nat) : Char :=
  Char.ofNat (0x10000 + (leading - 0xD800) * 0x400 + (trailing - 0xDC00))

/-- The text that units are read as. -/
def decode : List Nat → List Char
  | [] => []
  | leading :: trailing :: rest =>
      if isLeading leading && isTrailing trailing then pairChar leading trailing :: decode rest
      else unitChar leading :: decode (trailing :: rest)
  | [unit] => [unitChar unit]

end LintReport.Text.Utf16

namespace LintReport.Text

/-! ## Bytes that tell of their encoding

A JSON text starts with characters of ASCII, perhaps after a mark, so the zeros among its first
four bytes tell how wide its characters are and in which order their bytes stand. Bytes that are
no text in that encoding are refused, except that half of a surrogate pair is read as a
replacement character. -/

/-- The order of the bytes of a wide character. -/
inductive ByteOrder where
  | highFirst
  | lowFirst
  deriving DecidableEq, Repr

/-- How text is written as bytes. -/
inductive Encoding where
  | utf8
  | utf16 (order : ByteOrder)
  | utf32 (order : ByteOrder)
  deriving DecidableEq, Repr

namespace Encoding

/-- Which of the first four bytes are zero. -/
def zeros (bytes : List UInt8) : List Bool :=
  (bytes.take 4).map (· = 0)

/-- The encoding that the first bytes of a JSON text tell of: the mark of an encoding,
or else the zeros among them. -/
def guess (bytes : List UInt8) : Encoding :=
  if [0xFF, 0xFE, 0, 0].isPrefixOf bytes then .utf32 .lowFirst
  else if [0xFF, 0xFE].isPrefixOf bytes then .utf16 .lowFirst
  else if [0xFE, 0xFF].isPrefixOf bytes then .utf16 .highFirst
  else
    match zeros bytes with
    | [true, true, _, _] => .utf32 .highFirst
    | [true, false, _, _] => .utf16 .highFirst
    | [false, true, true, true] => .utf32 .lowFirst
    | [false, true, _, _] => .utf16 .lowFirst
    | [true, _] => .utf16 .highFirst
    | [false, true] => .utf16 .lowFirst
    | _ => .utf8

/-- The number that two bytes make up. -/
def pairValue (order : ByteOrder) (first second : UInt8) : Nat :=
  match order with
  | .highFirst => first.toNat * 0x100 + second.toNat
  | .lowFirst => second.toNat * 0x100 + first.toNat

/-- The numbers that the bytes make up two by two. -/
def pairValues? (order : ByteOrder) : List UInt8 → Option (List Nat)
  | [] => some []
  | first :: second :: rest => (pairValues? order rest).map (pairValue order first second :: ·)
  | [_] => none

/-- The number that two halves make up. -/
def wideValue (order : ByteOrder) (first second : Nat) : Nat :=
  match order with
  | .highFirst => first * 0x10000 + second
  | .lowFirst => second * 0x10000 + first

/-- The characters whose code points are given in halves. -/
def wideChars? (order : ByteOrder) : List Nat → Option (List Char)
  | [] => some []
  | first :: second :: rest =>
      let code := wideValue order first second
      if code ≤ 0x10FFFF then (wideChars? order rest).map (Utf16.unitChar code :: ·) else none
  | [_] => none

/-- The text that bytes are the encoding of. -/
def decode? (encoding : Encoding) (bytes : List UInt8) : Option (List Char) :=
  match encoding with
  | .utf8 =>
      let text := Utf8.decode bytes
      if (String.ofList text).toUTF8.data.toList = bytes then some text else none
  | .utf16 order => (pairValues? order bytes).map Utf16.decode
  | .utf32 order => (pairValues? order bytes).bind (wideChars? order)

/-- The text of bytes in the encoding that they tell of. -/
def read? (bytes : List UInt8) : Option (List Char) :=
  (guess bytes).decode? bytes

end Encoding

end LintReport.Text
