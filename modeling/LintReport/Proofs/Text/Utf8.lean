import LintReport.Text.Encoding
import Mathlib.Data.List.Induction

/-! # UTF-8 read back

The bytes of a character are taken off whole, whatever comes after them
(`next_utf8EncodeChar`), so the bytes of a text are read as the text, and bytes that start with
them as something that starts with it (`decode_encode_append`). There is no fault in bytes exactly
if they are those of a text (`fault?_eq_none_iff`). A text that starts in ASCII is also read back
where its bytes have to tell of their encoding themselves (`Encoding.read?_encode`). -/

namespace LintReport.Text.Utf8

/-- The bytes of a text. -/
def encode (text : List Char) : List UInt8 :=
  (String.ofList text).toUTF8.data.toList

/-- The bytes of a text are those of its characters, one after the other. -/
theorem encode_eq_flatMap (text : List Char) :
    encode text = text.flatMap String.utf8EncodeChar := by
  rw [encode, String.toUTF8_eq_toByteArray, String.toByteArray_ofList, List.utf8Encode,
    List.toList_data_toByteArray]

theorem encode_cons (char : Char) (text : List Char) :
    encode (char :: text) = String.utf8EncodeChar char ++ encode text := by
  rw [encode_eq_flatMap, encode_eq_flatMap, List.flatMap_cons]

/-- A character of ASCII is one byte. -/
theorem encode_cons_ascii {char : Char} (ascii : char.toNat < 0x80) (text : List Char) :
    encode (char :: text) = UInt8.ofNat char.toNat :: encode text := by
  have one : char.val.toNat ≤ 0x7f := Nat.le_of_lt_succ ascii
  rw [encode_cons, String.utf8EncodeChar]
  simp only [one, if_true]
  rfl

/-! ## Bytes of one character -/

theorem lead?_two {byte : Nat} (low : 0xC2 ≤ byte) (high : byte ≤ 0xDF) :
    lead? byte = some ⟨1, 0x80, 0xBF⟩ := by
  rw [lead?, if_neg (by omega), if_pos high]

/-- The first of three bytes; the smallest one and the one before the surrogates have bounds of
their own. -/
theorem lead?_three {byte : Nat} (low : 0xE0 ≤ byte) (high : byte ≤ 0xEF) :
    lead? byte = some
      ⟨2, if byte = 0xE0 then 0xA0 else 0x80, if byte = 0xED then 0x9F else 0xBF⟩ := by
  rw [lead?, if_neg (by omega), if_neg (by omega)]
  by_cases smallest : byte = 0xE0
  · subst smallest
    rfl
  · by_cases surrogate : byte = 0xED
    · subst surrogate
      rfl
    · simp only [smallest, surrogate, high, if_false, if_true]

/-- The first of four bytes; the smallest and the largest one have bounds of their own. -/
theorem lead?_four {byte : Nat} (low : 0xF0 ≤ byte) (high : byte ≤ 0xF4) :
    lead? byte = some
      ⟨3, if byte = 0xF0 then 0x90 else 0x80, if byte = 0xF4 then 0x8F else 0xBF⟩ := by
  rw [lead?, if_neg (by omega), if_neg (by omega), if_neg (by omega), if_neg (by omega),
    if_neg (by omega)]
  by_cases smallest : byte = 0xF0
  · subst smallest
    rfl
  · by_cases largest : byte = 0xF4
    · subst largest
      rfl
    · have inner : byte ≤ 0xF3 := by omega
      simp only [smallest, largest, inner, if_false, if_true]

/-- A byte above ASCII says how many bytes follow it and between which bounds. -/
theorem next_of_lead? {byte : Nat} {lead : Lead} (small : byte < 256) (large : 0x80 ≤ byte)
    (known : lead? byte = some lead) (bytes : List UInt8) :
    next (UInt8.ofNat byte) bytes =
      finish lead.following lead.low lead.high (leadBits lead.following byte) bytes := by
  have value : (UInt8.ofNat byte).toNat = byte := UInt8.toNat_ofNat_of_lt' small
  simp only [next, value, if_neg (Nat.not_lt.mpr large), known]

/-- A byte within the bounds gives its six low bits to the code point. -/
theorem finish_continued {following low high code bits : Nat} {bytes : List UInt8}
    (six : bits < 64) (above : low ≤ bits + 128) (below : bits + 128 ≤ high) :
    finish (following + 1) low high code (UInt8.ofNat (bits + 128) :: bytes) =
      finish following 0x80 0xBF (code * 64 + bits) bytes := by
  have value : (UInt8.ofNat (bits + 128)).toNat = bits + 128 :=
    UInt8.toNat_ofNat_of_lt' (by rw [UInt8.size]; omega)
  have low : (bits + 128) % 64 = bits := by omega
  rw [finish, value, low, if_pos ⟨above, below⟩]

section Lengths

variable {code : Nat} (rest : List UInt8)

/-- One byte is a character of ASCII. -/
theorem next_one (below : code ≤ 0x7F) :
    next (UInt8.ofNat code) rest = (Char.ofNat code, rest) := by
  have value : (UInt8.ofNat code).toNat = code :=
    UInt8.toNat_ofNat_of_lt' (by rw [UInt8.size]; omega)
  rw [next, value, if_pos (by omega)]

/-- Two bytes give the code point that they were cut from. -/
theorem next_two (above : 0x7F < code) (below : code ≤ 0x7FF) :
    next (UInt8.ofNat (code / 64 % 32 + 192)) (UInt8.ofNat (code % 64 + 128) :: rest) =
      (Char.ofNat code, rest) := by
  have known : lead? (code / 64 % 32 + 192) = some ⟨1, 0x80, 0xBF⟩ :=
    lead?_two (by omega) (by omega)
  have bits : leadBits 1 (code / 64 % 32 + 192) * 64 + code % 64 = code := by
    change (code / 64 % 32 + 192) % 32 * 64 + code % 64 = code
    omega
  rw [next_of_lead? (by omega) (by omega) known,
    finish_continued (by omega) (by dsimp only; omega) (by dsimp only; omega), bits, finish]

/-- The bounds of the byte after the first one leave out what fewer bytes can say, and the
surrogates. -/
theorem next_three (above : 0x7FF < code) (below : code ≤ 0xFFFF)
    (scalar : code < 0xD800 ∨ 0xDFFF < code) :
    next (UInt8.ofNat (code / 4096 % 16 + 224))
        (UInt8.ofNat (code / 64 % 64 + 128) :: UInt8.ofNat (code % 64 + 128) :: rest) =
      (Char.ofNat code, rest) := by
  have known := @lead?_three (code / 4096 % 16 + 224) (by omega) (by omega)
  have bits : (leadBits 2 (code / 4096 % 16 + 224) * 64 + code / 64 % 64) * 64 + code % 64 =
      code := by
    change ((code / 4096 % 16 + 224) % 16 * 64 + code / 64 % 64) * 64 + code % 64 = code
    omega
  rw [next_of_lead? (by omega) (by omega) known,
    finish_continued (by omega) (by dsimp only; split <;> omega) (by dsimp only; split <;> omega),
    finish_continued (by omega) (by omega) (by omega), bits, finish]

/-- The bounds of the byte after the first one leave out what fewer bytes can say, and what is too
large for a code point. -/
theorem next_four (above : 0xFFFF < code) (below : code < 0x110000) :
    next (UInt8.ofNat (code / 262144 % 8 + 240))
        (UInt8.ofNat (code / 4096 % 64 + 128) :: UInt8.ofNat (code / 64 % 64 + 128) ::
          UInt8.ofNat (code % 64 + 128) :: rest) =
      (Char.ofNat code, rest) := by
  have known := @lead?_four (code / 262144 % 8 + 240) (by omega) (by omega)
  have bits : ((leadBits 3 (code / 262144 % 8 + 240) * 64 + code / 4096 % 64) * 64 +
      code / 64 % 64) * 64 + code % 64 = code := by
    change (((code / 262144 % 8 + 240) % 8 * 64 + code / 4096 % 64) * 64 +
      code / 64 % 64) * 64 + code % 64 = code
    omega
  rw [next_of_lead? (by omega) (by omega) known,
    finish_continued (by omega) (by dsimp only; split <;> omega) (by dsimp only; split <;> omega),
    finish_continued (by omega) (by omega) (by omega),
    finish_continued (by omega) (by omega) (by omega), bits, finish]

end Lengths

/-- The bytes of a character are taken off whole, whatever comes after them. -/
theorem next_utf8EncodeChar (char : Char) :
    ∃ first more, String.utf8EncodeChar char = first :: more ∧
      ∀ rest, next first (more ++ rest) = (char, rest) := by
  have scalar : char.toNat < 0xD800 ∨ (0xDFFF < char.toNat ∧ char.toNat < 0x110000) := char.valid
  have same : char.val.toNat = char.toNat := Char.toNat_val
  have whole := Char.ofNat_toNat char
  unfold String.utf8EncodeChar
  rw [same]
  generalize char.toNat = code at *
  dsimp only
  split
  · next one => exact ⟨_, _, rfl, fun rest => whole ▸ next_one rest one⟩
  · next one =>
      split
      · next two => exact ⟨_, _, rfl, fun rest => whole ▸ next_two rest (by omega) two⟩
      · next two =>
          split
          · next three =>
              exact ⟨_, _, rfl, fun rest => whole ▸ next_three rest (by omega) three (by omega)⟩
          · exact ⟨_, _, rfl, fun rest => whole ▸ next_four rest (by omega) (by omega)⟩

/-! ## Bytes of a text -/

/-- The bytes of a character are read as the character and then the rest. -/
theorem decode_utf8EncodeChar_append (char : Char) (rest : List UInt8) :
    decode (String.utf8EncodeChar char ++ rest) = char :: decode rest := by
  obtain ⟨first, more, bytes, taken⟩ := next_utf8EncodeChar char
  rw [bytes, List.cons_append, decode, taken]

/-- Bytes that start with those of a text are read as something that starts with the text,
whatever follows. -/
theorem decode_encode_append (text : List Char) (rest : List UInt8) :
    decode (encode text ++ rest) = text ++ decode rest := by
  induction text with
  | nil => rfl
  | cons char text ih =>
      rw [encode_cons, List.append_assoc, decode_utf8EncodeChar_append, ih, List.cons_append]

/-- The bytes of a text are read as the text. -/
theorem decode_encode (text : List Char) : decode (encode text) = text := by
  have read := decode_encode_append text []
  rwa [List.append_nil, decode, List.append_nil] at read

/-! ## Bytes that are those of a text -/

/-- No fault is found in the bytes of a character. -/
theorem faultFrom?_utf8EncodeChar_append (place : Nat) (char : Char) (rest : List UInt8) :
    faultFrom? place (String.utf8EncodeChar char ++ rest) =
      faultFrom? (place + (String.utf8EncodeChar char).length) rest := by
  obtain ⟨first, more, bytes, taken⟩ := next_utf8EncodeChar char
  have own : (first :: more).isPrefixOf (first :: (more ++ rest)) = true :=
    List.isPrefixOf_iff_prefix.mpr (List.prefix_append _ rest)
  rw [bytes, List.cons_append, faultFrom?, taken]
  dsimp only
  rw [bytes, if_pos own]

/-- No fault is found before the end of a text. -/
theorem faultFrom?_encode_append (place : Nat) (text : List Char) (rest : List UInt8) :
    faultFrom? place (encode text ++ rest) = faultFrom? (place + (encode text).length) rest := by
  induction text generalizing place with
  | nil => rfl
  | cons char text ih =>
      rw [encode_cons, List.append_assoc, faultFrom?_utf8EncodeChar_append, ih, List.length_append,
        Nat.add_assoc]

/-- A character whose own bytes start the bytes that it is read from leaves those behind them. -/
theorem eq_append_of_isPrefixOf {first : UInt8} {bytes : List UInt8}
    (own : (String.utf8EncodeChar (next first bytes).1).isPrefixOf (first :: bytes) = true) :
    first :: bytes = String.utf8EncodeChar (next first bytes).1 ++ (next first bytes).2 := by
  obtain ⟨rest, parts⟩ := List.isPrefixOf_iff_prefix.mp own
  obtain ⟨start, more, spelled, taken⟩ := next_utf8EncodeChar (next first bytes).1
  rw [spelled, List.cons_append, List.cons.injEq] at parts
  obtain ⟨rfl, rfl⟩ := parts
  have left : (next start (more ++ rest)).2 = rest := by rw [taken rest]
  rw [left, spelled, List.cons_append]

/-- **Bytes without a fault.** They are the bytes of a text. -/
theorem fault?_eq_none_iff {bytes : List UInt8} :
    fault? bytes = none ↔ ∃ text, bytes = encode text := by
  constructor
  · suffices search : ∀ place, faultFrom? place bytes = none → ∃ text, bytes = encode text from
      search 0
    intro place
    -- along the search: every character that it passes stands there with its own bytes
    fun_induction faultFrom? place bytes with
    | case1 => exact fun _ => ⟨[], rfl⟩
    | case2 place first bytes found shorter own ownBytes ih =>
        intro clean
        obtain ⟨text, rest⟩ := ih clean
        refine ⟨found.1 :: text, ?_⟩
        rw [encode_cons, ← rest]
        exact eq_append_of_isPrefixOf ownBytes
    | case3 => exact fun clean => nomatch clean
  · rintro ⟨text, rfl⟩
    have clean := faultFrom?_encode_append 0 text []
    rwa [List.append_nil, faultFrom?] at clean

end LintReport.Text.Utf8

namespace LintReport.Text.Encoding

/-! ## Bytes that tell of their encoding -/

/-- A mark starts with a byte that is no character of ASCII. -/
theorem not_isPrefixOf_of_ascii {first mark : UInt8} (ascii : first.toNat < 0x80)
    (high : 0x80 ≤ mark.toNat) (marks bytes : List UInt8) :
    (mark :: marks).isPrefixOf (first :: bytes) = false := by
  have other : mark ≠ first := by
    rintro rfl
    exact absurd ascii (Nat.not_lt.mpr high)
  simp only [List.isPrefixOf, beq_eq_false_iff_ne.mpr other, Bool.false_and]

/-- Bytes that start with two characters of ASCII have no mark, and no zeros where the first two of
a wider encoding would have them. -/
theorem guess_eq_utf8 {first second : UInt8} (ascii : first.toNat < 0x80) (one : first ≠ 0)
    (two : second ≠ 0) (rest : List UInt8) : guess (first :: second :: rest) = .utf8 := by
  have seen : zeros (first :: second :: rest) = false :: false :: (rest.take 2).map (· = 0) := by
    simp [zeros, one, two]
  have marked := @not_isPrefixOf_of_ascii first
  simp only [guess, marked ascii (by decide : 0x80 ≤ (0xFF : UInt8).toNat),
    marked ascii (by decide : 0x80 ≤ (0xFE : UInt8).toNat), seen, Bool.false_eq_true, if_false]

theorem toNat_of_ascii {char : Char} (ascii : char.toNat < 0x80) :
    (UInt8.ofNat char.toNat).toNat = char.toNat := by
  rw [UInt8.toNat_ofNat']
  omega

/-- Only the null character has the byte zero. -/
theorem byte_ne_zero {char : Char} (ascii : char.toNat < 0x80) (filled : 0 < char.toNat) :
    UInt8.ofNat char.toNat ≠ 0 := by
  intro zero
  have value := toNat_of_ascii ascii
  rw [zero] at value
  exact absurd value (Nat.ne_of_lt filled)

/-- A text that starts with two characters of ASCII is read back, though nobody says that its
bytes are UTF-8. -/
theorem read?_encode {first second : Char} (one : 0 < first.toNat ∧ first.toNat < 0x80)
    (two : 0 < second.toNat ∧ second.toNat < 0x80) (rest : List Char) :
    read? (Utf8.encode (first :: second :: rest)) = some (first :: second :: rest) := by
  have guessed : guess (Utf8.encode (first :: second :: rest)) = .utf8 := by
    rw [Utf8.encode_cons_ascii one.2, Utf8.encode_cons_ascii two.2]
    have ascii : (UInt8.ofNat first.toNat).toNat < 0x80 := by
      rw [toNat_of_ascii one.2]
      exact one.2
    exact guess_eq_utf8 ascii (byte_ne_zero one.2 one.1) (byte_ne_zero two.2 two.1) _
  rw [read?, guessed, decode?, Utf8.decode_encode]
  exact if_pos rfl

end LintReport.Text.Encoding
