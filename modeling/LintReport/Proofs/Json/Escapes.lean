import LintReport.Json.Printer
import LintReport.Proofs.Json.Literal

/-! # Written strings are read back

A character is written as itself, as a short escape or as one or two units of four
hexadecimal digits. Whichever it is, the pieces that it is cut into make up the character
again (`StringLiteral.spells_writeChar`), so a written string is read as the string
(`StringLiteral.read_written`). -/

namespace LintReport.Json

open Text

/-! ## Units -/

/-- A number of one place more has its lowest digit last. -/
theorem hexadecimal_succ {width : Nat} (positive : 0 < width) (number : Nat) :
    hexadecimal (width + 1) number =
      hexadecimal width (number / 16) ++ [Nat.digitChar (number % 16)] := by
  by_cases small : number < 16
  · have zero : number / 16 = 0 := Nat.div_eq_of_lt small
    have zeros : List.replicate width '0' = List.replicate (width - 1) '0' ++ ['0'] := by
      rw [← List.replicate_succ', Nat.sub_add_cancel positive]
    rw [zero, Nat.mod_eq_of_lt small, hexadecimal, hexadecimal, Nat.toDigits_of_lt_base small,
      Nat.toDigits_zero]
    exact congrArg (· ++ [Nat.digitChar number]) zeros
  · have split := Nat.toDigits_of_base_le (b := 16) (by decide) (Nat.not_lt.mp small)
    simp only [hexadecimal, split, List.length_append, List.length_singleton,
      Nat.add_sub_add_right, List.append_assoc]

/-- A hexadecimal digit is read as what it was written for. -/
theorem hexValue?_digitChar {digit : Nat} (small : digit < 16) :
    StringLiteral.hexValue? (Nat.digitChar digit) = some digit := by
  revert digit
  decide

/-- The escape of a unit has four digits, which denote that unit. -/
theorem exists_unitEscape {unit : Nat} (small : unit < 0x10000) :
    ∃ first second third fourth, unitEscape unit = ['\\', 'u', first, second, third, fourth] ∧
      StringLiteral.unit? first second third fourth = some unit := by
  have top : unit / 16 / 16 / 16 < 16 := by omega
  have cut : hexadecimal 4 unit =
      [Nat.digitChar (unit / 16 / 16 / 16), Nat.digitChar (unit / 16 / 16 % 16),
        Nat.digitChar (unit / 16 % 16), Nat.digitChar (unit % 16)] := by
    rw [hexadecimal_succ (by decide), hexadecimal_succ (by decide), hexadecimal_succ (by decide),
      hexadecimal, Nat.toDigits_of_lt_base top]
    rfl
  refine ⟨_, _, _, _, by rw [unitEscape, cut], ?_⟩
  have low : ∀ number : Nat, number % 16 < 16 := fun number => Nat.mod_lt _ (by decide)
  simp only [StringLiteral.unit?, hexValue?_digitChar top, hexValue?_digitChar (low _)]
  rw [Option.some.injEq]
  omega

end LintReport.Json

namespace LintReport.Json.StringLiteral

open Text.Utf16

/-- Pieces that were cut off come before those found later. -/
theorem foldr_prepend (cut found : List Piece) (rest : List Char) :
    cut.foldr prepend (.ok (found, rest)) = .ok (cut ++ found, rest) := by
  induction cut with
  | nil => rfl
  | cons piece cut ih => rw [List.foldr_cons, ih]; rfl

/-- A unit that cannot start a pair is a character by itself. -/
theorem assemble_unit {unit : Nat} (alone : isLeading unit = false) (more : List Piece) :
    assemble (.unit unit :: more) = unitChar unit :: assemble more := by
  cases more with
  | nil => rfl
  | cons piece rest => cases piece <;> simp [assemble, alone]

/-- No character is half of a surrogate pair. -/
theorem isLeading_toNat (char : Char) :
    isLeading char.toNat = false ∧ isTrailing char.toNat = false := by
  have valid : char.toNat < 0xD800 ∨ 0xDFFF < char.toNat ∧ char.toNat < 0x110000 := char.valid
  simp only [isLeading, isTrailing, Bool.and_eq_false_iff, decide_eq_false_iff_not]
  omega

/-- The escape of a unit is read as that unit. -/
theorem pieces_unitEscape (opening rest : List Char) (next : Char) {unit : Nat}
    (small : unit < 0x10000) :
    pieces opening (unitEscape unit ++ next :: rest) =
      prepend (.unit unit) (pieces opening (next :: rest)) := by
  obtain ⟨first, second, third, fourth, escape, known⟩ := exists_unitEscape small
  rw [escape]
  simp only [List.cons_append, List.nil_append]
  rw [pieces, known]

/-- A character beyond the first 65536 is the one of its pair of units. -/
theorem pairChar_units {char : Char} (large : 0x10000 ≤ char.toNat) :
    isLeading (0xD800 + (char.toNat - 0x10000) / 0x400) = true ∧
      isTrailing (0xDC00 + (char.toNat - 0x10000) % 0x400) = true ∧
      pairChar (0xD800 + (char.toNat - 0x10000) / 0x400)
        (0xDC00 + (char.toNat - 0x10000) % 0x400) = char := by
  have valid : char.toNat < 0xD800 ∨ 0xDFFF < char.toNat ∧ char.toNat < 0x110000 := char.valid
  have code : 0x10000 + (0xD800 + (char.toNat - 0x10000) / 0x400 - 0xD800) * 0x400 +
      (0xDC00 + (char.toNat - 0x10000) % 0x400 - 0xDC00) = char.toNat := by omega
  refine ⟨?_, ?_, ?_⟩
  · simp only [isLeading, Bool.and_eq_true, decide_eq_true_eq]
    omega
  · simp only [isTrailing, Bool.and_eq_true, decide_eq_true_eq]
    omega
  · rw [pairChar, code, Char.ofNat_toNat]

/-- Whether a text is cut into pieces that make up a character, whatever text of a literal
comes after it. -/
def Spells (written : List Char) (char : Char) : Prop :=
  ∃ cut : List Piece,
    (∀ opening next rest, pieces opening (written ++ next :: rest) =
      cut.foldr prepend (pieces opening (next :: rest))) ∧
    ∀ more, assemble (cut ++ more) = char :: assemble more

theorem spells_escape {letter char : Char} (known : escape? letter = some char) :
    Spells ['\\', letter] char :=
  ⟨[.char char], fun opening next rest => pieces_escape opening (next :: rest) known,
    fun _ => rfl⟩

/-- A graphic character other than the quote and the backslash spells itself. -/
theorem spells_graphic {char : Char} (noQuote : char ≠ '"') (noBackslash : char ≠ '\\')
    (graphic : 0x20 ≤ char.toNat) : Spells [char] char :=
  ⟨[.char char], fun opening next rest =>
    pieces_char opening (next :: rest) noQuote noBackslash (Nat.not_lt.mpr graphic), fun _ => rfl⟩

/-- A character of one unit is spelled by the escape of that unit. -/
theorem spells_unit {char : Char} (small : char.toNat < 0x10000) :
    Spells (unitEscape char.toNat) char := by
  obtain ⟨notLeading, notTrailing⟩ := isLeading_toNat char
  refine ⟨[.unit char.toNat], fun opening next rest => pieces_unitEscape opening rest next small,
    fun more => ?_⟩
  rw [List.singleton_append, assemble_unit notLeading, unitChar, notLeading, notTrailing]
  simp

/-- A character of two units is spelled by the escapes of its surrogate pair. -/
theorem spells_pair {leading trailing : Nat} {char : Char} (leads : isLeading leading = true)
    (trails : isTrailing trailing = true) (pair : pairChar leading trailing = char) :
    Spells (unitEscape leading ++ unitEscape trailing) char := by
  have leadingSmall : leading < 0x10000 := by
    simp only [isLeading, Bool.and_eq_true, decide_eq_true_eq] at leads
    omega
  have trailingSmall : trailing < 0x10000 := by
    simp only [isTrailing, Bool.and_eq_true, decide_eq_true_eq] at trails
    omega
  refine ⟨[.unit leading, .unit trailing], fun opening next rest => ?_, fun more => ?_⟩
  · -- an escape is only read before one more character, here the backslash of the second one
    obtain ⟨first, second, third, fourth, escape, _⟩ := exists_unitEscape trailingSmall
    have trailingRead := pieces_unitEscape opening rest next trailingSmall
    have leadingRead := pieces_unitEscape opening
      ('u' :: first :: second :: third :: fourth :: next :: rest) '\\' leadingSmall
    rw [escape] at trailingRead
    rw [List.append_assoc, escape]
    exact leadingRead.trans (congrArg (prepend _) trailingRead)
  · simp only [List.cons_append, List.nil_append, assemble, leads, trails, Bool.and_self,
      if_true, pair]

/-- What a character is written as spells the character. -/
theorem spells_writeChar (char : Char) : Spells (writeChar char) char := by
  simp only [writeChar]
  split
  · next mark => rcases mark with rfl | rfl <;> exact spells_escape rfl
  · next noMark =>
      split
      · next same => exact same ▸ spells_escape rfl
      split
      · next same => exact same ▸ spells_escape rfl
      split
      · next same => exact same ▸ spells_escape rfl
      split
      · next same => exact same ▸ spells_escape rfl
      split
      · next same => exact same ▸ spells_escape rfl
      split
      · next graphic =>
          rw [not_or] at noMark
          exact spells_graphic noMark.1 noMark.2 graphic.1
      split
      · next small => exact spells_unit small
      · next large =>
          obtain ⟨leads, trails, pair⟩ := pairChar_units (Nat.not_lt.mp large)
          exact spells_pair leads trails pair

/-- The characters of a string as they are written, with a quote after them. -/
theorem pieces_written (opening : List Char) (text rest : List Char) : ∃ found : List Piece,
    pieces opening (text.flatMap writeChar ++ '"' :: rest) = .ok (found, rest) ∧
      assemble found = text := by
  induction text with
  | nil => exact ⟨[], rfl, rfl⟩
  | cons char text ih =>
      obtain ⟨found, read, assembled⟩ := ih
      obtain ⟨cut, cutRead, cutAssembled⟩ := spells_writeChar char
      refine ⟨cut ++ found, ?_, by rw [cutAssembled, assembled]⟩
      obtain ⟨next, others, more⟩ : ∃ next others,
          text.flatMap writeChar ++ '"' :: rest = next :: others :=
        List.exists_cons_of_ne_nil (by simp)
      rw [List.flatMap_cons, List.append_assoc, more, cutRead, ← more, read, foldr_prepend]

/-- **A written string is read as the string.** -/
theorem read_written (opening : List Char) (text : String) (rest : List Char) :
    read opening (text.toList.flatMap writeChar ++ '"' :: rest) = .ok (text, rest) := by
  obtain ⟨found, cut, assembled⟩ := pieces_written opening text.toList rest
  rw [read, cut]
  simp only [assembled, String.ofList_toList]

end LintReport.Json.StringLiteral
