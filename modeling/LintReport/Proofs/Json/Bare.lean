import LintReport.Proofs.Json.Reading

/-! # Bare texts

A text that starts with no quote, bracket or brace can only hold a keyword or a number.
A colon belongs to neither and is no space, so that a bare text with a colon in it holds
no value (`parse_bare`). -/

namespace LintReport.Json

open Text

namespace NumberLiteral

/-- The characters that number literals are made of. -/
def isPart (char : Char) : Bool :=
  char.isDigit || ['-', '+', '.', 'e', 'E'].contains char

variable {char : Char} {text rest : List Char}

theorem isDigit_of_foreign (foreign : isPart char = false) : char.isDigit = false := by
  rw [isPart, Bool.or_eq_false_iff] at foreign
  exact foreign.1

/-- What cannot stand in a number differs from each character that can. -/
theorem ne_of_foreign (foreign : isPart char = false) {mark : Char} (part : isPart mark) :
    char ≠ mark := by
  rintro rfl
  exact Bool.false_ne_true (foreign.symm.trans part)

/-- Cutting digits off leaves what cannot stand in a number. -/
theorem mem_digitsOf (foreign : isPart char = false) {digits : List Char}
    (cut : digitsOf text = (digits, rest)) (member : char ∈ text) : char ∈ rest := by
  obtain ⟨rfl, all⟩ := digitsOf_parts cut
  rcases List.mem_append.mp member with inside | later
  · exact absurd (all char inside) (by simp [isDigit_of_foreign foreign])
  · exact later

theorem mem_minusOf (foreign : isPart char = false) (member : char ∈ text) :
    char ∈ (minusOf text).2 := by
  unfold minusOf
  split
  · exact (List.mem_cons.mp member).resolve_left (ne_of_foreign foreign rfl)
  · exact member

theorem mem_splitSign (foreign : isPart char = false) (member : char ∈ text) :
    char ∈ (Numeral.splitSign text).2 := by
  unfold Numeral.splitSign
  split
  · exact (List.mem_cons.mp member).resolve_left (ne_of_foreign foreign rfl)
  · exact (List.mem_cons.mp member).resolve_left (ne_of_foreign foreign rfl)
  · exact member

theorem mem_wholeOf? (foreign : isPart char = false) {whole : List Char}
    (found : wholeOf? text = some (whole, rest)) (member : char ∈ text) : char ∈ rest := by
  unfold wholeOf? at found
  split at found
  · simp at found
  · next first others =>
      have later : first.isDigit → char ∈ others := by
        intro digit
        rcases List.mem_cons.mp member with rfl | later
        · exact absurd digit (by simp [isDigit_of_foreign foreign])
        · exact later
      split at found
      · next zero =>
          simp only [Option.some.injEq, Prod.mk.injEq] at found
          exact found.2 ▸ later (zero ▸ rfl)
      · split at found
        · next digit =>
            simp only [Option.some.injEq, Prod.mk.injEq] at found
            exact found.2 ▸ mem_digitsOf foreign rfl (later digit)
        · simp at found

theorem mem_fractionOf (foreign : isPart char = false) {fraction : Option (List Char)}
    (found : fractionOf text = (fraction, rest)) (member : char ∈ text) : char ∈ rest := by
  unfold fractionOf at found
  split at found
  · next others =>
      have later : char ∈ others :=
        (List.mem_cons.mp member).resolve_left (ne_of_foreign foreign rfl)
      split at found
      · rw [← (Prod.mk.inj found).2]
        exact member
      · next digits after _ cut =>
          rw [← (Prod.mk.inj found).2]
          exact mem_digitsOf foreign cut later
  · rw [← (Prod.mk.inj found).2]
    exact member

theorem mem_exponentOf (foreign : isPart char = false) {exponent : Option Int}
    (found : exponentOf text = (exponent, rest)) (member : char ∈ text) : char ∈ rest := by
  unfold exponentOf at found
  split at found
  · simp at member
  · next mark others =>
      split at found
      · next marked =>
          have part : isPart mark := by
            rcases marked with rfl | rfl <;> rfl
          have later : char ∈ others :=
            (List.mem_cons.mp member).resolve_left (ne_of_foreign foreign part)
          dsimp only at found
          split at found
          · rw [← (Prod.mk.inj found).2]
            exact member
          · next digits after _ cut =>
              rw [← (Prod.mk.inj found).2]
              exact mem_digitsOf foreign cut (mem_splitSign foreign later)
      · rw [← (Prod.mk.inj found).2]
        exact member

/-- A number literal takes in no other characters. -/
theorem mem_read? (foreign : isPart char = false) {literal : NumberLiteral}
    (found : read? text = some (literal, rest)) (member : char ∈ text) : char ∈ rest := by
  simp only [read?] at found
  split at found
  · simp at found
  · next whole afterWhole wholeRead =>
      simp only [Option.some.injEq, Prod.mk.injEq] at found
      rw [← found.2]
      have afterSign := mem_minusOf foreign member
      have afterDigits := mem_wholeOf? foreign wholeRead afterSign
      exact mem_exponentOf foreign rfl (mem_fractionOf foreign rfl afterDigits)

end NumberLiteral

/-- A scalar that is no string has no colon. -/
theorem ScalarText.colon_notMem {token : List Char} {value : Value}
    (scalar : ScalarText token value) (noQuote : token.head? ≠ some '"') : ':' ∉ token := by
  intro member
  cases scalar with
  | string _ => exact noQuote rfl
  | keyword known =>
      simp only [keywords, List.mem_cons, List.not_mem_nil, or_false, Prod.mk.injEq] at known
      rcases known with ⟨rfl, _⟩ | ⟨rfl, _⟩ | ⟨rfl, _⟩ | ⟨rfl, _⟩ | ⟨rfl, _⟩ | ⟨rfl, _⟩ <;>
        simp at member
  | number read _ => exact absurd (NumberLiteral.mem_read? rfl read member) List.not_mem_nil

/-- A token that starts with no bracket and no brace is that of a plain value. -/
theorem Denotes.scalar {depth : Nat} {token : List Char} {value : Value}
    (denotes : Denotes depth token value) (noBracket : token.head? ≠ some '[')
    (noBrace : token.head? ≠ some '{') : ScalarText token value := by
  cases depth with
  | zero => exact denotes
  | succ depth =>
      rcases denotes with scalar | container
      · exact scalar
      · obtain ⟨first, rest, rfl, rfl | rfl⟩ := container.cons
        · exact absurd rfl noBracket
        · exact absurd rfl noBrace

/-- **A bare text with a colon holds no value.** -/
theorem parse_bare {text : List Char} (starts : StartsWithout isSpace text)
    (bare : ∀ mark ∈ ['{', '[', '"'], text.head? ≠ some mark) (colon : ':' ∈ text) :
    ∃ fault, parse text = .error fault := by
  cases read : parse text with
  | error fault => exact ⟨fault, rfl⟩
  | ok value =>
      rw [parse_eq_parseWithin, parseWithin_eq_ok_iff] at read
      obtain ⟨before, token, after, rfl, spaceBefore, denotes, spaceAfter⟩ := read
      -- neither the one token of the text nor the space around it has room for the colon
      have nothingBefore : before = [] := by
        cases before with
        | nil => rfl
        | cons char rest =>
            have space := spaceBefore char List.mem_cons_self
            exact absurd (startsWithout_cons.mp starts) (by simp [space])
      subst nothingBefore
      obtain ⟨first, rest, rfl, _⟩ := denotes.opens
      have noQuote := bare '"' (by decide)
      have scalar := denotes.scalar (bare '[' (by decide)) (bare '{' (by decide))
      rw [List.nil_append] at colon
      rcases List.mem_append.mp colon with inside | later
      · exact absurd inside (scalar.colon_notMem noQuote)
      · exact absurd (spaceAfter ':' later) (by decide)

end LintReport.Json
