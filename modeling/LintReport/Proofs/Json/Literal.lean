import LintReport.Json.Reader
import LintReport.Proofs.Text.Run

/-! # Where literals end

A string literal, a number literal and a keyword are read off the start of a text. What
is read depends on a stretch of the text alone, its *token*: any other text after the
token gives the same result. Only a number asks something of what follows, because more
digits, a point or an exponent mark would make it longer (`Stops`). -/

namespace LintReport.Json

open Text

/-- Whether a character after a number literal might belong to it. -/
def continuesNumber (char : Char) : Bool :=
  char.isDigit || char == '.' || char == 'e' || char == 'E'

/-- Whether no number literal goes on into a text. -/
abbrev Stops (text : List Char) : Prop :=
  StartsWithout continuesNumber text

/-- Where a number cannot go on there is no digit. -/
theorem Stops.startsWithout_digit {text : List Char} (stops : Stops text) :
    StartsWithout Char.isDigit text :=
  stops.mono fun char stop => by
    simp only [continuesNumber, Bool.or_eq_false_iff] at stop
    exact stop.1.1.1

/-- Where a number cannot go on none of its marks is next. -/
theorem Stops.head?_ne {text : List Char} (stops : Stops text) (mark : Char)
    (continues : continuesNumber mark) : text.head? ≠ some mark := by
  intro start
  exact Bool.false_ne_true ((stops mark start).symm.trans continues)

namespace NumberLiteral

/-- Digits are cut off up to the first character that is none. -/
theorem digitsOf_append {digits text : List Char} (all : ∀ char ∈ digits, char.isDigit)
    (starts : StartsWithout Char.isDigit text) : digitsOf (digits ++ text) = (digits, text) := by
  rw [digitsOf, takeWhile_run all starts, dropWhile_run all starts]

/-- What is cut off are digits, and the rest is left as it was. -/
theorem digitsOf_parts {text digits rest : List Char} (cut : digitsOf text = (digits, rest)) :
    text = digits ++ rest ∧ ∀ char ∈ digits, char.isDigit := by
  simp only [digitsOf, Prod.mk.injEq] at cut
  rw [← cut.1, ← cut.2]
  exact ⟨List.takeWhile_append_dropWhile.symm, fun _ member => List.mem_takeWhile_imp member⟩

/-- A minus sign is taken off together with what follows it. -/
theorem minusOf_token (text : List Char) :
    ∃ sign, text = sign ++ (minusOf text).2 ∧ (sign = [] ∨ sign = ['-']) ∧
      ∀ more, more.head? ≠ some '-' → minusOf (sign ++ more) = ((minusOf text).1, more) := by
  have missing : ∀ more : List Char, more.head? ≠ some '-' → minusOf more = (false, more) := by
    intro more unsigned
    unfold minusOf
    split
    · simp at unsigned
    · rfl
  unfold minusOf
  split
  · exact ⟨['-'], rfl, .inr rfl, fun more _ => rfl⟩
  · exact ⟨[], rfl, .inl rfl, missing⟩

/-- The digits of a whole number start with a digit and end before the next text. -/
theorem wholeOf?_token {text whole rest : List Char} (found : wholeOf? text = some (whole, rest)) :
    text = whole ++ rest ∧ (∃ first others, whole = first :: others ∧ first.isDigit) ∧
      ∀ more, StartsWithout Char.isDigit more →
        wholeOf? (whole ++ more) = some (whole, more) := by
  unfold wholeOf? at found
  split at found
  · simp at found
  · next first others =>
      split at found
      · next zero =>
          simp only [Option.some.injEq, Prod.mk.injEq] at found
          obtain ⟨rfl, rfl⟩ := found
          subst zero
          exact ⟨rfl, ⟨'0', [], rfl, rfl⟩, fun more _ => rfl⟩
      · next nonzero =>
          split at found
          · next digit =>
              simp only [Option.some.injEq, Prod.mk.injEq] at found
              obtain ⟨rfl, rfl⟩ := found
              have cut : digitsOf others = ((digitsOf others).1, (digitsOf others).2) := rfl
              obtain ⟨parts, all⟩ := digitsOf_parts cut
              refine ⟨congrArg (first :: ·) parts, ⟨first, _, rfl, digit⟩, fun more starts => ?_⟩
              simp only [List.cons_append, wholeOf?, nonzero, digit, if_true, if_false,
                digitsOf_append all starts]
          · simp at found

/-- A fraction is missing or starts with a point, and ends before the next text. -/
theorem fractionOf_token {text rest : List Char} {fraction : Option (List Char)}
    (found : fractionOf text = (fraction, rest)) :
    ∃ token, text = token ++ rest ∧ (token = [] ∨ token.head? = some '.') ∧
      ∀ more, StartsWithout Char.isDigit more → more.head? ≠ some '.' →
        fractionOf (token ++ more) = (fraction, more) := by
  have missing : ∀ more : List Char, more.head? ≠ some '.' → fractionOf more = (none, more) := by
    intro more noPoint
    unfold fractionOf
    split
    · simp at noPoint
    · rfl
  unfold fractionOf at found
  split at found
  · next others =>
      split at found
      · simp only [Prod.mk.injEq] at found
        obtain ⟨rfl, rfl⟩ := found
        exact ⟨[], rfl, .inl rfl, fun more _ noPoint => missing more noPoint⟩
      · next digits others' some cut =>
          simp only [Prod.mk.injEq] at found
          obtain ⟨rfl, rfl⟩ := found
          obtain ⟨parts, all⟩ := digitsOf_parts cut
          refine ⟨'.' :: digits, by rw [parts]; rfl, .inr rfl, fun more starts _ => ?_⟩
          simp only [List.cons_append, fractionOf, digitsOf_append all starts]
  · simp only [Prod.mk.injEq] at found
    obtain ⟨rfl, rfl⟩ := found
    exact ⟨[], rfl, .inl rfl, fun more _ noPoint => missing more noPoint⟩

/-- A sign is taken off together with what follows it. -/
theorem splitSign_token (text : List Char) :
    ∃ sign, text = sign ++ (Numeral.splitSign text).2 ∧
      ∀ more, more.head? ≠ some '-' → more.head? ≠ some '+' →
        Numeral.splitSign (sign ++ more) = ((Numeral.splitSign text).1, more) := by
  have missing : ∀ more : List Char, more.head? ≠ some '-' → more.head? ≠ some '+' →
      Numeral.splitSign more = (false, more) := by
    intro more noMinus noPlus
    unfold Numeral.splitSign
    split
    · simp at noMinus
    · simp at noPlus
    · rfl
  unfold Numeral.splitSign
  split
  · exact ⟨['-'], rfl, fun more _ _ => rfl⟩
  · exact ⟨['+'], rfl, fun more _ _ => rfl⟩
  · exact ⟨[], rfl, missing⟩

/-- An exponent is missing or starts with its mark, and ends before the next text. -/
theorem exponentOf_token {text rest : List Char} {exponent : Option Int}
    (found : exponentOf text = (exponent, rest)) :
    ∃ token, text = token ++ rest ∧
      (token = [] ∨ token.head? = some 'e' ∨ token.head? = some 'E') ∧
      ∀ more, Stops more → exponentOf (token ++ more) = (exponent, more) := by
  have missing : ∀ more, Stops more → exponentOf more = (none, more) := by
    intro more stops
    cases more with
    | nil => rfl
    | cons char others =>
        have small : char ≠ 'e' := fun same => stops.head?_ne 'e' rfl (by rw [same]; rfl)
        have big : char ≠ 'E' := fun same => stops.head?_ne 'E' rfl (by rw [same]; rfl)
        simp [exponentOf, small, big]
  unfold exponentOf at found
  split at found
  · simp only [Prod.mk.injEq] at found
    obtain ⟨rfl, rfl⟩ := found
    exact ⟨[], rfl, .inl rfl, missing⟩
  · next mark others =>
      split at found
      · next marked =>
          dsimp only at found
          split at found
          · simp only [Prod.mk.injEq] at found
            obtain ⟨rfl, rfl⟩ := found
            exact ⟨[], rfl, .inl rfl, missing⟩
          · next digits others' some cut =>
              simp only [Prod.mk.injEq] at found
              obtain ⟨rfl, rfl⟩ := found
              obtain ⟨sign, signed, again⟩ := splitSign_token others
              obtain ⟨parts, all⟩ := digitsOf_parts cut
              refine ⟨mark :: (sign ++ digits), ?_, .inr (by simpa using marked),
                fun more stops => ?_⟩
              · rw [List.cons_append, List.append_assoc, ← parts, ← signed]
              · cases digits with
                | nil => exact absurd rfl some
                | cons first ending =>
                    have digit : first.isDigit := all first List.mem_cons_self
                    have noMinus : first ≠ '-' := by rintro rfl; simp at digit
                    have noPlus : first ≠ '+' := by rintro rfl; simp at digit
                    have unsigned := again (first :: ending ++ more) (by simpa using noMinus)
                      (by simpa using noPlus)
                    have cutAgain := digitsOf_append all stops.startsWithout_digit
                    simp only [List.cons_append, List.append_assoc] at unsigned cutAgain ⊢
                    simp only [exponentOf, marked, if_true, unsigned, cutAgain]
      · simp only [Prod.mk.injEq] at found
        obtain ⟨rfl, rfl⟩ := found
        exact ⟨[], rfl, .inl rfl, missing⟩

/-- A number literal starts with a minus sign or a digit, and ends before any text that
it does not go on into. -/
theorem read?_token {text rest : List Char} {literal : NumberLiteral}
    (found : read? text = some (literal, rest)) :
    ∃ token, text = token ++ rest ∧
      (∃ sign first others, token = sign ++ first :: others ∧ (sign = [] ∨ sign = ['-']) ∧
        first.isDigit) ∧
      ∀ more, Stops more → read? (token ++ more) = some (literal, more) := by
  obtain ⟨sign, signed, signs, signAgain⟩ := minusOf_token text
  simp only [read?] at found
  split at found
  · simp at found
  · next whole afterWhole wholeRead =>
      simp only [Option.some.injEq, Prod.mk.injEq] at found
      obtain ⟨rfl, rfl⟩ := found
      have fractionRead : fractionOf afterWhole =
        ((fractionOf afterWhole).1, (fractionOf afterWhole).2) := rfl
      have exponentRead : exponentOf (fractionOf afterWhole).2 =
        ((exponentOf (fractionOf afterWhole).2).1, (exponentOf (fractionOf afterWhole).2).2) := rfl
      obtain ⟨wholeParts, ⟨first, others, starts, digit⟩, wholeAgain⟩ := wholeOf?_token wholeRead
      obtain ⟨fraction, fractionParts, pointed, fractionAgain⟩ := fractionOf_token fractionRead
      obtain ⟨exponent, exponentParts, marked, exponentAgain⟩ := exponentOf_token exponentRead
      refine ⟨sign ++ (whole ++ (fraction ++ exponent)), ?_, ?_, fun more stops => ?_⟩
      · simp only [List.append_assoc]
        rw [← exponentParts, ← fractionParts, ← wholeParts, ← signed]
      · exact ⟨sign, first, others ++ (fraction ++ exponent), by rw [starts]; rfl, signs, digit⟩
      · have unsigned : (whole ++ (fraction ++ (exponent ++ more))).head? ≠ some '-' := by
          rw [starts, List.cons_append, List.head?_cons]
          intro same
          rw [Option.some.inj same] at digit
          simp at digit
        -- after the digits comes a point, an exponent mark or a text that ends the literal
        have afterFraction : StartsWithout (fun char => char.isDigit || char == '.')
            (exponent ++ more) := by
          rcases marked with rfl | small | big
          · exact stops.mono fun char stop => by
              simp only [continuesNumber, Bool.or_eq_false_iff] at stop ⊢
              exact stop.1.1
          · exact startsWithout_of_head? (by rw [List.head?_append, small, Option.some_or]) rfl
          · exact startsWithout_of_head? (by rw [List.head?_append, big, Option.some_or]) rfl
        have noDigit : StartsWithout Char.isDigit (exponent ++ more) :=
          afterFraction.mono fun char stop => (Bool.or_eq_false_iff.mp stop).1
        have noPoint : (exponent ++ more).head? ≠ some '.' := by
          intro point
          exact Bool.true_eq_false.mp (afterFraction '.' point)
        have afterWholeDigits : StartsWithout Char.isDigit (fraction ++ (exponent ++ more)) := by
          rcases pointed with rfl | pointed
          · exact noDigit
          · exact startsWithout_of_head? (by rw [List.head?_append, pointed, Option.some_or]) rfl
        simp only [List.append_assoc, read?, signAgain _ unsigned, wholeAgain _ afterWholeDigits,
          fractionAgain _ noDigit noPoint, exponentAgain more stops]

end NumberLiteral

namespace StringLiteral

/-- A graphic character other than the quote and the backslash is a piece of its own. -/
theorem pieces_char (opening rest : List Char) {char : Char} (noQuote : char ≠ '"')
    (noBackslash : char ≠ '\\') (graphic : ¬char.toNat < 0x20) :
    pieces opening (char :: rest) = prepend (.char char) (pieces opening rest) := by
  rw [pieces, if_neg graphic] <;> simp_all

/-- A short escape is a piece of its own. -/
theorem pieces_escape (opening rest : List Char) {letter char : Char}
    (known : escape? letter = some char) :
    pieces opening ('\\' :: letter :: rest) = prepend (.char char) (pieces opening rest) := by
  have noUnit : letter ≠ 'u' := by rintro rfl; simp [escape?] at known
  rw [pieces] <;> simp_all

/-- The pieces of a literal are read off its body alone, wherever it was opened. -/
theorem pieces_token {opening text rest : List Char} {found : List Piece}
    (success : pieces opening text = .ok (found, rest)) :
    ∃ body, text = body ++ rest ∧
      ∀ opening more, pieces opening (body ++ more) = .ok (found, more) := by
  fun_induction pieces opening text generalizing found with
  | case2 rest =>
      simp only [Except.ok.injEq, Prod.mk.injEq] at success
      obtain ⟨rfl, rfl⟩ := success
      exact ⟨['"'], rfl, fun opening more => rfl⟩
  | case4 first second third fourth next rest unit known ih =>
      obtain ⟨others, read, rfl⟩ := prepend_eq_ok success
      obtain ⟨body, same, again⟩ := ih read
      -- a unit escape is only read before one more character, which is the body's own
      cases body with
      | nil =>
          have shorter := length_lt_of_pieces read
          simp only [same, List.nil_append, Nat.lt_irrefl] at shorter
      | cons char others =>
          obtain ⟨rfl, rfl⟩ := List.cons.inj same
          refine ⟨'\\' :: 'u' :: first :: second :: third :: fourth :: next :: others, rfl,
            fun opening more => ?_⟩
          have inner := again opening more
          simp only [List.cons_append] at inner ⊢
          rw [pieces, known]
          simp only [inner, prepend]
  | case7 letter rest _ plain char known ih =>
      obtain ⟨others, read, rfl⟩ := prepend_eq_ok success
      obtain ⟨body, rfl, again⟩ := ih read
      refine ⟨'\\' :: letter :: body, rfl, fun opening more => ?_⟩
      rw [List.cons_append, List.cons_append, pieces_escape _ _ known, again, prepend]
  | case10 char rest noQuote noEnd _ noEscape graphic ih =>
      obtain ⟨others, read, rfl⟩ := prepend_eq_ok success
      obtain ⟨body, rfl, again⟩ := ih read
      have noBackslash : char ≠ '\\' := by
        intro backslash
        cases after : body ++ rest with
        | nil => exact noEnd backslash after
        | cons letter others => exact noEscape letter others backslash after
      refine ⟨char :: body, rfl, fun opening more => ?_⟩
      rw [List.cons_append, pieces_char _ _ noQuote noBackslash graphic, again, prepend]
  | _ => simp at success

/-- A string literal is read off its body alone, wherever it was opened. -/
theorem read_token {opening text rest : List Char} {string : String}
    (success : read opening text = .ok (string, rest)) :
    ∃ body, text = body ++ rest ∧
      ∀ opening more, read opening (body ++ more) = .ok (string, more) := by
  unfold read at success
  split at success
  · next found others cut =>
      simp only [Except.ok.injEq, Prod.mk.injEq] at success
      obtain ⟨rfl, rfl⟩ := success
      obtain ⟨body, parts, again⟩ := pieces_token cut
      exact ⟨body, parts, fun opening more => by rw [read, again]⟩
  · simp at success

end StringLiteral

/-- What is read as a keyword is one of the keywords. -/
theorem readKeyword?_token {text rest : List Char} {value : Value}
    (found : readKeyword? text = some (value, rest)) :
    ∃ word, (word, value) ∈ keywords ∧ text = word ++ rest := by
  obtain ⟨keyword, member, found⟩ := List.exists_of_findSome?_eq_some found
  simp only [Option.map_eq_some_iff, Prod.mk.injEq, after?_eq_some_iff] at found
  obtain ⟨others, parts, rfl, rfl⟩ := found
  exact ⟨keyword.1, member, parts⟩

/-- No keyword begins with another one, so the one that is there is found. -/
theorem readKeyword?_append {word : List Char} {value : Value} (member : (word, value) ∈ keywords)
    (more : List Char) : readKeyword? (word ++ more) = some (value, more) := by
  simp only [keywords, List.mem_cons, List.not_mem_nil, or_false, Prod.mk.injEq] at member
  rcases member with ⟨rfl, rfl⟩ | ⟨rfl, rfl⟩ | ⟨rfl, rfl⟩ | ⟨rfl, rfl⟩ | ⟨rfl, rfl⟩ | ⟨rfl, rfl⟩ <;>
    rfl

/-- No keyword starts as a number does. -/
theorem readKeyword?_number {sign : List Char} {first : Char} (signs : sign = [] ∨ sign = ['-'])
    (digit : first.isDigit) (others : List Char) :
    readKeyword? (sign ++ first :: others) = none := by
  apply List.findSome?_eq_none_iff.mpr
  intro keyword member
  rw [Option.map_eq_none_iff, Option.eq_none_iff_forall_ne_some]
  intro rest found
  rw [after?_eq_some_iff] at found
  simp only [keywords, List.mem_cons, List.not_mem_nil, or_false] at member
  rcases signs with rfl | rfl <;> rcases member with rfl | rfl | rfl | rfl | rfl | rfl <;>
    simp at found <;> simp [found] at digit

end LintReport.Json
