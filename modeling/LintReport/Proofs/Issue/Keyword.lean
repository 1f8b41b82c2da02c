import LintReport.Issue.TextLine
import LintReport.Proofs.Number.Digits
import LintReport.Proofs.Text.Run

/-! # Severity words

The word of a severity may be spelled in any case, and its letter `i` with the Turkish dotted
capital or dotless small one. Folding a spelling gives the word (`TextLine.folded`). A spelling
with its colon is read off a text exactly as the text has one at its start
(`TextLine.severityOf?_eq_some_iff`), because the words of different severities start with
different letters. -/

namespace LintReport.TextLine

open Text

/-- The letter that a character spells: the small letter of ASCII for a capital one, and `i`
for the two Turkish letters. -/
def folded (char : Char) : Char :=
  if char = '\u0130' ∨ char = '\u0131' then 'i' else char.toLower

/-! ## Letters -/

theorem toNat_of_isUpper {char : Char} (upper : char.isUpper) :
    65 ≤ char.toNat ∧ char.toNat ≤ 90 := by
  have bounds : char.val ≥ 'A'.val ∧ char.val ≤ 'Z'.val := of_decide_eq_true upper
  exact ⟨UInt32.le_iff_toNat_le.mp bounds.1, UInt32.le_iff_toNat_le.mp bounds.2⟩

/-- The small letters of ASCII stand in a row. -/
theorem toNat_of_isLower {char : Char} (lower : char.isLower) :
    97 ≤ char.toNat ∧ char.toNat ≤ 122 := by
  obtain ⟨least, most⟩ := Bool.and_eq_true_iff.mp lower
  have least : char.val ≥ 'a'.val := of_decide_eq_true least
  have most : char.val ≤ 'z'.val := of_decide_eq_true most
  exact ⟨UInt32.le_iff_toNat_le.mp least, UInt32.le_iff_toNat_le.mp most⟩

/-- A character that is a letter in lower case is no blank. -/
theorem isBlank_of_isLower_toLower {char : Char} (small : char.toLower.isLower) :
    isBlank char = false := by
  have code : (65 ≤ char.toNat ∧ char.toNat ≤ 90) ∨ (97 ≤ char.toNat ∧ char.toNat ≤ 122) := by
    by_cases upper : char.isUpper
    · exact .inl (toNat_of_isUpper upper)
    · have noUpper : ¬ (char.val ≥ 'A'.val ∧ char.val ≤ 'Z'.val) :=
        fun bounds => upper (decide_eq_true bounds)
      have same : char.toLower = char := dif_neg noUpper
      exact .inr (toNat_of_isLower (same ▸ small))
  simp only [isBlank, Bool.or_eq_false_iff, Bool.and_eq_false_iff, decide_eq_false_iff_not,
    beq_eq_false_iff_ne]
  omega

/-- A letter of a keyword is not blank, however it is spelled. -/
theorem isBlank_of_isLower_folded {char : Char} (small : (folded char).isLower) :
    isBlank char = false := by
  unfold folded at small
  split at small
  · next turkish => rcases turkish with rfl | rfl <;> rfl
  · exact isBlank_of_isLower_toLower small

/-- A digit of any script is no letter of a word. -/
theorem isLower_folded_of_isDigit {char : Char} (digit : isDigit char) :
    (folded char).isLower = false :=
  @of_isDigit (fun char => (folded char).isLower = false) (by decide +kernel) char digit

/-- A letter of a keyword is no digit, however it is spelled. -/
theorem isDigit_of_isLower_folded {char : Char} (small : (folded char).isLower) :
    isDigit char = false := by
  cases digit : isDigit char with
  | false => rfl
  | true =>
      rw [isLower_folded_of_isDigit digit] at small
      cases small

/-- A character that has a small letter in lower case folds to it. -/
theorem folded_eq_toLower {char : Char} (small : char.toLower.isLower) :
    folded char = char.toLower := by
  refine if_neg ?_
  rintro (rfl | rfl) <;> exact absurd small (by decide)

/-- A character spells a small letter exactly if it folds to it. -/
theorem spells_eq {letter char : Char} (small : letter.isLower) :
    spells letter char = (folded char == letter) := by
  unfold spells folded
  by_cases turkish : char = '\u0130' ∨ char = '\u0131'
  · have other : char.toLower ≠ letter := by
      rintro rfl
      rcases turkish with rfl | rfl <;> exact absurd small (by decide)
    rw [if_pos turkish, beq_eq_false_iff_ne.mpr other, Bool.false_or, Bool.beq_comm]
    rcases turkish with rfl | rfl <;> exact Bool.and_true _
  · rw [if_neg turkish]
    rw [not_or] at turkish
    simp [turkish]

/-! ## Words -/

/-- A spelling of a word is found in front of any rest. -/
theorem spelledWord?_folded {word spelling : List Char} (small : ∀ letter ∈ word, letter.isLower)
    (spelled : spelling.map folded = word) (rest : List Char) :
    spelledWord? word (spelling ++ rest) = some (spelling, rest) := by
  induction spelling generalizing word with
  | nil =>
      subst spelled
      rfl
  | cons char spelling ih =>
      subst spelled
      obtain ⟨lower, small⟩ := List.forall_mem_cons.mp small
      rw [List.map_cons, List.cons_append, spelledWord?, spells_eq lower, ih small rfl]
      simp

/-- A spelling of a word is what stands at the start of a text and folds to the word. -/
theorem spelledWord?_eq_some_iff {word text spelling rest : List Char}
    (small : ∀ letter ∈ word, letter.isLower) :
    spelledWord? word text = some (spelling, rest) ↔
      text = spelling ++ rest ∧ spelling.map folded = word := by
  constructor
  · intro found
    induction word generalizing text spelling with
    | nil =>
        simp only [spelledWord?, Option.some.injEq, Prod.mk.injEq] at found
        rw [← found.1, ← found.2]
        exact ⟨rfl, rfl⟩
    | cons letter word ih =>
        obtain ⟨lower, small⟩ := List.forall_mem_cons.mp small
        cases text with
        | nil => simp [spelledWord?] at found
        | cons char text =>
            rw [spelledWord?, spells_eq lower] at found
            split at found
            · next same =>
                simp only [Option.map_eq_some_iff, Prod.mk.injEq] at found
                obtain ⟨⟨others, after⟩, inner, rfl, rfl⟩ := found
                obtain ⟨whole, word⟩ := ih small inner
                exact ⟨congrArg (char :: ·) whole, congrArg₂ List.cons (eq_of_beq same) word⟩
            · simp at found
  · rintro ⟨rfl, spelled⟩
    exact spelledWord?_folded small spelled rest

/-- The names of severities are in small letters. -/
theorem isLower_of_mem_name {severity : Severity} :
    ∀ letter ∈ severity.name.toList, letter.isLower := by
  have all : severity.name.toList.all Char.isLower = true := by
    cases severity <;> rfl
  exact List.all_eq_true.mp all

/-- The words of different severities start with different letters. -/
theorem eq_of_head?_name {left right : Severity}
    (same : left.name.toList.head? = right.name.toList.head?) : left = right := by
  revert same
  cases left <;> cases right <;> decide

variable {severity other : Severity} {spelling : List Char}

theorem spelling_ne_nil (spelled : spelling.map folded = severity.name.toList) :
    spelling ≠ [] := by
  rintro rfl
  cases severity <;> simp [Severity.name] at spelled

/-- The word of a severity in any case folds to the word. -/
theorem map_folded_of_toLower (spelled : spelling.map Char.toLower = severity.name.toList) :
    spelling.map folded = severity.name.toList := by
  rw [← spelled]
  apply List.map_congr_left
  intro char member
  have inside : char.toLower ∈ severity.name.toList := spelled ▸ List.mem_map_of_mem member
  exact folded_eq_toLower (isLower_of_mem_name _ inside)

/-- A spelling of a severity's word is made of letters, so it holds no blank. -/
theorem isBlank_of_mem_spelling (spelled : spelling.map folded = severity.name.toList) :
    ∀ char ∈ spelling, isBlank char = false := by
  intro char member
  have inside : folded char ∈ severity.name.toList := spelled ▸ List.mem_map_of_mem member
  exact isBlank_of_isLower_folded (isLower_of_mem_name _ inside)

/-- A spelling of a severity starts without a blank. -/
theorem startsWithout_isBlank_spelling (spelled : spelling.map folded = severity.name.toList)
    (rest : List Char) : StartsWithout isBlank (spelling ++ rest) := by
  apply StartsWithout.append _ (spelling_ne_nil spelled)
  intro char start
  exact isBlank_of_mem_spelling spelled char (List.mem_of_mem_head? start)

/-- No text starts with spellings of two severities. -/
theorem spelledWord?_other (different : other ≠ severity)
    (spelled : spelling.map folded = severity.name.toList) (rest : List Char) :
    spelledWord? other.name.toList (spelling ++ rest) = none := by
  cases found : spelledWord? other.name.toList (spelling ++ rest) with
  | none => rfl
  | some parts =>
      obtain ⟨whole, word⟩ := (spelledWord?_eq_some_iff isLower_of_mem_name).mp found
      obtain ⟨first, chars, same⟩ := List.exists_cons_of_ne_nil (spelling_ne_nil spelled)
      obtain ⟨letter, letters, sameOther⟩ := List.exists_cons_of_ne_nil (spelling_ne_nil word)
      rw [same, sameOther] at whole
      refine absurd (eq_of_head?_name ?_) different
      rw [← word, ← spelled, same, sameOther, (List.cons.inj whole).1]
      rfl

/-- A spelling of a severity's word is read off a text together with its colon. -/
theorem severityOf?_folded (spelled : spelling.map folded = severity.name.toList)
    (rest : List Char) : severityOf? (spelling ++ ':' :: rest) = some (spelling, rest) := by
  have own := spelledWord?_folded isLower_of_mem_name spelled (':' :: rest)
  have other : ∀ word : Severity, word ≠ severity →
      spelledWord? word.name.toList (spelling ++ ':' :: rest) = none :=
    fun word different => spelledWord?_other different spelled (':' :: rest)
  unfold severityOf? Severity.all
  cases severity with
  | error => simp only [List.findSome?_cons, own]
  | warning => simp only [List.findSome?_cons, other .error (by decide), own]
  | info =>
      simp only [List.findSome?_cons, other .error (by decide), other .warning (by decide), own]
  | hint =>
      simp only [List.findSome?_cons, other .error (by decide), other .warning (by decide),
        other .info (by decide), own]

/-- **Which severities are read**: the spelling of a severity's word with a colon after it, when
the text starts with these. -/
theorem severityOf?_eq_some_iff {text rest : List Char} :
    severityOf? text = some (spelling, rest) ↔
      text = spelling ++ ':' :: rest ∧
        ∃ severity : Severity, spelling.map folded = severity.name.toList := by
  constructor
  · intro found
    obtain ⟨severity, _, found⟩ := List.exists_of_findSome?_eq_some found
    split at found
    · next spelled after word =>
        simp only [Option.some.injEq, Prod.mk.injEq] at found
        obtain ⟨rfl, rfl⟩ := found
        obtain ⟨whole, spelled⟩ := (spelledWord?_eq_some_iff isLower_of_mem_name).mp word
        exact ⟨whole, severity, spelled⟩
    · simp at found
  · rintro ⟨rfl, severity, spelled⟩
    exact severityOf?_folded spelled rest

end LintReport.TextLine
