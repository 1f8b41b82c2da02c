import LintReport.Proofs.Number.Digits

/-! # The grammar of numerals

A numeral is a run of digits, which single underscores may divide, with at most one sign before it
and padding around it (`Numeral.IsNumeral`). What is read as a whole number are the numerals with
few enough digits, each as the number that its digits denote (`Numeral.read_eq_ok_iff`). -/

namespace LintReport.Numeral

open Text

/-- Whether a text is made of digits, with single underscores between some of them. -/
inductive IsRun : List Char → Prop
  | single {char : Char} (digit : isDigit char) : IsRun [char]
  | next {char : Char} {rest : List Char} (digit : isDigit char) (run : IsRun rest) :
      IsRun (char :: rest)
  | apart {char : Char} {rest : List Char} (digit : isDigit char) (run : IsRun rest) :
      IsRun (char :: '_' :: rest)

/-- Whether a text is a numeral for a whole number, with few enough digits to be read. -/
inductive IsNumeral : List Char → Int → Prop
  | written {before sign run after : List Char} (start : ∀ char ∈ before, isPadding char)
      (known : sign ∈ [[], ['+'], ['-']]) (digits : IsRun run)
      (short : (run.filter isDigit).length ≤ maxDigits) (stop : ∀ char ∈ after, isPadding char) :
      IsNumeral (before ++ (sign ++ (run ++ after)))
        (if sign = ['-'] then -(digitsValue run : Int) else digitsValue run)

/-! ## Runs of digits -/

theorem isDigit_of_isPadding {char : Char} (padding : isPadding char) : isDigit char = false :=
  isDigit_of_isBlank (Bool.and_eq_true_iff.mp padding).1

/-- No padding stands in a run of digits. -/
theorem isRunChar_of_isPadding {char : Char} (padding : isPadding char) :
    isRunChar char = false := by
  have other : char ≠ '_' := by
    rintro rfl
    cases padding
  rw [isRunChar, isDigit_of_isPadding padding, beq_eq_false_iff_ne.mpr other, Bool.or_false]

theorem ne_underscore_of_isDigit {char : Char} (digit : isDigit char) : char ≠ '_' := by
  rintro rfl
  cases digit

/-- A run starts with a digit. -/
theorem isRun_cons {char : Char} {rest : List Char} (run : IsRun (char :: rest)) :
    isDigit char := by
  cases run with
  | single digit => exact digit
  | next digit _ => exact digit
  | apart digit _ => exact digit

/-- A run has digits and underscores only. -/
theorem IsRun.all {run : List Char} (digits : IsRun run) : ∀ char ∈ run, isRunChar char := by
  have digit : ∀ {char}, isDigit char → isRunChar char := by
    intro char digit
    rw [isRunChar, digit, Bool.true_or]
  induction digits with
  | single here => exact List.forall_mem_singleton.mpr (digit here)
  | next here _ ih => exact List.forall_mem_cons.mpr ⟨digit here, ih⟩
  | apart here _ ih =>
      exact List.forall_mem_cons.mpr ⟨digit here, List.forall_mem_cons.mpr ⟨rfl, ih⟩⟩

/-- Digits without underscores are a run. -/
theorem isRun_of_digits {digits : List Char} (all : ∀ char ∈ digits, isDigit char)
    (filled : digits ≠ []) : IsRun digits := by
  induction digits with
  | nil => exact absurd rfl filled
  | cons char rest ih =>
      obtain ⟨digit, all⟩ := List.forall_mem_cons.mp all
      cases rest with
      | nil => exact .single digit
      | cons next rest => exact .next digit (ih all (List.cons_ne_nil _ _))

/-- The underscores of a run are well placed exactly if each has a digit on both sides. -/
theorem underscoresSeparate_iff {run : List Char} (all : ∀ char ∈ run, isRunChar char) :
    (underscoresSeparate false run ↔ IsRun run) ∧
      ∀ {char : Char}, isDigit char → (underscoresSeparate true run ↔ IsRun (char :: run)) := by
  -- whether a digit came just before decides what may come first
  induction run with
  | nil =>
      refine ⟨⟨?_, ?_⟩, fun digit => ⟨fun _ => .single digit, fun _ => rfl⟩⟩
      · intro separate
        cases separate
      · intro run
        cases run
  | cons first rest ih =>
      obtain ⟨here, all⟩ := List.forall_mem_cons.mp all
      obtain ⟨apart, next⟩ := ih all
      by_cases underscore : first = '_'
      · subst underscore
        have starts : ¬ IsRun ('_' :: rest) :=
          fun run => ne_underscore_of_isDigit (isRun_cons run) rfl
        refine ⟨⟨fun separate => ?_, fun run => absurd run starts⟩, fun digit => ?_⟩
        · simp [underscoresSeparate] at separate
        · rw [underscoresSeparate, if_pos rfl, Bool.true_and, apart]
          constructor
          · exact .apart digit
          · intro run
            cases run with
            | next _ run => exact absurd run starts
            | apart _ run => exact run
      · have digit : isDigit first := by
          simpa [isRunChar, underscore] using here
        refine ⟨?_, fun before => ?_⟩
        · rw [underscoresSeparate, if_neg underscore, next digit]
        · rw [underscoresSeparate, if_neg underscore, next digit]
          constructor
          · exact .next before
          · intro run
            cases run with
            | next _ run => exact run
            | apart _ run => exact absurd rfl underscore

/-- Underscores are worth nothing. -/
theorem digitsValue_filter (run : List Char) :
    digitsValue (run.filter isDigit) = digitsValue run := by
  rw [digitsValue, digitsValue, List.filterMap_filter]
  congr 2
  funext char
  cases known : digitValue? char with
  | none => simp
  | some value => simp [isDigit, known]

/-! ## Signs -/

/-- The sign is taken off what starts with a digit. -/
theorem splitSign_append {sign body : List Char} (known : sign ∈ [[], ['+'], ['-']])
    (run : IsRun body) (after : List Char) :
    splitSign (sign ++ (body ++ after)) = (decide (sign = ['-']), body ++ after) := by
  obtain ⟨first, rest, rfl⟩ : ∃ first rest, body = first :: rest := by
    cases run <;> exact ⟨_, _, rfl⟩
  have digit := isRun_cons run
  have noMinus : first ≠ '-' := by
    rintro rfl
    cases digit
  have noPlus : first ≠ '+' := by
    rintro rfl
    cases digit
  simp only [List.mem_cons, List.not_mem_nil, or_false] at known
  rcases known with rfl | rfl | rfl
  · simp [splitSign, noMinus, noPlus]
  · rfl
  · rfl

/-- A text is at most one sign and what follows it. -/
theorem exists_sign (text : List Char) : ∃ sign ∈ [[], ['+'], ['-']], ∃ body,
    text = sign ++ body ∧ splitSign text = (decide (sign = ['-']), body) := by
  unfold splitSign
  split
  · exact ⟨['-'], by decide, _, rfl, rfl⟩
  · exact ⟨['+'], by decide, _, rfl, rfl⟩
  · exact ⟨[], by decide, _, rfl, rfl⟩

/-! ## Numerals -/

/-- A numeral is read as its number. -/
theorem read_of_isNumeral {text : List Char} {number : Int} (numeral : IsNumeral text number) :
    read text = .ok number := by
  obtain @⟨before, sign, run, after, start, known, digits, short, stop⟩ := numeral
  have body : StartsWithout isPadding (sign ++ (run ++ after)) := by
    have first : StartsWithout isPadding run := by
      intro char head
      cases padding : isPadding char with
      | false => rfl
      | true =>
          have runs := digits.all char (List.mem_of_head? head)
          rw [isRunChar_of_isPadding padding] at runs
          cases runs
    have filled : run ≠ [] := by
      rintro rfl
      cases digits
    simp only [List.mem_cons, List.not_mem_nil, or_false] at known
    rcases known with rfl | rfl | rfl
    · exact first.append filled after
    · exact startsWithout_cons.mpr rfl
    · exact startsWithout_cons.mpr rfl
  have tail : StartsWithout isRunChar after := by
    intro char head
    exact isRunChar_of_isPadding (stop char (List.mem_of_head? head))
  have taken := takeWhile_run digits.all tail
  have left := dropWhile_run digits.all tail
  have separate : underscoresSeparate false run = true :=
    (underscoresSeparate_iff digits.all).1.mpr digits
  have few : ofDigits (run.filter isDigit) = .ok (digitsValue run) := by
    rw [ofDigits, if_neg (Nat.not_lt.mpr short), digitsValue_filter]
  have padded : after.all isPadding := List.all_eq_true.mpr stop
  simp only [read, dropWhile_run start body, splitSign_append known digits, taken, left, separate,
    few, padded, Bool.not_true, Bool.false_eq_true, if_false, if_true, signed, decide_eq_true_eq]

/-- What has to hold of the parts of a text that is read. -/
theorem parts_of_read {text body : List Char} {negative : Bool} {number : Int}
    (cut : splitSign (text.dropWhile isPadding) = (negative, body))
    (success : read text = .ok number) :
    underscoresSeparate false (body.takeWhile isRunChar) ∧
      ((body.takeWhile isRunChar).filter isDigit).length ≤ maxDigits ∧
      (body.dropWhile isRunChar).all isPadding ∧
      number = signed negative (digitsValue (body.takeWhile isRunChar)) := by
  simp only [read, cut] at success
  split at success
  · cases success
  · next separate =>
      split at success
      · cases success
      · next size few =>
          split at success
          · next padded =>
              unfold ofDigits at few
              split at few
              · cases few
              · next short =>
                  rw [Except.ok.injEq] at few success
                  refine ⟨by simpa using separate, Nat.not_lt.mp short, padded, ?_⟩
                  rw [← success, ← few, digitsValue_filter]
          · cases success

/-- What is read as a number is a numeral for it. -/
theorem isNumeral_of_read {text : List Char} {number : Int} (success : read text = .ok number) :
    IsNumeral text number := by
  obtain ⟨sign, known, body, whole, cut⟩ := exists_sign (text.dropWhile isPadding)
  obtain ⟨separate, short, padded, rfl⟩ := parts_of_read cut success
  have start : ∀ char ∈ text.takeWhile isPadding, isPadding char :=
    fun _ member => List.mem_takeWhile_imp member
  have all : ∀ char ∈ body.takeWhile isRunChar, isRunChar char :=
    fun _ member => List.mem_takeWhile_imp member
  have parts := IsNumeral.written start known ((underscoresSeparate_iff all).1.mp separate) short
    (List.all_eq_true.mp padded)
  rw [List.takeWhile_append_dropWhile, ← whole, List.takeWhile_append_dropWhile] at parts
  simpa only [signed, decide_eq_true_eq] using parts

/-- **The grammar of numerals**: what is read as a whole number are its numerals. -/
theorem read_eq_ok_iff {text : List Char} {number : Int} :
    read text = .ok number ↔ IsNumeral text number :=
  ⟨isNumeral_of_read, read_of_isNumeral⟩

/-- A numeral of digits alone, as many as it may have, is read as what they denote. -/
theorem read_digits {digits : List Char} (all : ∀ char ∈ digits, isDigit char)
    (filled : digits ≠ []) (short : digits.length ≤ maxDigits) :
    read digits = .ok (digitsValue digits) := by
  have whole : digits.filter isDigit = digits := List.filter_eq_self.mpr all
  have nothing : ∀ char ∈ ([] : List Char), isPadding char := by simp
  have numeral := @IsNumeral.written [] [] digits [] nothing (by decide)
    (isRun_of_digits all filled) (by rwa [whole]) nothing
  rw [List.append_nil] at numeral
  exact read_eq_ok_iff.mpr numeral

/-- A number of few enough digits is read back from its decimal digits. -/
theorem read_toDigits {number : Nat} (short : (Nat.toDigits 10 number).length ≤ maxDigits) :
    read (Nat.toDigits 10 number) = .ok number := by
  have all : ∀ char ∈ Nat.toDigits 10 number, isDigit char :=
    fun char member => isDigit_of_isDigit (isDigit_of_mem_toDigits char member)
  rw [read_digits all Nat.toDigits_ne_nil short, digitsValue_toDigits]

/-- Too many digits are not read, whatever stands between them and around them. -/
theorem IsNumeral.length_digits_le {text : List Char} {number : Int}
    (numeral : IsNumeral text number) : (text.filter isDigit).length ≤ maxDigits := by
  obtain @⟨before, sign, run, after, start, known, _, short, stop⟩ := numeral
  have noDigits : ∀ padding : List Char, (∀ char ∈ padding, isPadding char) →
      padding.filter isDigit = [] := by
    intro padding all
    apply List.filter_eq_nil_iff.mpr
    intro char member
    simp [isDigit_of_isPadding (all char member)]
  have noSign : sign.filter isDigit = [] := by
    simp only [List.mem_cons, List.not_mem_nil, or_false] at known
    rcases known with rfl | rfl | rfl <;> rfl
  rwa [List.filter_append, List.filter_append, List.filter_append, noDigits before start, noSign,
    noDigits after stop, List.append_nil]

end LintReport.Numeral
