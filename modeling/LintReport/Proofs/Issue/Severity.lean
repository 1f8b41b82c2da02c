import LintReport.Proofs.Issue.Grammar
import LintReport.Proofs.Text.Trimmed

/-! # Severities of text lines

The word of a severity is matched with two spellings of its letter `i` that are not looked up
later, the Turkish dotted capital and dotless small one. A text line has the severity whose word
it spells if there is neither of them in the spelling. With one of them it is an error, whichever
word was matched (`TextLine.severity_toIssue`). -/

namespace LintReport

open Text

/-! ## Looking words up -/

namespace Severity

variable {severity : Severity} {spelling : List Char}

theorem name_of_ofName? {word : String} (found : ofName? word = some severity) :
    severity.name = word := by
  unfold ofName? at found
  simpa using List.find?_some found

/-- A spelling of a severity's word has no blanks that looking it up would drop. -/
theorem ofWord_folded (spelled : spelling.map TextLine.folded = severity.name.toList) :
    ofWord spelling = (ofName? (String.ofList (spelling.map Char.toLower))).getD .error := by
  have noBlank := TextLine.isBlank_of_mem_spelling spelled
  have trimmed : trim spelling = spelling := by
    refine trim_eq_self (fun char start => ?_) (fun char last => ?_)
    · exact noBlank char (List.mem_of_mem_head? start)
    · exact noBlank char (List.mem_of_getLast? last)
  rw [ofWord, trimmed]

/-- A name in any case of ASCII is the word of its severity. -/
theorem ofWord_spelled (spelled : spelling.map Char.toLower = severity.name.toList) :
    ofWord spelling = severity := by
  rw [ofWord_folded (TextLine.map_folded_of_toLower spelled), spelled, String.ofList_toList,
    ofName?_name, Option.getD_some]

end Severity

namespace TextLine

/-! ## Turkish letters -/

/-- Whether a character is the Turkish dotted capital or dotless small letter. -/
def IsTurkish (char : Char) : Prop :=
  char = '\u0130' ∨ char = '\u0131'

instance : DecidablePred IsTurkish := fun _ => inferInstanceAs (Decidable (_ ∨ _))

variable {severity : Severity} {spelling : List Char}

/-- A spelling without the two Turkish letters is the word of its severity. -/
theorem ofWord_of_not_isTurkish (spelled : spelling.map folded = severity.name.toList)
    (plain : ∀ char ∈ spelling, ¬ IsTurkish char) : Severity.ofWord spelling = severity := by
  apply Severity.ofWord_spelled
  rw [← spelled]
  apply List.map_congr_left
  intro char member
  exact (if_neg (plain char member)).symm

/-- No severity's word has a Turkish letter, and lower case does not take it away. -/
theorem ofWord_of_isTurkish (spelled : spelling.map folded = severity.name.toList) {char : Char}
    (member : char ∈ spelling) (turkish : IsTurkish char) : Severity.ofWord spelling = .error := by
  rw [Severity.ofWord_folded spelled]
  cases found : Severity.ofName? (String.ofList (spelling.map Char.toLower)) with
  | none => rfl
  | some other =>
      have word := congrArg String.toList (Severity.name_of_ofName? found)
      rw [String.toList_ofList] at word
      have inside : char.toLower ∈ other.name.toList := word ▸ List.mem_map_of_mem member
      have small := isLower_of_mem_name _ inside
      rcases turkish with rfl | rfl <;> exact absurd small (by decide)

/-! ## Text lines -/

/-- What a text line gives as its severity spells the word of one. -/
theorem exists_severity {text : List Char} {line : TextLine} (found : ofText? text = some line) :
    ∃ severity : Severity, line.remark.severity.map folded = severity.name.toList := by
  obtain ⟨after, _, read⟩ := (ofText?_eq_some_iff.mp found).stands
  obtain ⟨_, _, rest, _, tail⟩ := Remark.place_of_ofText? read
  exact (Remark.parts_of_afterPlace? tail).2.2.1

/-- A spelling belongs to one severity. -/
theorem eq_of_folded {other : Severity} (spelled : spelling.map folded = severity.name.toList)
    (another : spelling.map folded = other.name.toList) : other = severity :=
  eq_of_head?_name (by rw [← spelled, ← another])

/-- **Severities of text lines**: what a line gives as its severity spells the word of exactly one,
and this is the severity of its issue unless there is a Turkish letter in the spelling. With one,
the issue is an error. -/
theorem severity_toIssue {text : List Char} {line : TextLine} (found : ofText? text = some line) :
    ∃ severity : Severity, line.remark.severity.map folded = severity.name.toList ∧
      (∀ other : Severity, line.remark.severity.map folded = other.name.toList →
        other = severity) ∧
      ∀ placement,
        ((∀ char ∈ line.remark.severity, ¬ IsTurkish char) →
          (line.toIssue placement).severity = severity) ∧
        ((∃ char ∈ line.remark.severity, IsTurkish char) →
          (line.toIssue placement).severity = .error) := by
  obtain ⟨severity, spelled⟩ := exists_severity found
  refine ⟨severity, spelled, fun other another => eq_of_folded spelled another, ?_⟩
  intro placement
  constructor
  · exact ofWord_of_not_isTurkish spelled
  · rintro ⟨char, member, turkish⟩
    exact ofWord_of_isTurkish spelled member turkish

/-- A hint in capital and small letters. -/
theorem severity_toIssue_hint :
    ofText? "a.php:1: hInT: m".toList =
        some ⟨"a.php".toList, ⟨['1'], none, "hInT".toList, ['m']⟩⟩ ∧
      ∀ placement,
        (toIssue placement ⟨"a.php".toList, ⟨['1'], none, "hInT".toList, ['m']⟩⟩).severity =
          .hint := by
  have found : ofText? "a.php:1: hInT: m".toList =
      some ⟨"a.php".toList, ⟨['1'], none, "hInT".toList, ['m']⟩⟩ := by decide
  refine ⟨found, fun placement => ?_⟩
  obtain ⟨severity, _, only, reported⟩ := severity_toIssue found
  rw [(reported placement).1, only .hint (by decide)]
  have plain : "hInT".toList.all fun char => decide (¬ IsTurkish char) := by decide
  exact fun char member => of_decide_eq_true (List.all_eq_true.mp plain char member)

/-- Spelled with a dotless letter, the word of an information is matched, and the line is an
error. -/
theorem severity_toIssue_dotless :
    ofText? "a.php:1: \u0131nfo: m".toList =
        some ⟨"a.php".toList, ⟨['1'], none, "\u0131nfo".toList, ['m']⟩⟩ ∧
      "\u0131nfo".toList.map folded = Severity.info.name.toList ∧
      (toIssue (.pinned "a.php")
        ⟨"a.php".toList, ⟨['1'], none, "\u0131nfo".toList, ['m']⟩⟩).severity = .error := by
  refine ⟨?_, ?_, ?_⟩ <;> decide

end TextLine

end LintReport
