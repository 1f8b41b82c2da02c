import LintReport.Proofs.Json.Bare
import LintReport.Proofs.Json.Embedding
import LintReport.Proofs.Json.Parts
import LintReport.Proofs.Json.RoundTrip
import LintReport.Proofs.Report.Origin
import LintReport.Proofs.Text.Trimmed

/-! # Outputs that are documents

An output is read as a document exactly if it is the text of a JSON value once the blanks
around it are gone (`IsDocument`, `Findings.format_eq_json_iff`), and any other output is
read line by line. A line holds an object in the same sense: that objects start with a
brace, which is looked at first, excludes none (`lineObject?_trim_eq_some_iff`). Whatever
value an issue comes from was read from a part of the output (`Origin.denotes_of_mem`). A value
that was printed is read as a document again, with any blanks around it
(`Document.read_print`). -/

namespace LintReport

open Json Text

/-- Whether an output is the text of one JSON value, with blanks around it. -/
def IsDocument (output : String) : Prop :=
  ∃ value, Denotes maxDepth (trim output.toList) value

/-- A trimmed text has no room for space around the value that it holds. -/
theorem Json.parse_trim_eq_ok_iff {text : List Char} {value : Value} :
    parse (trim text) = .ok value ↔ Denotes maxDepth (trim text) value := by
  refine ⟨fun held => ?_, parseWithin_token⟩
  rw [parse_eq_parseWithin, parseWithin_eq_ok_iff] at held
  obtain ⟨before, token, after, parts, spaceBefore, denotes, spaceAfter⟩ := held
  cases before with
  | cons char before =>
      have starts := startsWithout_trim text
      rw [parts, List.cons_append, startsWithout_cons] at starts
      have blank := isBlank_of_isSpace (spaceBefore char List.mem_cons_self)
      exact absurd blank (by simp [starts])
  | nil =>
      cases after using List.reverseRecOn with
      | append_singleton after char =>
          have ends := endsWithout_trim text
          rw [parts, List.nil_append, ← List.append_assoc, endsWithout_concat] at ends
          have blank := isBlank_of_isSpace (spaceAfter char List.mem_concat_self)
          exact absurd blank (by simp [ends])
      | nil =>
          rw [parts, List.nil_append, List.append_nil]
          exact denotes

/-- An output is read as a document exactly if it is a value of JSON up to blanks around it. -/
theorem Document.read_eq_ok_iff {output : List Char} {document : Document} :
    read output = .ok document ↔
      ∃ value, Denotes maxDepth (trim output) value ∧ ofValue value = document := by
  simp only [← parse_trim_eq_ok_iff, read]
  cases parse (trim output) <;> simp

namespace Document

variable {depth : Nat} {token : List Char} {value : Value}

/-- The items of a document are the items of an array that was read, or it has only one. -/
theorem items_ofValue (denotes : Denotes depth token value) :
    (∃ part, part <:+: token ∧ Denotes depth part (.array (ofValue value).items)) ∨
      (ofValue value).items = [value] := by
  unfold ofValue
  split
  · exact .inl ⟨token, List.infix_rfl, denotes⟩
  · split
    · next items found =>
        obtain ⟨inner, there, listed⟩ := Option.bind_eq_some_iff.mp found
        obtain ⟨part, inside, held⟩ := denotes.of_get? there
        exact .inl ⟨part, inside, Value.items?_eq_some_iff.mp listed ▸ held⟩
    · exact .inr rfl

/-- Each issue of a document has its token in the text. -/
theorem denotes_of_mem_items (denotes : Denotes depth token value) {item : Value}
    (member : item ∈ (ofValue value).items) : ∃ part, Denotes depth part item := by
  rcases items_ofValue denotes with ⟨part, _, held⟩ | alone
  · obtain ⟨inner, _, denotes⟩ := held.of_mem_items member
    exact ⟨inner, denotes⟩
  · rw [alone, List.mem_singleton] at member
    exact ⟨token, member ▸ denotes⟩

/-- A document has no more issues than characters. -/
theorem length_items_le (denotes : Denotes depth token value) :
    (ofValue value).items.length ≤ token.length := by
  rcases items_ofValue denotes with ⟨part, inside, held⟩ | alone
  · exact held.length_items_le.trans inside.length_le
  · rw [alone, List.length_singleton]
    exact List.length_pos_iff.mpr denotes.isTrimmed.filled

end Document

/-- A bare text with a colon is no document. -/
theorem not_isDocument_of_bare {output : String} {first : Char}
    (start : output.toList.head? = some first) (filled : isBlank first = false)
    (bare : first ∉ ['{', '[', '"']) (colon : ':' ∈ output.toList) : ¬ IsDocument output := by
  rintro ⟨value, denotes⟩
  have kept := head?_trim start filled
  have space : isSpace first = false := by
    cases space : isSpace first with
    | false => rfl
    | true => exact absurd (isBlank_of_isSpace space) (by simp [filled])
  have other : ∀ mark ∈ ['{', '[', '"'], (trim output.toList).head? ≠ some mark := by
    intro mark member same
    rw [kept, Option.some.injEq] at same
    exact bare (same ▸ member)
  obtain ⟨fault, failed⟩ :=
    parse_bare (startsWithout_of_head? kept space) other (mem_trim colon rfl)
  rw [parse_trim_eq_ok_iff.mpr denotes] at failed
  cases failed

theorem isDocument_iff_read {output : String} :
    IsDocument output ↔ ∃ document, Document.read output.toList = .ok document := by
  simp [IsDocument, Document.read_eq_ok_iff]

/-- A line holds an object exactly if it is the text of one, but for blanks. -/
theorem lineObject?_trim_eq_some_iff {line : List Char} {raw : Value} :
    lineObject? (trim line) = some raw ↔ Denotes maxDepth (trim line) raw ∧ raw.isObject := by
  rw [← parse_trim_eq_ok_iff]
  constructor
  · intro found
    unfold lineObject? at found
    split at found
    · split at found
      · next value held =>
          split at found
          · next object =>
              rw [Option.some.injEq] at found
              exact ⟨found ▸ held, found ▸ object⟩
          · simp at found
      · simp at found
    · simp at found
  · rintro ⟨held, object⟩
    cases raw with
    | object entries =>
        obtain ⟨inner, braces⟩ := (parse_trim_eq_ok_iff.mp held).braces
        rw [lineObject?, if_pos (by rw [braces]; rfl), held]
        rfl
    | _ => simp [Value.isObject] at object

/-- Whatever value an issue comes from was read. -/
theorem Origin.denotes_of_mem {output : String} {raw : Value}
    (member : Origin.value raw ∈ ofOutput output) : ∃ token, Denotes maxDepth token raw := by
  unfold ofOutput at member
  split at member
  · next document read =>
      obtain ⟨item, there, same⟩ := List.mem_map.mp member
      rw [Origin.value.injEq] at same
      obtain ⟨value, denotes, rfl⟩ := Document.read_eq_ok_iff.mp read
      exact Document.denotes_of_mem_items denotes (same ▸ there)
  · obtain ⟨line, _, found⟩ := List.mem_filterMap.mp member
    unfold ofLine? at found
    split at found
    · next object held =>
        rw [Option.some.injEq, Origin.value.injEq] at found
        exact ⟨_, found ▸ (lineObject?_trim_eq_some_iff.mp held).1⟩
    · simp at found

namespace Findings

variable {placement : Placement} {output : String}

/-- A document is reported as JSON, and no line of it is skipped. -/
theorem ofOutput_of_isDocument (held : IsDocument output) :
    (ofOutput placement output).format = .json ∧ (ofOutput placement output).skipped = 0 := by
  obtain ⟨document, read⟩ := isDocument_iff_read.mp held
  rw [ofOutput, read]
  exact ⟨rfl, rfl⟩

/-- What is no document is reported line by line. -/
theorem ofOutput_of_not_isDocument (noDocument : ¬ IsDocument output) :
    ofOutput placement output = ofLines placement output.toList := by
  rw [ofOutput]
  cases read : Document.read output.toList with
  | error fault => rfl
  | ok document => exact absurd (isDocument_iff_read.mpr ⟨document, read⟩) noDocument

/-- **How an output is read.** As one document exactly if it is one. -/
theorem format_eq_json_iff : (ofOutput placement output).format = .json ↔ IsDocument output := by
  refine ⟨fun json => ?_, fun held => (ofOutput_of_isDocument held).1⟩
  by_contra noDocument
  rw [ofOutput_of_not_isDocument noDocument] at json
  cases json

end Findings

/-! ## Documents that were printed

The shape of the document is the shape of the value. An object that was printed on one line is
what the line holds. -/

namespace Document

/-- A text that denotes a value is a document of that value, with any blanks around it. -/
theorem read_surrounded {token before after : List Char} {value : Value}
    (denotes : Denotes maxDepth token value) (blankBefore : ∀ char ∈ before, isBlank char)
    (blankAfter : ∀ char ∈ after, isBlank char) :
    read (before ++ token ++ after) = .ok (ofValue value) := by
  have ends := denotes.isTrimmed
  rw [read_eq_ok_iff, trim_surrounded blankBefore blankAfter ends.filled ends.starts ends.ends]
  exact ⟨value, denotes, rfl⟩

/-- An object with an array of issues is a wrapper. -/
theorem ofValue_object_of_issues {value : Value} {items : List Value} (object : value.isObject)
    (issues : value.get? "issues" = some (.array items)) : ofValue value = .wrapped items := by
  cases value with
  | object entries =>
      simp only [ofValue, issues]
      rfl
  | _ => cases object

/-- A value that is neither an array nor a wrapper is an issue itself. -/
theorem ofValue_of_not_issues {value : Value} (noArray : ∀ items, value ≠ .array items)
    (noIssues : ∀ items, value.get? "issues" ≠ some (.array items)) :
    ofValue value = .single value := by
  have none : (value.get? "issues").bind Value.items? = none := by
    cases found : value.get? "issues" with
    | none => rfl
    | some inner =>
        cases inner with
        | array items => exact absurd found (noIssues items)
        | _ => rfl
  cases value with
  | array items => exact absurd rfl (noArray items)
  | _ => simp only [ofValue, none]

/-- **What was printed is read again.** A value whose whole numbers are short, whose names
are distinct and whose containers do not nest too deep is printed as a document, in either
layout and with any blanks around it: its items if it is an array, the items under
`issues` if these are an array, and the value itself otherwise. -/
theorem read_print (layout : Layout) {value : Value} (spellable : value.isSpellable)
    (distinct : value.isDistinct) (shallow : value.depth ≤ maxDepth) {before after : List Char}
    (blankBefore : ∀ char ∈ before, isBlank char) (blankAfter : ∀ char ∈ after, isBlank char) :
    (∀ items, value = .array items →
      read (before ++ (value.print layout).toList ++ after) = .ok (.issues items)) ∧
    (∀ items, value.isObject → value.get? "issues" = some (.array items) →
      read (before ++ (value.print layout).toList ++ after) = .ok (.wrapped items)) ∧
    ((∀ items, value ≠ .array items) → (∀ items, value.get? "issues" ≠ some (.array items)) →
      read (before ++ (value.print layout).toList ++ after) = .ok (.single value)) ∧
    (value.isObject → lineObject? (value.print .inline).toList = some value) := by
  have writable : value.IsWritable maxDepth :=
    Value.isWritable_iff.mpr ⟨spellable, distinct, shallow⟩
  have printed : read (before ++ (value.print layout).toList ++ after) = .ok (ofValue value) := by
    rw [Value.print, String.toList_ofList]
    exact read_surrounded (denotes_write layout writable) blankBefore blankAfter
  refine ⟨?_, ?_, ?_, ?_⟩
  · rintro items rfl
    exact printed
  · intro items object issues
    rw [printed, ofValue_object_of_issues object issues]
  · intro noArray noIssues
    rw [printed, ofValue_of_not_issues noArray noIssues]
  · intro object
    have denotes := @denotes_write .inline maxDepth 0 value writable
    have ends := denotes.isTrimmed
    rw [Value.print, String.toList_ofList, ← trim_eq_self ends.starts ends.ends,
      lineObject?_trim_eq_some_iff, trim_eq_self ends.starts ends.ends]
    exact ⟨denotes, object⟩

/-- An object with a list of issues, in two lines between a blank and a line end. -/
theorem read_print_wrapped :
    let value : Value := .object
      [("n", .float (.finite true 1023 0)), ("issues", .array [.string "\u00e9\t", .int (-12)])]
    read ([' '] ++ (value.print (.indented 2)).toList ++ ['\n', '\u2003']) =
        .ok (.wrapped [.string "\u00e9\t", .int (-12)]) ∧
      lineObject? (value.print .inline).toList = some value := by
  intro value
  have printed := @read_print (.indented 2) value (by decide) (by decide) (by decide) [' ']
    ['\n', '\u2003'] (List.all_eq_true.mp rfl) (List.all_eq_true.mp rfl)
  exact ⟨printed.2.1 _ rfl rfl, printed.2.2.2 rfl⟩

end Document

end LintReport
