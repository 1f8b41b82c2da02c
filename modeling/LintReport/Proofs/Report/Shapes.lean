import LintReport.Proofs.Json.Embedding
import LintReport.Proofs.Keyed.Grouped
import LintReport.Proofs.Text.Trimmed
import LintReport.Report

/-! # The shapes of an output

Texts of issues may be printed as one array, in a wrapper, or one on each line. The three
outputs are read in different ways, the last one not even as a document, and still hold
the same issues (`ReportParser.shapes_agree`). Issues are read one by one, so a report on
several is put together from the reports on each (`ReportParser.reports_arrayOutput`). -/

namespace LintReport

open Json Text

/-! ## Outputs -/

namespace Document

/-- The output that is an array of issues with the given texts. -/
def arrayOutput (texts : List String) : String :=
  String.ofList (arrayText (texts.map String.toList))

/-- The output that wraps an array of issues. -/
def wrapperOutput (texts : List String) : String :=
  String.ofList (entryText "\"issues\":".toList (arrayText (texts.map String.toList)))

/-- The output with one text on each line. -/
def linesOutput (texts : List String) : String :=
  String.ofList (join ['\n'] (texts.map String.toList))

end Document

/-- Whether a text is one line that holds a JSON object, with room for two more levels of
nesting around it. -/
structure IsObjectLine (text : String) : Prop where
  single : '\n' ∉ text.toList
  object : ∃ entries, parseWithin (maxDepth - 2) text.toList = .ok (.object entries)

/-- The value that a text holds, `null` if it holds none. -/
def Json.valueOf (text : String) : Value :=
  (parse text.toList).toOption.getD .null

/-- What a text is parsed as within some levels is its value. -/
theorem Json.parseWithin_valueOf {depth : Nat} (within : depth ≤ maxDepth) {text : String}
    {value : Value} (held : parseWithin depth text.toList = .ok value) :
    parseWithin depth text.toList = .ok (valueOf text) := by
  have same : valueOf text = value := by
    rw [valueOf, parse_eq_parseWithin, parseWithin_mono within held]
    rfl
  rw [same, held]

/-- Braces are no blanks, so trimming leaves a text between braces as it is. -/
theorem noBlanks_braces (inner : List Char) : StartsWithout isBlank ('{' :: (inner ++ ['}'])) ∧
    EndsWithout isBlank ('{' :: (inner ++ ['}'])) := by
  constructor
  · exact startsWithout_cons.mpr rfl
  · rw [← List.cons_append]
    exact endsWithout_concat.mpr rfl

/-- An object that is no wrapper is an issue itself. -/
theorem Document.ofValue_object {value : Value} (object : value.isObject)
    (noWrapper : (value.get? "issues").bind Value.items? = none) :
    ofValue value = .single value := by
  cases value with
  | object entries => simp only [ofValue, noWrapper]
  | _ => simp [Value.isObject] at object

/-! ## Objects on lines -/

namespace IsObjectLine

variable {text : String}

theorem parseWithin_valueOf (line : IsObjectLine text) :
    parseWithin (maxDepth - 2) text.toList = .ok (valueOf text) := by
  obtain ⟨entries, held⟩ := line.object
  exact Json.parseWithin_valueOf (Nat.sub_le _ _) held

theorem parse_valueOf (line : IsObjectLine text) : parse text.toList = .ok (valueOf text) := by
  rw [parse_eq_parseWithin]
  exact parseWithin_mono (Nat.sub_le _ _) line.parseWithin_valueOf

/-- The value of an object line is an object. -/
theorem isObject_valueOf (line : IsObjectLine text) : (valueOf text).isObject := by
  obtain ⟨entries, held⟩ := line.object
  have same := line.parseWithin_valueOf.symm.trans held
  rw [Except.ok.injEq] at same
  rw [same]
  rfl

/-- A line with an object is made of its braces, what is between them, and blanks. -/
theorem parts (line : IsObjectLine text) :
    ∃ before inner after, text.toList = before ++ ('{' :: (inner ++ ['}']) ++ after) ∧
      IsSpacing before ∧ IsSpacing after ∧
      Denotes maxDepth ('{' :: (inner ++ ['}'])) (valueOf text) := by
  have held := line.parse_valueOf
  rw [parse_eq_parseWithin, parseWithin_eq_ok_iff] at held
  obtain ⟨before, token, after, parts, spaceBefore, denotes, spaceAfter⟩ := held
  have object := line.isObject_valueOf
  cases value : valueOf text with
  | object entries =>
      rw [value] at denotes
      obtain ⟨inner, rfl⟩ := denotes.braces
      exact ⟨before, inner, after, parts, spaceBefore, spaceAfter, denotes⟩
  | _ => simp [value, Value.isObject] at object

/-- Trimming a line with an object leaves the object, which starts with a brace. -/
theorem parse_trim (line : IsObjectLine text) :
    (∃ rest, trim text.toList = '{' :: rest) ∧ parse (trim text.toList) = .ok (valueOf text) := by
  obtain ⟨before, inner, after, parts, spaceBefore, spaceAfter, denotes⟩ := line.parts
  have trimmed : trim text.toList = '{' :: (inner ++ ['}']) := by
    rw [parts, ← List.append_assoc]
    obtain ⟨starts, ends⟩ := noBlanks_braces inner
    exact trim_surrounded (fun char member => isBlank_of_isSpace (spaceBefore char member))
      (fun char member => isBlank_of_isSpace (spaceAfter char member)) (List.cons_ne_nil _ _)
      starts ends
  have read : parse ('{' :: (inner ++ ['}'])) = .ok (valueOf text) := parseWithin_token denotes
  rw [trimmed]
  exact ⟨⟨_, rfl⟩, read⟩

/-- An object line is found if its object can be converted, and dropped otherwise. -/
theorem ofLine_eq (line : IsObjectLine text) (placement : Placement) :
    LineReading.ofLine placement text.toList =
      (Issue.ofValue? placement (valueOf text)).elim .dropped .found := by
  obtain ⟨⟨rest, start⟩, read⟩ := line.parse_trim
  have filled : trim text.toList ≠ [] := start ▸ List.cons_ne_nil _ _
  have object : lineObject? (trim text.toList) = some (valueOf text) := by
    rw [lineObject?, read, start, List.head?_cons, if_pos rfl]
    exact if_pos line.isObject_valueOf
  simp only [LineReading.ofLine, filled, if_false, object]
  cases Issue.ofValue? placement (valueOf text) <;> rfl

end IsObjectLine

/-! ## Whole outputs -/

namespace Document

/-- A token without blanks around it is read as the document of its value. -/
theorem read_token {output : List Char} {value : Value} (starts : StartsWithout isBlank output)
    (ends : EndsWithout isBlank output) (denotes : Denotes maxDepth output value) :
    read output = .ok (ofValue value) := by
  have parsed : parse output = .ok value := parseWithin_token denotes
  rw [read, trim_eq_self starts ends, parsed]

/-- A token for an object has no blanks around it, so it is read as the document of the object. -/
theorem read_object {output : List Char} {entries : List (String × Value)}
    (denotes : Denotes maxDepth output (.object entries)) :
    read output = .ok (ofValue (.object entries)) := by
  obtain ⟨inner, rfl⟩ := denotes.braces
  obtain ⟨starts, ends⟩ := noBlanks_braces inner
  exact read_token starts ends denotes

variable {texts : List String}

/-- Object texts between brackets denote the array of their values. -/
theorem denotes_texts (filled : texts ≠ []) {depth : Nat}
    (held : ∀ text ∈ texts, parseWithin depth text.toList = .ok (valueOf text)) :
    Denotes (depth + 1) (arrayText (texts.map String.toList)) (.array (texts.map valueOf)) := by
  have each : ∀ text ∈ texts.map String.toList,
      parseWithin depth text = .ok (valueOf (String.ofList text)) := by
    intro text member
    obtain ⟨string, there, rfl⟩ := List.mem_map.mp member
    rw [String.ofList_toList]
    exact held string there
  have denotes := denotes_arrayText (mt List.map_eq_nil_iff.mp filled) each
  rw [List.map_map] at denotes
  simpa only [Function.comp_def, String.ofList_toList] using denotes

/-- An array of texts is read as the issues that the texts hold, whatever these are. -/
theorem read_arrayOutput (filled : texts ≠ [])
    (held : ∀ text ∈ texts, parseWithin (maxDepth - 1) text.toList = .ok (valueOf text)) :
    read (arrayOutput texts).toList = .ok (.issues (texts.map valueOf)) := by
  have ends : EndsWithout isBlank (arrayText (texts.map String.toList)) := by
    rw [arrayText, ← List.cons_append]
    exact endsWithout_concat.mpr rfl
  rw [arrayOutput, String.toList_ofList]
  exact read_token (startsWithout_cons.mpr rfl) ends (denotes_texts filled held)

/-- Between the braces of a wrapper they are read as its issues. -/
theorem read_wrapperOutput (filled : texts ≠ [])
    (held : ∀ text ∈ texts, parseWithin (maxDepth - 2) text.toList = .ok (valueOf text)) :
    read (wrapperOutput texts).toList = .ok (.wrapped (texts.map valueOf)) := by
  have named : NameText "\"issues\":".toList "issues" :=
    @NameText.compact "issues\"".toList "issues" rfl
  rw [wrapperOutput, String.toList_ofList]
  exact read_object (denotes_entryText named (denotes_texts filled held))

/-- Objects on several lines end with a brace and blanks. -/
theorem join_objects (filled : texts ≠ []) (objects : ∀ text ∈ texts, IsObjectLine text) :
    ∃ start blanks, join ['\n'] (texts.map String.toList) = start ++ '}' :: blanks ∧
      ∀ char ∈ blanks, isBlank char := by
  induction texts with
  | nil => exact absurd rfl filled
  | cons text texts ih =>
      cases texts with
      | nil =>
          obtain ⟨before, inner, after, parts, _, spaceAfter, _⟩ :=
            (objects text List.mem_cons_self).parts
          refine ⟨before ++ '{' :: inner, after, ?_,
            fun char member => isBlank_of_isSpace (spaceAfter char member)⟩
          simp [join, parts]
      | cons next texts =>
          obtain ⟨start, blanks, joined, blank⟩ := ih (List.cons_ne_nil _ _)
            fun other member => objects other (List.mem_cons_of_mem _ member)
          refine ⟨text.toList ++ ['\n'] ++ start, blanks, ?_, blank⟩
          rw [List.map_cons, join_cons (mt List.map_eq_nil_iff.mp (List.cons_ne_nil _ _)), joined]
          simp only [List.append_assoc]

/-- Several objects on lines of their own are no document: the first one is followed by
the others. -/
theorem read_linesOutput (several : 2 ≤ texts.length)
    (objects : ∀ text ∈ texts, IsObjectLine text) :
    ∃ rest, read (linesOutput texts).toList = .error (.misread .extraData rest) := by
  obtain ⟨first, next, texts, rfl⟩ : ∃ first next rest, texts = first :: next :: rest := by
    cases texts with
    | nil => simp at several
    | cons first rest =>
        cases rest with
        | nil => simp at several
        | cons next rest => exact ⟨first, next, rest, rfl⟩
  obtain ⟨before, inner, after, parts, spaceBefore, spaceAfter, denotes⟩ :=
    (objects first List.mem_cons_self).parts
  obtain ⟨start, blanks, joined, blank⟩ := join_objects (List.cons_ne_nil next texts)
    fun other member => objects other (List.mem_cons_of_mem _ member)
  have output : (linesOutput (first :: next :: texts)).toList = before ++
      ('{' :: (inner ++ ['}']) ++ (after ++ '\n' :: (start ++ ['}']))) ++ blanks := by
    rw [linesOutput, String.toList_ofList, List.map_cons,
      join_cons (mt List.map_eq_nil_iff.mp (List.cons_ne_nil _ _)), joined, parts]
    simp only [List.append_assoc, List.cons_append, List.nil_append]
  -- trimming stops at the first brace of the first object and the last one of the last
  have trimmed : trim (linesOutput (first :: next :: texts)).toList =
      '{' :: (inner ++ ['}']) ++ (after ++ '\n' :: (start ++ ['}'])) := by
    rw [output]
    refine trim_surrounded (fun char member => isBlank_of_isSpace (spaceBefore char member)) blank
      (List.cons_ne_nil _ _) (startsWithout_cons.mpr rfl) ?_
    simp only [← List.cons_append, ← List.append_assoc]
    exact endsWithout_concat.mpr rfl
  have moreThanSpace : ¬ IsSpacing (after ++ '\n' :: (start ++ ['}'])) := by
    intro space
    exact Bool.false_ne_true (space '}' (by simp))
  have failed := parseWithin_extraData denotes (stops_append_mark spaceAfter '\n' rfl _)
    moreThanSpace
  rw [← trimmed, ← parse_eq_parseWithin] at failed
  rw [read, failed]
  exact ⟨_, rfl⟩

end Document

/-! ## Findings -/

namespace Findings

/-- An output that is read as a document reports what the document does. -/
theorem ofOutput_of_read {output : String} {document : Document} (placement : Placement)
    (read : Document.read output.toList = .ok document) :
    ofOutput placement output = ofDocument placement document := by
  rw [ofOutput, read]

/-- The lines of objects are read as the objects themselves, and none is skipped. -/
theorem ofLines_objects {texts : List String} (placement : Placement) (filled : texts ≠ [])
    (objects : ∀ text ∈ texts, IsObjectLine text) :
    ofLines placement (Document.linesOutput texts).toList =
      { ofDocument placement (.issues (texts.map valueOf)) with format := .lines } := by
  have cut : lines (Document.linesOutput texts).toList = texts.map String.toList := by
    rw [Document.linesOutput, String.toList_ofList]
    apply splitAt_join (mt List.map_eq_nil_iff.mp filled)
    intro piece member
    obtain ⟨text, there, rfl⟩ := List.mem_map.mp member
    exact (objects text there).single
  have readings : (lines (Document.linesOutput texts).toList).map (LineReading.ofLine placement) =
      texts.map fun text => (Issue.ofValue? placement (valueOf text)).elim .dropped .found := by
    rw [cut, List.map_map]
    exact List.map_congr_left fun text member => (objects text member).ofLine_eq placement
  have noneSkipped : (texts.map fun text =>
      (Issue.ofValue? placement (valueOf text)).elim .dropped .found).count
        LineReading.skipped = 0 := by
    apply List.count_eq_zero.mpr
    intro member
    obtain ⟨text, _, same⟩ := List.mem_map.mp member
    cases reported : Issue.ofValue? placement (valueOf text) <;> simp [reported] at same
  have issues : (texts.map fun text =>
      (Issue.ofValue? placement (valueOf text)).elim .dropped .found).filterMap
        LineReading.issue? = (texts.map valueOf).filterMap (Issue.ofValue? placement) := by
    rw [List.filterMap_map, List.filterMap_map]
    apply List.filterMap_congr
    intro text _
    rw [Function.comp_apply, Function.comp_apply]
    cases Issue.ofValue? placement (valueOf text) <;> rfl
  simp only [ofLines, readings, noneSkipped, issues, ofDocument, Document.items]

/-- The diagnostics of a list of issues are those of its issues one after another. -/
theorem diagnostics_issues (placement : Placement) (items : List Value) (source : String) :
    (ofDocument placement (.issues items)).diagnostics source =
      items.flatMap fun item => (ofDocument placement (.single item)).diagnostics source := by
  induction items with
  | nil => rfl
  | cons item rest ih =>
      rw [List.flatMap_cons, ← ih]
      simp only [diagnostics, ofDocument, Document.items, List.filterMap_cons, List.filterMap_nil]
      cases Issue.ofValue? placement item <;> rfl

end Findings

/-- An array of object lines reports their values as issues. -/
theorem Findings.ofOutput_arrayOutput {texts : List String} (placement : Placement)
    (filled : texts ≠ []) (objects : ∀ text ∈ texts, IsObjectLine text) :
    ofOutput placement (Document.arrayOutput texts) =
      ofDocument placement (.issues (texts.map valueOf)) :=
  ofOutput_of_read placement <| Document.read_arrayOutput filled fun text member =>
    parseWithin_mono (Nat.sub_le_sub_left (by decide) _) (objects text member).parseWithin_valueOf

/-! ## Reports -/

namespace ReportParser

/-- The reports on an array are put together from those on its texts taken alone. -/
theorem reports_arrayOutput (parser : ReportParser) {texts : List String} (filled : texts ≠ [])
    (objects : ∀ text ∈ texts, IsObjectLine text) (file root : String) :
    (parser.fileReport (Document.arrayOutput texts) file).diagnostics =
      texts.flatMap (fun text =>
        (parser.fileReport (Document.arrayOutput [text]) file).diagnostics) ∧
    ∀ key, ((parser.projectReport (Document.arrayOutput texts) root).diagnostics.get? key).getD [] =
      texts.flatMap fun text =>
        ((parser.projectReport (Document.arrayOutput [text]) root).diagnostics.get? key).getD [] := by
  have alone : ∀ text ∈ texts, ∀ placement,
      Findings.ofOutput placement (Document.arrayOutput [text]) =
        Findings.ofDocument placement (.single (valueOf text)) := by
    intro text member placement
    apply Findings.ofOutput_arrayOutput placement (List.cons_ne_nil _ _)
    intro other single
    exact List.mem_singleton.mp single ▸ objects text member
  have together : ∀ placement,
      (Findings.ofOutput placement (Document.arrayOutput texts)).diagnostics parser.source =
        texts.flatMap fun text =>
          (Findings.ofOutput placement (Document.arrayOutput [text])).diagnostics parser.source := by
    intro placement
    rw [Findings.ofOutput_arrayOutput placement filled objects, Findings.diagnostics_issues,
      List.flatMap_map]
    apply List.flatMap_congr
    intro text member
    rw [alone text member]
  constructor
  · simp only [fileReport, together]
  · intro key
    simp only [projectReport, Keyed.get?_group, Keyed.under, together, List.filter_flatMap]

/-- **The shape of an output does not matter.** Of texts that each hold an object, the
array and the wrapper give the same reports in JSON format. Two or more of them on lines
of their own are no document and give these reports in line format. One of them by itself
gives the report of the array of one, unless it is a wrapper itself. The issues of a list
are converted one by one, and so are the texts of an array. -/
theorem shapes_agree (parser : ReportParser) (texts : List String) (filled : texts ≠ [])
    (objects : ∀ text ∈ texts, IsObjectLine text) (file root : String) :
    (parser.fileReport (Document.wrapperOutput texts) file =
        parser.fileReport (Document.arrayOutput texts) file ∧
      parser.projectReport (Document.wrapperOutput texts) root =
        parser.projectReport (Document.arrayOutput texts) root) ∧
    ((parser.fileReport (Document.arrayOutput texts) file).format = .json ∧
      (parser.fileReport (Document.arrayOutput texts) file).skipped = 0 ∧
      (parser.projectReport (Document.arrayOutput texts) root).format = .json ∧
      (parser.projectReport (Document.arrayOutput texts) root).skipped = 0) ∧
    (2 ≤ texts.length →
      (∃ rest, Document.read (Document.linesOutput texts).toList =
        .error (.misread .extraData rest)) ∧
      parser.fileReport (Document.linesOutput texts) file =
        { parser.fileReport (Document.arrayOutput texts) file with format := .lines } ∧
      parser.projectReport (Document.linesOutput texts) root =
        { parser.projectReport (Document.arrayOutput texts) root with format := .lines }) ∧
    (∀ text value, texts = [text] → parse text.toList = .ok value →
      (value.get? "issues").bind Value.items? = none →
      parser.fileReport text file = parser.fileReport (Document.arrayOutput texts) file ∧
      parser.projectReport text root =
        parser.projectReport (Document.arrayOutput texts) root) ∧
    (∀ placement items, (Findings.ofDocument placement (.issues items)).diagnostics parser.source =
      items.flatMap fun item =>
        (Findings.ofDocument placement (.single item)).diagnostics parser.source) ∧
    (parser.fileReport (Document.arrayOutput texts) file).diagnostics =
      texts.flatMap (fun text =>
        (parser.fileReport (Document.arrayOutput [text]) file).diagnostics) ∧
    ∀ key, ((parser.projectReport (Document.arrayOutput texts) root).diagnostics.get? key).getD [] =
      texts.flatMap fun text =>
        ((parser.projectReport (Document.arrayOutput [text]) root).diagnostics.get? key).getD [] := by
  have array := fun placement => Findings.ofOutput_arrayOutput placement filled objects
  refine ⟨?_, ?_, ?_, ?_, fun placement items => Findings.diagnostics_issues placement items _,
    parser.reports_arrayOutput filled objects file root⟩
  · have wrapper := fun placement => Findings.ofOutput_of_read placement
      (Document.read_wrapperOutput filled fun text member =>
        (objects text member).parseWithin_valueOf)
    simp only [fileReport, projectReport, wrapper, array]
    exact ⟨rfl, rfl⟩
  · simp only [fileReport, projectReport, array]
    exact ⟨rfl, rfl, rfl, rfl⟩
  · intro several
    have failed := Document.read_linesOutput several objects
    have onLines : ∀ placement, Findings.ofOutput placement (Document.linesOutput texts) =
        Findings.ofLines placement (Document.linesOutput texts).toList := by
      intro placement
      obtain ⟨rest, fault⟩ := failed
      rw [Findings.ofOutput, fault]
    refine ⟨failed, ?_, ?_⟩
    · simp only [fileReport, onLines, Findings.ofLines_objects _ filled objects, array]
      rfl
    · simp only [projectReport, onLines, Findings.ofLines_objects _ filled objects, array]
      rfl
  · intro text value only held noWrapper
    subst only
    have line := objects text List.mem_cons_self
    have same : valueOf text = value := by
      rw [line.parse_valueOf, Except.ok.injEq] at held
      exact held
    have read : Document.read text.toList = .ok (.single value) := by
      rw [Document.read, line.parse_trim.2, same]
      exact congrArg Except.ok (Document.ofValue_object (same ▸ line.isObject_valueOf) noWrapper)
    have single := fun placement => Findings.ofOutput_of_read placement read
    simp only [fileReport, projectReport, single, array, ← same, Findings.ofDocument,
      Document.items, List.map_cons, List.map_nil, and_self]

/-- An object with a message and an empty one, each on its line. -/
theorem shapes_agree_message_empty :
    (["\x7b\"message\":\"a\"\x7d", "\x7b\x7d"] ≠ [] ∧
      ∀ text ∈ ["\x7b\"message\":\"a\"\x7d", "\x7b\x7d"], IsObjectLine text) ∧
    (({} : ReportParser).fileReport
      (Document.linesOutput ["\x7b\"message\":\"a\"\x7d", "\x7b\x7d"]) "a.php").skipped = 0 := by
  have named : NameText "\"message\":".toList "message" :=
    @NameText.compact "message\"".toList "message" rfl
  have value : ScalarText "\"a\"".toList (.string "a") := @ScalarText.string "a\"".toList "a" rfl
  have first : IsObjectLine "\x7b\"message\":\"a\"\x7d" :=
    ⟨by decide, _, parseWithin_token (denotes_entryText named (value.denotes _))⟩
  have second : IsObjectLine "\x7b\x7d" :=
    ⟨by decide, [], parseWithin_token (.inr (.emptyObject isSpacing_nil))⟩
  have objects : ∀ text ∈ ["\x7b\"message\":\"a\"\x7d", "\x7b\x7d"], IsObjectLine text := by
    intro text member
    rcases List.mem_cons.mp member with rfl | member
    · exact first
    · exact List.mem_singleton.mp member ▸ second
  obtain ⟨_, ⟨_, none, _⟩, several, _⟩ := shapes_agree ({} : ReportParser)
    ["\x7b\"message\":\"a\"\x7d", "\x7b\x7d"] (List.cons_ne_nil _ _) objects "a.php" ""
  refine ⟨⟨List.cons_ne_nil _ _, objects⟩, ?_⟩
  rw [(several (by decide)).2.1]
  exact none

end ReportParser

end LintReport
