import LintReport.Proofs.Issue.Keyword

/-! # The grammar of text lines

A text line can be taken apart as a path, the numbers of its place, the spelling of a severity
and a message, with blanks before the last two (`TextLine.IsSplit`). There may be several ways:
a path may hold places itself, and a message may keep some of the blanks before it. A line is
read if there is one, and it is read in the way with the shortest path, in which everything but
the blanks before the message is settled and as many of these as can be are left out of it
(`TextLine.ofText?_shortest`). -/

namespace LintReport.TextLine

open Text

/-! ## Messages -/

/-- A filled text without line feeds is a line. -/
theorem onlyLine?_single {text : List Char} (filled : text ≠ []) (single : '\n' ∉ text) :
    onlyLine? text = some text := by
  have all : ∀ char ∈ text, decide (char ≠ '\n') := by
    intro char member
    exact decide_eq_true fun same => single (same ▸ member)
  have whole : text.takeWhile (· ≠ '\n') = text := List.takeWhile_eq_self_iff.mpr all
  have nothing : text.dropWhile (· ≠ '\n') = [] := List.dropWhile_eq_nil_iff.mpr all
  simp only [onlyLine?, whole, nothing, true_or, and_true]
  exact if_pos filled

/-- The message of one line that says something is the line without the blanks it starts
with. -/
theorem messageOf?_of_filled {text : List Char} (single : '\n' ∉ text)
    (filled : isBlankText text = false) : messageOf? text = some (trimStart text) := by
  induction text with
  | nil => cases filled
  | cons char rest ih =>
      rw [messageOf?, trimStart, List.dropWhile_cons]
      by_cases blank : isBlank char
      · rw [isBlankText, List.all_cons, blank, Bool.true_and] at filled
        rw [if_pos blank, if_pos blank, ih (fun member => single (List.mem_cons_of_mem _ member))
          filled, Option.some_or]
        rfl
      · rw [if_neg blank, if_neg blank]
        exact onlyLine?_single (List.cons_ne_nil _ _) single

/-! ## Remarks -/

/-- Whether a run of characters is a number. -/
def IsNumber (digits : List Char) : Prop :=
  digits ≠ [] ∧ ∀ char ∈ digits, isDigit char

/-- A column as it is written, with the colon after it. -/
def writtenColumn : Option (List Char) → List Char
  | none => []
  | some digits => digits ++ [':']

namespace Remark

/-! ### What stands after the place -/

/-- Blanks, a keyword with its colon and a message after a place make a remark. -/
theorem afterPlace?_of_parts {gap spelling rest : List Char} {severity : Severity}
    (blank : ∀ char ∈ gap, isBlank char)
    (spelled : spelling.map folded = severity.name.toList) (single : '\n' ∉ rest)
    (filled : isBlankText rest = false) (line : List Char) (column : Option (List Char)) :
    afterPlace? line column (gap ++ (spelling ++ ':' :: rest)) =
      some { line, column, severity := spelling, message := trimStart rest } := by
  have starts := startsWithout_isBlank_spelling spelled (':' :: rest)
  rw [afterPlace?, dropWhile_run blank starts, severityOf?_folded spelled]
  simp only [messageOf?_of_filled single filled, Option.map_some]

/-- What makes a remark after a place is blanks, a keyword with its colon and a message. -/
theorem parts_of_afterPlace? {line text : List Char} {column : Option (List Char)}
    {remark : Remark} (found : afterPlace? line column text = some remark) :
    remark.line = line ∧ remark.column = column ∧
      (∃ severity : Severity, remark.severity.map folded = severity.name.toList) ∧
      ∃ gap rest, (∀ char ∈ gap, isBlank char) ∧ messageOf? rest = some remark.message ∧
        text = gap ++ (remark.severity ++ ':' :: rest) := by
  unfold afterPlace? at found
  split at found
  · cases found
  · next spelling rest word =>
      obtain ⟨message, read, rfl⟩ := Option.map_eq_some_iff.mp found
      obtain ⟨whole, spelled⟩ := severityOf?_eq_some_iff.mp word
      refine ⟨rfl, rfl, spelled, text.takeWhile isBlank, rest, ?_, read, ?_⟩
      · exact fun char member => List.mem_takeWhile_imp member
      · rw [← whole, List.takeWhile_append_dropWhile]

/-! ### The place -/

/-- The number of a line and the colon after it are taken off a remark. -/
theorem ofText?_number {digits : List Char} (number : IsNumber digits) (rest : List Char) :
    ofText? (digits ++ ':' :: rest) =
      match rest.takeWhile isDigit, rest.dropWhile isDigit with
      | [], _ => afterPlace? digits none rest
      | column, ':' :: rest => afterPlace? digits (some column) rest
      | _, _ => none := by
  obtain ⟨filled, all⟩ := number
  have colon : StartsWithout isDigit (':' :: rest) := startsWithout_cons.mpr (by decide)
  have run := takeWhile_run all colon
  have left := dropWhile_run all colon
  obtain ⟨first, others, rfl⟩ := List.exists_cons_of_ne_nil filled
  rw [ofText?, run, left]
  rfl

/-- The place is taken off a remark when no digit comes after it. -/
theorem ofText?_place {line rest : List Char} {column : Option (List Char)}
    (number : IsNumber line) (numbers : ∀ digits ∈ column, IsNumber digits)
    (starts : StartsWithout isDigit rest) :
    ofText? (line ++ ':' :: (writtenColumn column ++ rest)) = afterPlace? line column rest := by
  rw [ofText?_number number]
  cases column with
  | none =>
      have nothing := @takeWhile_run isDigit [] rest (by simp) starts
      rw [List.nil_append] at nothing
      rw [writtenColumn, List.nil_append, nothing]
  | some digits =>
      obtain ⟨filled, all⟩ := numbers digits rfl
      have colon : StartsWithout isDigit (':' :: rest) := startsWithout_cons.mpr (by decide)
      rw [writtenColumn, List.append_assoc, List.singleton_append, takeWhile_run all colon,
        dropWhile_run all colon]
      obtain ⟨first, others, rfl⟩ := List.exists_cons_of_ne_nil filled
      rfl

theorem isNumber_takeWhile {text : List Char} (filled : text.takeWhile isDigit ≠ []) :
    IsNumber (text.takeWhile isDigit) :=
  ⟨filled, fun _ member => List.mem_takeWhile_imp member⟩

/-- A remark starts with its line number, and its column if it has one. -/
theorem place_of_ofText? {text : List Char} {remark : Remark}
    (found : ofText? text = some remark) :
    IsNumber remark.line ∧ (∀ digits ∈ remark.column, IsNumber digits) ∧
      ∃ rest, text = remark.line ++ ':' :: (writtenColumn remark.column ++ rest) ∧
        afterPlace? remark.line remark.column rest = some remark := by
  have whole : ∀ text : List Char, text.takeWhile isDigit ++ text.dropWhile isDigit = text :=
    fun text => List.takeWhile_append_dropWhile
  unfold ofText? at found
  split at found
  · cases found
  · next rest colon row =>
      have line := isNumber_takeWhile row
      split at found
      · obtain ⟨same, none, _⟩ := parts_of_afterPlace? found
        rw [same, none]
        refine ⟨line, by simp, rest, ?_, found⟩
        rw [writtenColumn, List.nil_append, ← colon, whole]
      · next others colonAgain place =>
          obtain ⟨same, some, _⟩ := parts_of_afterPlace? found
          rw [same, some]
          refine ⟨line, fun digits member => ?_, others, ?_, found⟩
          · rw [← Option.some.inj member]
            exact isNumber_takeWhile place
          · rw [writtenColumn, List.append_assoc, List.singleton_append, ← colonAgain, whole,
              ← colon, whole]
      · cases found
  · cases found

/-! ### Ways to take a remark apart -/

/-- Whether a text is a remark, with some blanks before its severity and some before its
message. -/
structure IsSplit (text : List Char) (remark : Remark) (gap pad : List Char) : Prop where
  whole : text = remark.line ++ ':' :: (writtenColumn remark.column ++
    (gap ++ (remark.severity ++ ':' :: (pad ++ remark.message))))
  line : IsNumber remark.line
  column : ∀ digits ∈ remark.column, IsNumber digits
  gap : ∀ char ∈ gap, isBlank char
  severity : ∃ severity : Severity, remark.severity.map folded = severity.name.toList
  pad : ∀ char ∈ pad, isBlank char
  message : remark.message ≠ []

variable {text gap pad : List Char} {remark : Remark}

theorem suffix_of_parts (line : List Char) (column : Option (List Char))
    (gap severity rest : List Char) :
    rest <:+ line ++ ':' :: (writtenColumn column ++ (gap ++ (severity ++ ':' :: rest))) :=
  ⟨line ++ ':' :: (writtenColumn column ++ (gap ++ (severity ++ [':']))), by simp⟩

/-- No digit follows the place, so its number is read whole. -/
theorem startsWithout_isDigit_of_parts {gap spelling : List Char} {severity : Severity}
    (blank : ∀ char ∈ gap, isBlank char)
    (spelled : spelling.map folded = severity.name.toList) (rest : List Char) :
    StartsWithout isDigit (gap ++ (spelling ++ rest)) := by
  cases gap with
  | nil =>
      apply StartsWithout.append _ (spelling_ne_nil spelled)
      intro char start
      have letter : folded char ∈ severity.name.toList :=
        spelled ▸ List.mem_map_of_mem (List.mem_of_mem_head? start)
      exact isDigit_of_isLower_folded (isLower_of_mem_name _ letter)
  | cons char gap =>
      exact startsWithout_cons.mpr (isDigit_of_isBlank (blank char List.mem_cons_self))

/-- The message ends the text. -/
theorem IsSplit.suffix (split : IsSplit text remark gap pad) : pad ++ remark.message <:+ text :=
  split.whole ▸ suffix_of_parts _ _ _ _ _

/-- A remark is read, whichever way it is taken apart, with as many blanks as can be left out
of its message. -/
theorem IsSplit.ofText? (split : IsSplit text remark gap pad)
    (single : '\n' ∉ pad ++ remark.message) (filled : isBlankText remark.message = false) :
    Remark.ofText? text = some { remark with message := trimStart (pad ++ remark.message) } := by
  obtain ⟨severity, spelled⟩ := split.severity
  have told : isBlankText (pad ++ remark.message) = false := by
    rw [isBlankText] at filled
    rw [isBlankText, List.all_append, filled, Bool.and_false]
  rw [split.whole, ofText?_place split.line split.column
    (startsWithout_isDigit_of_parts split.gap spelled _),
    afterPlace?_of_parts split.gap spelled single told]

/-- What is read off a remark is a way to take it apart. -/
theorem exists_isSplit (single : '\n' ∉ text) (ends : EndsWithout isBlank text)
    (found : ofText? text = some remark) :
    StartsWithout isBlank remark.message ∧ ∃ gap pad, IsSplit text remark gap pad := by
  obtain ⟨line, column, after, whole, found⟩ := place_of_ofText? found
  obtain ⟨_, _, severity, gap, rest, blank, read, parts⟩ := parts_of_afterPlace? found
  have suffix : rest <:+ text := by
    rw [whole, parts]
    exact suffix_of_parts _ _ _ _ _
  have some : rest ≠ [] := by
    rintro rfl
    cases read
  have filled : isBlankText rest = false := isBlankText_of_suffix some suffix ends
  have message : trimStart rest = remark.message := by
    rw [messageOf?_of_filled (fun member => single (suffix.mem member)) filled] at read
    exact Option.some.inj read
  refine ⟨?_, gap, rest.takeWhile isBlank, ?_, line, column, blank, severity, ?_, ?_⟩
  · rw [← message]
    exact startsWithout_dropWhile isBlank rest
  · rw [whole, parts, ← message, trimStart, List.takeWhile_append_dropWhile]
  · exact fun char member => List.mem_takeWhile_imp member
  · intro empty
    rw [← message, trimStart, List.dropWhile_eq_nil_iff] at empty
    rw [isBlankText, List.all_eq_true.mpr empty] at filled
    cases filled

/-- Two ways to take a remark apart differ only in the blanks that they leave out of the
message. -/
theorem IsSplit.agree {other : Remark} {otherGap otherPad : List Char}
    (split : IsSplit text remark gap pad) (another : IsSplit text other otherGap otherPad)
    (single : '\n' ∉ text) (ends : EndsWithout isBlank text) :
    other.line = remark.line ∧ other.column = remark.column ∧ otherGap = gap ∧
      other.severity = remark.severity ∧ otherPad ++ other.message = pad ++ remark.message := by
  have read := split.ofText? (fun member => single (split.suffix.mem member))
    (isBlankText_of_suffix split.message ((List.suffix_append _ _).trans split.suffix) ends)
  have readOther := another.ofText? (fun member => single (another.suffix.mem member))
    (isBlankText_of_suffix another.message ((List.suffix_append _ _).trans another.suffix) ends)
  have same := readOther.symm.trans read
  simp only [Option.some.injEq, Remark.mk.injEq] at same
  obtain ⟨line, column, severity, _⟩ := same
  have rest := another.whole.symm.trans split.whole
  rw [line, column, severity] at rest
  have rest := List.append_cancel_left (List.cons.inj (List.append_cancel_left rest)).2
  obtain ⟨_, spelled⟩ := split.severity
  have gaps : otherGap = gap := by
    rw [← takeWhile_run split.gap (startsWithout_isBlank_spelling spelled _), ← rest,
      takeWhile_run another.gap (startsWithout_isBlank_spelling spelled _)]
  rw [gaps] at rest
  have rest := List.append_cancel_left (List.append_cancel_left rest)
  exact ⟨line, column, gaps, severity, (List.cons.inj rest).2⟩

end Remark

/-! ## Lines -/

/-- Whether a remark stands in a text after a path. -/
def StandsAfter (text path : List Char) (remark : Remark) : Prop :=
  ∃ after, text = path ++ ':' :: after ∧ Remark.ofText? after = some remark

/-- After a path there stands at most one remark. -/
theorem StandsAfter.unique {text path : List Char} {remark other : Remark}
    (stands : StandsAfter text path remark) (another : StandsAfter text path other) :
    other = remark := by
  obtain ⟨after, whole, found⟩ := stands
  obtain ⟨rest, same, foundOther⟩ := another
  rw [whole] at same
  rw [← (List.cons.inj (List.append_cancel_left same)).2, found] at foundOther
  exact (Option.some.inj foundOther).symm

theorem standsAfter_cons {text path : List Char} {char first : Char} {remark : Remark} :
    StandsAfter (char :: text) (first :: path) remark ↔
      char = first ∧ StandsAfter text path remark := by
  simp only [StandsAfter, List.cons_append, List.cons.injEq, and_assoc, exists_and_left]

/-- A remark is found here exactly if it stands after the empty path. -/
theorem here?_eq_some_iff {text : List Char} {remark : Remark} :
    Remark.here? text = some remark ↔ StandsAfter text [] remark := by
  unfold Remark.here?
  split
  · next after =>
      constructor
      · exact fun found => ⟨after, rfl, found⟩
      · rintro ⟨_, same, found⟩
        rw [(List.cons.inj same).2]
        exact found
  · next other =>
      constructor
      · intro found
        cases found
      · rintro ⟨after, same, _⟩
        exact absurd same (other after)

/-- Whether a text line stands in a text with the shortest path that a remark stands after. -/
structure IsFirst (text : List Char) (line : TextLine) : Prop where
  path : line.path ≠ []
  single : '\n' ∉ line.path
  stands : StandsAfter text line.path line.remark
  shortest : ∀ path remark, path ≠ [] → StandsAfter text path remark → line.path <+: path

/-- **Where a text line is cut**: it is read exactly with the shortest path that a remark stands
after. -/
theorem ofText?_eq_some_iff {text : List Char} {line : TextLine} :
    ofText? text = some line ↔ IsFirst text line := by
  induction text generalizing line with
  | nil =>
      rw [ofText?]
      constructor
      · intro found
        cases found
      · rintro ⟨_, _, ⟨after, whole, _⟩, _⟩
        simp at whole
  | cons char rest ih =>
      -- every path starts with the first character, and goes on to the next colon or beyond it
      have start : ∀ {path remark}, path ≠ [] → StandsAfter (char :: rest) path remark →
          ∃ others, path = char :: others ∧ StandsAfter rest others remark := by
        intro path remark filled stands
        obtain ⟨first, others, rfl⟩ := List.exists_cons_of_ne_nil filled
        obtain ⟨same, inner⟩ := standsAfter_cons.mp stands
        exact ⟨others, by rw [same], inner⟩
      rw [ofText?]
      by_cases newline : char = '\n'
      · rw [if_pos newline]
        constructor
        · intro found
          cases found
        · rintro ⟨filled, single, stands, _⟩
          obtain ⟨others, same, _⟩ := start filled stands
          exact absurd (same ▸ newline ▸ List.mem_cons_self) single
      · rw [if_neg newline]
        cases here : Remark.here? rest with
        | some remark =>
            have stands := here?_eq_some_iff.mp here
            have whole : StandsAfter (char :: rest) [char] remark :=
              standsAfter_cons.mpr ⟨rfl, stands⟩
            constructor
            · intro found
              cases found
              refine ⟨List.cons_ne_nil _ _, by simpa using Ne.symm newline, whole, ?_⟩
              intro path _ filled other
              obtain ⟨others, rfl, _⟩ := start filled other
              exact List.prefix_append [char] others
            · rintro ⟨filled, _, other, shortest⟩
              obtain ⟨others, same, _⟩ := start filled other
              have path : line.path = [char] := by
                have short := shortest _ _ (List.cons_ne_nil _ _) whole
                rw [same] at short ⊢
                rw [List.prefix_nil.mp (List.cons_prefix_cons.mp short).2]
              rw [path] at other
              refine congrArg some (?_ : TextLine.mk [char] remark = line)
              rw [← whole.unique other, ← path]
        | none =>
            have further : ∀ {remark}, ¬ StandsAfter rest [] remark := by
              intro remark stands
              rw [here?_eq_some_iff.mpr stands] at here
              cases here
            rw [Option.map_eq_some_iff]
            constructor
            · rintro ⟨inner, found, rfl⟩
              obtain ⟨filled, single, stands, shortest⟩ := ih.mp found
              refine ⟨List.cons_ne_nil _ _, ?_, standsAfter_cons.mpr ⟨rfl, stands⟩, ?_⟩
              · exact fun member => (List.mem_cons.mp member).elim (Ne.symm newline) single
              · intro path remark filled other
                obtain ⟨others, rfl, inner⟩ := start filled other
                have more : others ≠ [] := fun empty => further (empty ▸ inner)
                exact List.cons_prefix_cons.mpr ⟨rfl, shortest others remark more inner⟩
            · rintro ⟨filled, single, stands, shortest⟩
              obtain ⟨others, same, inner⟩ := start filled stands
              have more : others ≠ [] := fun empty => further (empty ▸ inner)
              rw [same] at single shortest
              refine ⟨{ line with path := others }, ih.mpr ⟨more, ?_, inner, ?_⟩, ?_⟩
              · exact fun member => single (List.mem_cons_of_mem _ member)
              · intro path remark filled other
                have longer := shortest (char :: path) remark (List.cons_ne_nil _ _)
                  (standsAfter_cons.mpr ⟨rfl, other⟩)
                exact (List.cons_prefix_cons.mp longer).2
              · rw [← same]

/-- A text without line ends is read as a text line if a remark stands after some path in
it. -/
theorem exists_ofText? {text path : List Char} {remark : Remark} (single : '\n' ∉ text)
    (filled : path ≠ []) (stands : StandsAfter text path remark) :
    ∃ line, ofText? text = some line := by
  induction text generalizing path with
  | nil =>
      obtain ⟨after, whole, _⟩ := stands
      simp at whole
  | cons char rest ih =>
      rw [List.mem_cons, not_or] at single
      rw [ofText?, if_neg (Ne.symm single.1)]
      cases here : Remark.here? rest with
      | some remark => exact ⟨_, rfl⟩
      | none =>
          obtain ⟨first, others, rfl⟩ := List.exists_cons_of_ne_nil filled
          obtain ⟨_, stands⟩ := standsAfter_cons.mp stands
          have more : others ≠ [] := by
            rintro rfl
            rw [here?_eq_some_iff.mpr stands] at here
            cases here
          obtain ⟨line, found⟩ := ih single.2 more stands
          exact ⟨_, congrArg (Option.map _) found⟩

/-- Whether a text is a text line, with some blanks before its severity and some before its
message. -/
def IsSplit (text : List Char) (line : TextLine) (gap pad : List Char) : Prop :=
  line.path ≠ [] ∧
    ∃ after, text = line.path ++ ':' :: after ∧ Remark.IsSplit after line.remark gap pad

/-- Whether a way to take a text line apart is the one with the shortest path and, of those with
this path, the one with the shortest message. Nothing but the message differs in these. -/
structure IsShortest (text : List Char) (line : TextLine) (gap pad : List Char) : Prop where
  split : IsSplit text line gap pad
  path : ∀ other otherGap otherPad, IsSplit text other otherGap otherPad →
    line.path <+: other.path
  remark : ∀ other otherGap otherPad, IsSplit text other otherGap otherPad →
    other.path = line.path → other.remark.line = line.remark.line ∧
      other.remark.column = line.remark.column ∧ otherGap = gap ∧
      other.remark.severity = line.remark.severity ∧
      otherPad ++ other.remark.message = pad ++ line.remark.message ∧ otherPad <+: pad
  message : StartsWithout isBlank line.remark.message

variable {text gap pad : List Char} {line : TextLine}

theorem suffix_of_path {path after : List Char} (whole : text = path ++ ':' :: after) :
    after <:+ text :=
  whole ▸ (List.suffix_cons _ _).trans (List.suffix_append _ _)

/-- A remark stands after the path of each way to take a text line apart. -/
theorem IsSplit.stands (split : IsSplit text line gap pad) (single : '\n' ∉ text)
    (ends : EndsWithout isBlank text) : ∃ remark, StandsAfter text line.path remark := by
  obtain ⟨_, after, whole, split⟩ := split
  have suffix := split.suffix.trans (suffix_of_path whole)
  have message := (List.suffix_append _ _).trans suffix
  exact ⟨_, after, whole, split.ofText? (fun member => single (suffix.mem member))
    (isBlankText_of_suffix split.message message ends)⟩

/-- Blanks that one way to cut a text in two takes off its start are among those that are taken
off when none is left. -/
theorem prefix_of_startsWithout {blanks rest pad message : List Char}
    (blank : ∀ char ∈ blanks, isBlank char) (starts : StartsWithout isBlank message)
    (same : blanks ++ rest = pad ++ message) : blanks <+: pad := by
  obtain short | ⟨more, longer⟩ := List.prefix_or_prefix_of_prefix ⟨rest, same⟩
    (List.prefix_append pad message)
  · exact short
  · cases more with
    | nil => exact ⟨[], by rw [← longer, List.append_nil, List.append_nil]⟩
    | cons char more =>
        rw [← longer, List.append_assoc] at same
        rw [← List.append_cancel_left same] at starts
        have other := startsWithout_cons.mp starts
        rw [blank char (by rw [← longer]; simp)] at other
        cases other

/-- What is read off a text line is the shortest way to take it apart. -/
theorem exists_isShortest (single : '\n' ∉ text) (ends : EndsWithout isBlank text)
    (found : ofText? text = some line) : ∃ gap pad, IsShortest text line gap pad := by
  obtain ⟨filled, _, ⟨after, whole, read⟩, shortest⟩ := ofText?_eq_some_iff.mp found
  have suffix := suffix_of_path whole
  have singleAfter : '\n' ∉ after := fun member => single (suffix.mem member)
  have some : after ≠ [] := by
    rintro rfl
    cases read
  have endsAfter : EndsWithout isBlank after := by
    obtain ⟨before, rfl⟩ := suffix
    intro char last
    exact ends char (by rw [List.getLast?_append, last, Option.some_or])
  obtain ⟨starts, gap, pad, split⟩ := Remark.exists_isSplit singleAfter endsAfter read
  refine ⟨gap, pad, ⟨filled, after, whole, split⟩, ?_, ?_, starts⟩
  · intro other otherGap otherPad another
    obtain ⟨remark, stands⟩ := another.stands single ends
    exact shortest _ _ another.1 stands
  · rintro other otherGap otherPad ⟨_, rest, wholeOther, another⟩ path
    rw [path, whole] at wholeOther
    have same := (List.cons.inj (List.append_cancel_left wholeOther)).2
    rw [← same] at another
    obtain ⟨line, column, gaps, severity, message⟩ := split.agree another singleAfter endsAfter
    exact ⟨line, column, gaps, severity, message,
      prefix_of_startsWithout another.pad starts message⟩

/-- The message of a text line that does not end with a blank says something. -/
theorem isBlankText_message (single : '\n' ∉ text) (ends : EndsWithout isBlank text)
    (found : ofText? text = some line) : isBlankText line.remark.message = false := by
  obtain ⟨gap, pad, shortest⟩ := exists_isShortest single ends found
  obtain ⟨_, _, _, split⟩ := shortest.split
  exact isBlankText_of_startsWithout split.message shortest.message

/-- **The grammar of text lines**: a line that does not end with a blank is read exactly if it
can be taken apart, and what is read is the shortest way to do it. -/
theorem ofText?_shortest {text : List Char} (single : '\n' ∉ text)
    (ends : EndsWithout isBlank text) :
    ((∃ line, ofText? text = some line) ↔ ∃ line gap pad, IsSplit text line gap pad) ∧
      ∀ line, ofText? text = some line → ∃ gap pad, IsShortest text line gap pad := by
  refine ⟨⟨?_, ?_⟩, fun line found => exists_isShortest single ends found⟩
  · rintro ⟨line, found⟩
    obtain ⟨gap, pad, shortest⟩ := exists_isShortest single ends found
    exact ⟨line, gap, pad, shortest.split⟩
  · rintro ⟨line, gap, pad, split⟩
    obtain ⟨remark, stands⟩ := split.stands single ends
    exact exists_ofText? single split.1 stands

/-- A drive's colon and a place in the message do not change where a line is cut. -/
theorem ofText?_shortest_drive :
    ∃ gap pad, IsShortest "C:\\a.php:1:2: WARN\u0130NG:  b:3:4: error: m".toList
      { path := "C:\\a.php".toList
        remark :=
          { line := ['1'], column := some ['2'], severity := "WARN\u0130NG".toList
            message := "b:3:4: error: m".toList } } gap pad := by
  have single : '\n' ∉ "C:\\a.php:1:2: WARN\u0130NG:  b:3:4: error: m".toList := by decide
  have ends : EndsWithout isBlank "C:\\a.php:1:2: WARN\u0130NG:  b:3:4: error: m".toList :=
    endsWithout_of_getLast? rfl (by decide : isBlank 'm' = false)
  exact (ofText?_shortest single ends).2 _ (by decide)

end LintReport.TextLine
