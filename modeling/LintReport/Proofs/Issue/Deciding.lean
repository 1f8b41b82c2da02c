import LintReport.Proofs.Issue.Fields
import Mathlib.Logic.Relation

/-! # What decides about an issue

Of an issue only a few fields are read, and of its annotations only one. With a primary annotation,
whatever else stands among the annotations, at the line and the column of the issue itself, and
under names that nobody reads can be changed at will (`Issue.Change`). Two issues that agree in what
is read are read as the same issue, or are both dropped (`Issue.ReadAlike.ofValue?_eq`,
`Issue.primary_decides`). -/

namespace LintReport

open Json

/-! ## Objects -/

namespace Json.Value

/-- A path is followed to the end of its first part and from there on. -/
theorem inside?_append (path rest : List String) (value : Value) :
    value.inside? (path ++ rest) = (value.inside? path).bind (inside? rest) := by
  induction path generalizing value with
  | nil => rfl
  | cons name path ih =>
      rw [List.cons_append, inside?, inside?, Option.bind_assoc]
      exact congrArg _ (funext ih)

/-- One change to an object, under a name that is none of the given ones. -/
inductive ChangedBeside (names : List String) : Value → Value → Prop
  | put {entries : Keyed Value} {name : String} (beside : name ∉ names) (value : Value) :
      ChangedBeside names (.object entries) (.object (entries.put name value))
  | erase {entries : Keyed Value} {name : String} (beside : name ∉ names) :
      ChangedBeside names (.object entries) (.object (entries.erase name))

/-- A change beside some names leaves their entries. -/
theorem ChangedBeside.get?_eq {names : List String} {value other : Value}
    (changed : ChangedBeside names value other) {name : String} (listed : name ∈ names) :
    value.get? name = other.get? name := by
  cases changed with
  | put beside =>
      have different := (ne_of_mem_of_not_mem listed beside).symm
      exact ((Keyed.get?_put ..).trans (if_neg different)).symm
  | erase beside =>
      have different := (ne_of_mem_of_not_mem listed beside).symm
      exact ((Keyed.get?_erase ..).trans (if_neg different)).symm

end Json.Value

namespace Issue

open Value

variable {raw other mark another : Value}

/-! ## What is read -/

/-- The names under which an issue tells of everything but its annotations and its place. -/
def tellingNames : List String :=
  ["message", "level", "code", "notes", "help", "file"]

/-- The names of the parts of a span. -/
def spanNames : List String :=
  ["file_id", "start", "end"]

/-- The paths of names along which an annotation is read. -/
def markPaths : List (List String) :=
  [["span", "file_id", "path"], ["span", "file_id", "name"], ["span", "start", "line"],
    ["span", "start", "column"], ["span", "end", "line"], ["span", "end", "column"]]

/-- Whether two issues tell the same, wherever they stand. -/
def TellsAlike (raw other : Value) : Prop :=
  ∀ name ∈ tellingNames, raw.get? name = other.get? name

/-- Whether two annotations mark the same place. -/
def MarksAlike (mark another : Value) : Prop :=
  ∀ path ∈ markPaths, mark.inside? path = another.inside? path

/-- Annotations that are alike name the same file. -/
theorem MarksAlike.anchoredFile?_eq (alike : MarksAlike mark another) :
    anchoredFile? mark = anchoredFile? another := by
  rw [Issue.anchoredFile?_eq, Issue.anchoredFile?_eq, alike _ (by decide), alike _ (by decide)]

/-- Annotations that are alike have the same extent. -/
theorem MarksAlike.anchoredExtent_eq (alike : MarksAlike mark another) :
    anchoredExtent mark = anchoredExtent another := by
  have same : ∀ part name, ["span", part, name] ∈ markPaths →
      ((mark.getD "span").getD part).getD name = ((another.getD "span").getD part).getD name := by
    intro part name listed
    have found := alike _ listed
    simp only [inside?_cons_cons, inside?_singleton] at found
    rw [getD, found]
    rfl
  simp only [anchoredExtent, same "start" "line" (by decide), same "start" "column" (by decide),
    same "end" "line" (by decide), same "end" "column" (by decide)]

/-- **Only what is read decides.** Two issues that tell the same, and of which the annotations that
decide mark the same place, are read as the same issue. -/
theorem ofValue?_congr (tells : TellsAlike raw other) (selected : Selects raw mark)
    (chosen : Selects other another) (marks : MarksAlike mark another) (placement : Placement) :
    ofValue? placement raw = ofValue? placement other := by
  have anchor := anchor?_eq_some_iff.mpr selected
  have anchor' := anchor?_eq_some_iff.mpr chosen
  have message : message? raw = message? other := by
    rw [message?, message?, tells "message" (by decide)]
  have file : reportedFile? raw = reportedFile? other := by
    rw [reportedFile?, reportedFile?, anchor, anchor', Option.bind_some, Option.bind_some,
      marks.anchoredFile?_eq, tells "file" (by decide)]
  have place : extent raw = extent other := by
    rw [extent, extent, anchor, anchor']
    exact marks.anchoredExtent_eq
  have level : raw.getD "level" = other.getD "level" :=
    congrArg (·.getD .null) (tells _ (by decide))
  have code : codeOf raw = codeOf other := by
    rw [codeOf, codeOf, getD, getD, tells "code" (by decide)]
  have notes : notesOf raw = notesOf other := by
    rw [notesOf, notesOf, tells "notes" (by decide)]
  simp only [ofValue?, message, file, place, level, code, notes, tells "help" (by decide)]

/-! ## Primary annotations -/

/-- Whether an annotation is the first primary one of an issue. -/
inductive HasPrimary (raw mark : Value) : Prop
  | among {before after : List Value}
      (listed : raw.get? "annotations" = some (.array (before ++ mark :: after)))
      (chosen : isPrimary mark) (earlier : ∀ other ∈ before, ¬ isPrimary other)

/-- A primary annotation is the one that is selected. -/
theorem HasPrimary.selects (primary : HasPrimary raw mark) : Selects raw mark := by
  obtain ⟨listed, chosen, earlier⟩ := primary
  exact .primary listed chosen earlier

/-- At most one annotation is the primary one. -/
theorem HasPrimary.unique (primary : HasPrimary raw mark) (again : HasPrimary raw another) :
    mark = another := by
  have found := anchor?_eq_some_iff.mpr primary.selects
  rw [anchor?_eq_some_iff.mpr again.selects, Option.some.injEq] at found
  exact found.symm

/-- Whether two issues agree in all that is read of an issue with a primary annotation. -/
inductive ReadAlike (raw other : Value) : Prop
  | primary {mark another : Value} (tells : TellsAlike raw other) (first : HasPrimary raw mark)
      (second : HasPrimary other another) (marks : MarksAlike mark another)

/-- Values that are read alike report the same issue. -/
theorem ReadAlike.ofValue?_eq (alike : ReadAlike raw other) (placement : Placement) :
    ofValue? placement raw = ofValue? placement other := by
  obtain ⟨tells, first, second, marks⟩ := alike
  exact ofValue?_congr tells first.selects second.selects marks placement

theorem ReadAlike.trans {third : Value} (alike : ReadAlike raw other)
    (again : ReadAlike other third) : ReadAlike raw third := by
  obtain ⟨tells, first, second, marks⟩ := alike
  obtain ⟨tells', second', last, marks'⟩ := again
  obtain rfl := second.unique second'
  refine .primary (fun name listed => ?_) first last fun path listed => ?_
  · exact (tells name listed).trans (tells' name listed)
  · exact (marks path listed).trans (marks' path listed)

/-! ## Changes -/

/-- One change to an annotation under a name that is not read, or to its span. -/
inductive MarkChange : Value → Value → Prop
  | field {mark another : Value} (changed : ChangedBeside ["kind", "span"] mark another) :
      MarkChange mark another
  | span {fields : Keyed Value} {span changed : Value} (there : fields.get? "span" = some span)
      (inner : ChangedBeside spanNames span changed) :
      MarkChange (.object fields) (.object (fields.put "span" changed))

/-- One change to an issue with a primary annotation that leaves alone what is read of it: under a
name that is not read, the line and the column being such names; to the other annotations; or to
the primary one. -/
inductive Change : Value → Value → Prop
  | field {raw other : Value} (changed : ChangedBeside ("annotations" :: tellingNames) raw other) :
      Change raw other
  | others {entries : Keyed Value} {mark : Value} {before after before' after' : List Value}
      (listed : entries.get? "annotations" = some (.array (before ++ mark :: after)))
      (chosen : isPrimary mark) (earlier : ∀ other ∈ before, ¬ isPrimary other)
      (earlier' : ∀ other ∈ before', ¬ isPrimary other) :
      Change (.object entries)
        (.object (entries.put "annotations" (.array (before' ++ mark :: after'))))
  | primary {entries : Keyed Value} {mark another : Value} {before after : List Value}
      (listed : entries.get? "annotations" = some (.array (before ++ mark :: after)))
      (chosen : isPrimary mark) (earlier : ∀ other ∈ before, ¬ isPrimary other)
      (changed : MarkChange mark another) :
      Change (.object entries)
        (.object (entries.put "annotations" (.array (before ++ another :: after))))

theorem tellsAlike_refl (raw : Value) : TellsAlike raw raw :=
  fun _ _ => rfl

theorem marksAlike_refl (mark : Value) : MarksAlike mark mark :=
  fun _ _ => rfl

/-- What stands in the parts of a span is all that is read of an annotation. -/
theorem marksAlike_of_parts
    (parts : ∀ name ∈ spanNames, mark.inside? ["span", name] = another.inside? ["span", name]) :
    MarksAlike mark another := by
  have split : ∀ path ∈ markPaths, ∃ name ∈ spanNames, ∃ rest, path = ["span", name] ++ rest := by
    simp [markPaths, spanNames]
  intro path listed
  obtain ⟨name, part, rest, rfl⟩ := split path listed
  rw [inside?_append, inside?_append, parts name part]

/-- A change of an annotation beside its span leaves what is read of it. -/
theorem MarkChange.marksAlike (change : MarkChange mark another) : MarksAlike mark another := by
  apply marksAlike_of_parts
  intro name part
  cases change with
  | field changed => rw [inside?, inside?, changed.get?_eq (by decide)]
  | @span fields span changed there inner =>
      have before : (Value.object fields).get? "span" = some span := there
      have after : (Value.object (fields.put "span" changed)).get? "span" = some changed :=
        (Keyed.get?_put ..).trans (if_pos rfl)
      rw [inside?, inside?, before, after, Option.bind_some, Option.bind_some, inside?_singleton,
        inside?_singleton, inner.get?_eq part]

/-- A change of an annotation beside its span keeps a primary one primary. -/
theorem MarkChange.isPrimary (change : MarkChange mark another) (chosen : isPrimary mark) :
    isPrimary another := by
  have kind : mark.get? "kind" = another.get? "kind" := by
    cases change with
    | field changed => exact changed.get?_eq (by decide)
    | span => exact ((Keyed.get?_put ..).trans (if_neg (by decide))).symm
  rwa [Issue.isPrimary, ← kind]

/-- Issues with other annotations tell the same. -/
theorem tellsAlike_put (entries : Keyed Value) (marks : Value) :
    TellsAlike (.object entries) (.object (entries.put "annotations" marks)) := by
  intro name listed
  have different : "annotations" ≠ name := by
    rintro rfl
    exact absurd listed (by decide)
  exact ((Keyed.get?_put ..).trans (if_neg different)).symm

/-- The first primary annotation of a list is the primary one. -/
theorem hasPrimary_put (entries : Keyed Value) {before after : List Value} (chosen : isPrimary mark)
    (earlier : ∀ other ∈ before, ¬ isPrimary other) :
    HasPrimary (.object (entries.put "annotations" (.array (before ++ mark :: after)))) mark :=
  .among ((Keyed.get?_put ..).trans (if_pos rfl)) chosen earlier

/-- One change to an issue with a primary annotation leaves alone what is read of it. -/
theorem Change.readAlike (change : Change raw other) (primary : HasPrimary raw mark) :
    ReadAlike raw other := by
  cases change with
  | field changed =>
      obtain ⟨listed, chosen, earlier⟩ := primary
      have kept := changed.get?_eq List.mem_cons_self
      rw [listed] at kept
      refine .primary (fun name told => ?_) (.among listed chosen earlier)
        (.among kept.symm chosen earlier) (marksAlike_refl mark)
      exact changed.get?_eq (List.mem_cons_of_mem _ told)
  | others listed chosen earlier earlier' =>
      exact .primary (tellsAlike_put _ _) (.among listed chosen earlier)
        (hasPrimary_put _ chosen earlier') (marksAlike_refl _)
  | primary listed chosen earlier changed =>
      exact .primary (tellsAlike_put _ _) (.among listed chosen earlier)
        (hasPrimary_put _ (changed.isPrimary chosen) earlier) changed.marksAlike

/-- Any number of changes beside the primary annotation leaves what is read. -/
theorem readAlike_of_changes (primary : HasPrimary raw mark)
    (changed : Relation.ReflTransGen Change raw other) : ReadAlike raw other := by
  induction changed with
  | refl => exact .primary (tellsAlike_refl raw) primary primary (marksAlike_refl mark)
  | tail _ change alike =>
      cases alike with
      | primary tells first second marks =>
          exact (ReadAlike.primary tells first second marks).trans (change.readAlike second)

/-- **The primary annotation alone decides** where an issue stands. However an issue with a primary
annotation is changed in what is not read of it, it is read as the same issue or dropped as before,
and so are any two issues that agree in what is read. Without primary annotations the same holds of
the first annotation of a list. -/
theorem primary_decides (placement : Placement) :
    (∀ raw mark other, HasPrimary raw mark → Relation.ReflTransGen Change raw other →
      ofValue? placement other = ofValue? placement raw) ∧
    (∀ raw other, ReadAlike raw other → ofValue? placement other = ofValue? placement raw) ∧
    ∀ raw other first rest rest', TellsAlike raw other →
      raw.get? "annotations" = some (.array (first :: rest)) →
      other.get? "annotations" = some (.array (first :: rest')) →
      (∀ mark ∈ first :: rest, ¬ isPrimary mark) → (∀ mark ∈ first :: rest', ¬ isPrimary mark) →
        ofValue? placement other = ofValue? placement raw := by
  refine ⟨?_, ?_, ?_⟩
  · intro raw mark other primary changed
    exact ((readAlike_of_changes primary changed).ofValue?_eq placement).symm
  · intro raw other alike
    exact (alike.ofValue?_eq placement).symm
  · intro raw other first rest rest' tells listed listed' plain plain'
    exact (ofValue?_congr tells (.first listed plain) (.first listed' plain')
      (marksAlike_refl first) placement).symm

/-- Other annotations in another order, a line beside them, and a word in the span. -/
theorem primary_decides_rearranged :
    let span : Keyed Value := [("start", .object [("line", .int 3)])]
    let mark (span : Keyed Value) : Value :=
      .object [("kind", .string "Primary"), ("span", .object span)]
    let issue (marks : List Value) : Keyed Value :=
      [("message", .string "m"), ("annotations", .array marks)]
    let changed := (issue [.int 1, mark (span.put "word" (.string "w")), .null]).put "line" (.int 9)
    HasPrimary (.object (issue [.null, mark span])) (mark span) ∧
      Relation.ReflTransGen Change (.object (issue [.null, mark span])) (.object changed) ∧
      ofValue? (.under "/w") (.object changed) =
        ofValue? (.under "/w") (.object (issue [.null, mark span])) ∧
      ofValue? (.pinned "a.php") (.object changed) =
        ofValue? (.pinned "a.php") (.object (issue [.null, mark span])) := by
  intro span mark issue changed
  have noMark : ∀ other ∈ [Value.null], ¬ isPrimary other := by decide
  have noMark' : ∀ other ∈ [Value.int 1], ¬ isPrimary other := by decide
  have primary : HasPrimary (.object (issue [.null, mark span])) (mark span) :=
    @HasPrimary.among _ _ [.null] [] rfl (by decide) noMark
  have others : Change (.object (issue [.null, mark span]))
      (.object (issue [.int 1, mark span, .null])) :=
    @Change.others _ _ [.null] [] [.int 1] [.null] rfl (by decide) noMark noMark'
  have word : Change (.object (issue [.int 1, mark span, .null]))
      (.object (issue [.int 1, mark (span.put "word" (.string "w")), .null])) :=
    @Change.primary _ _ _ [.int 1] [.null] rfl (by decide) noMark'
      (@MarkChange.span _ (.object span) _ rfl (.put (by decide) (.string "w")))
  have line : Change (.object (issue [.int 1, mark (span.put "word" (.string "w")), .null]))
      (.object changed) := .field (.put (by decide) (.int 9))
  have history := ((Relation.ReflTransGen.single others).tail word).tail line
  exact ⟨primary, history, (primary_decides (.under "/w")).1 _ _ _ primary history,
    (primary_decides (.pinned "a.php")).1 _ _ _ primary history⟩

end Issue

end LintReport
