import LintReport.Issue.FromValue
import LintReport.Proofs.Json.Value

/-! # Fields of JSON issues

What an issue says of its place stands in one of its annotations, which is the first primary one
or, if there is no primary one, the first one (`Issue.Selects`). The file of the issue is the path
in the span of this annotation, or the name there, or what the issue itself gives as its file
(`Issue.Names`). What it is read as is told field by field (`Issue.isRead_of_ofValue?`). -/

namespace LintReport

open Json

namespace Issue

open Value

variable {raw : Value}

/-! ## The annotation that decides -/

/-- Whether an annotation is the one that decides where an issue stands. -/
inductive Selects (raw : Value) : Value → Prop
  | primary {before after : List Value} {mark : Value}
      (listed : raw.get? "annotations" = some (.array (before ++ mark :: after)))
      (chosen : isPrimary mark) (earlier : ∀ other ∈ before, ¬ isPrimary other) : Selects raw mark
  | first {rest : List Value} {mark : Value}
      (listed : raw.get? "annotations" = some (.array (mark :: rest)))
      (plain : ∀ other ∈ mark :: rest, ¬ isPrimary other) : Selects raw mark

/-- Of listed annotations the first primary one is selected, or else the first. -/
theorem anchor?_of_listed {marks : List Value}
    (listed : raw.get? "annotations" = some (.array marks)) :
    anchor? raw = (marks.find? isPrimary).or marks.head? := by
  rw [anchor?, listed, Option.bind_some, items?]
  cases marks with
  | nil => rfl
  | cons first rest =>
      dsimp only [List.head?_cons]
      cases (first :: rest).find? isPrimary <;> rfl

/-- Only a listed annotation is selected. -/
theorem exists_listed {mark : Value} (found : anchor? raw = some mark) :
    ∃ marks, raw.get? "annotations" = some (.array marks) := by
  unfold anchor? at found
  split at found
  · next listed => exact ⟨_, bind_items?_eq_some_iff.mp listed⟩
  · cases found

/-- An annotation is found exactly if it is selected. -/
theorem anchor?_eq_some_iff {mark : Value} : anchor? raw = some mark ↔ Selects raw mark := by
  constructor
  · intro found
    obtain ⟨marks, listed⟩ := exists_listed found
    rw [anchor?_of_listed listed] at found
    cases primary : marks.find? isPrimary with
    | some chosen =>
        rw [primary, Option.some_or, Option.some.injEq] at found
        subst found
        obtain ⟨chosen, before, after, rfl, earlier⟩ := List.find?_eq_some_iff_append.mp primary
        exact .primary listed chosen fun other member => by simpa using earlier other member
    | none =>
        rw [primary, Option.none_or] at found
        obtain ⟨rest, rfl⟩ := List.head?_eq_some_iff.mp found
        exact .first listed (List.find?_eq_none.mp primary)
  · intro selected
    cases selected with
    | @primary before after _ listed chosen earlier =>
        have found : (before ++ mark :: after).find? isPrimary = some mark :=
          List.find?_eq_some_iff_append.mpr
            ⟨chosen, before, after, rfl, fun other member => by simpa using earlier other member⟩
        rw [anchor?_of_listed listed, found, Option.some_or]
    | first listed plain =>
        rw [anchor?_of_listed listed, List.find?_eq_none.mpr plain, Option.none_or, List.head?_cons]

theorem anchor?_eq_none_iff : anchor? raw = none ↔ ∀ mark, ¬ Selects raw mark := by
  simp only [Option.eq_none_iff_forall_ne_some, ne_eq, anchor?_eq_some_iff]

/-! ## The file that is named -/

/-- Whether an annotation names a file, by a path or else by a name. -/
inductive AnnotationNames (mark : Value) : String → Prop
  | path {file : String} (filled : IsFilled (mark.inside? ["span", "file_id", "path"]) file) :
      AnnotationNames mark file
  | name {file : String}
      (noPath : ∀ other, ¬ IsFilled (mark.inside? ["span", "file_id", "path"]) other)
      (filled : IsFilled (mark.inside? ["span", "file_id", "name"]) file) :
      AnnotationNames mark file

/-- Whether an issue names a file, in the annotation that decides or else by itself. -/
inductive Names (raw : Value) : String → Prop
  | anchored {mark : Value} {file : String} (selected : Selects raw mark)
      (named : AnnotationNames mark file) : Names raw file
  | plain {file : String}
      (unnamed : ∀ mark, Selects raw mark → ∀ other, ¬ AnnotationNames mark other)
      (filled : IsFilled (raw.get? "file") file) : Names raw file

/-- An annotation names its file by its path or else by its name. -/
theorem anchoredFile?_eq (mark : Value) :
    anchoredFile? mark =
      ((mark.inside? ["span", "file_id", "path"]).bind filledString?).or
        ((mark.inside? ["span", "file_id", "name"]).bind filledString?) := by
  simp only [anchoredFile?, inside?_cons_cons, inside?_singleton]

/-- A file is found in an annotation exactly if it names the file. -/
theorem anchoredFile?_eq_some_iff {mark : Value} {file : String} :
    anchoredFile? mark = some file ↔ AnnotationNames mark file := by
  rw [anchoredFile?_eq, Option.or_eq_some_iff, bind_filledString?_eq_some_iff,
    bind_filledString?_eq_none_iff, bind_filledString?_eq_some_iff]
  constructor
  · rintro (path | ⟨noPath, name⟩)
    · exact .path path
    · exact .name noPath name
  · intro named
    cases named with
    | path filled => exact .inl filled
    | name noPath filled => exact .inr ⟨noPath, filled⟩

/-- A file is found in the annotations exactly if the selected one names it. -/
theorem anchor?_bind_eq_some_iff {file : String} :
    (anchor? raw).bind anchoredFile? = some file ↔
      ∃ mark, Selects raw mark ∧ AnnotationNames mark file := by
  simp only [Option.bind_eq_some_iff, anchor?_eq_some_iff, anchoredFile?_eq_some_iff]

/-- A file is found in an object exactly if it names the file. -/
theorem reportedFile?_eq_some_iff {file : String} :
    reportedFile? raw = some file ↔ Names raw file := by
  rw [reportedFile?, Option.or_eq_some_iff, anchor?_bind_eq_some_iff,
    bind_filledString?_eq_some_iff, Option.eq_none_iff_forall_ne_some]
  simp only [ne_eq, anchor?_bind_eq_some_iff, not_exists, not_and]
  constructor
  · rintro (⟨mark, selected, named⟩ | ⟨unnamed, filled⟩)
    · exact .anchored selected named
    · exact .plain (fun mark selected other => unnamed other mark selected) filled
  · intro named
    cases named with
    | anchored selected named => exact .inl ⟨_, selected, named⟩
    | plain unnamed filled =>
        exact .inr ⟨fun other mark selected => unnamed mark selected other, filled⟩

/-! ## The issue that is read -/

/-- The span of an extent, its lines and columns counted from zero. -/
def Extent.span (extent : Extent) : Span :=
  ⟨⟨extent.line - 1, extent.column - 1⟩, ⟨extent.endLine - 1, extent.endColumn - 1⟩⟩

/-- Whether an issue is what is read from a value. -/
structure IsRead (placement : Placement) (raw : Value) (issue : Issue) : Prop where
  message : message? raw = some issue.message
  file : placement.file? (reportedFile? raw) = some issue.file
  span : issue.span = (extent raw).span
  severity : issue.severity = Severity.ofValue (raw.getD "level")
  code : issue.code = codeOf raw
  notes : issue.notes = notesOf raw
  help : issue.help = (raw.get? "help").bind filledString?

/-- An issue has the fields that are read off its object. -/
theorem isRead_of_ofValue? {placement : Placement} {issue : Issue}
    (reported : ofValue? placement raw = some issue) :
    IsRead placement raw issue := by
  unfold ofValue? at reported
  split at reported
  · next message file told named =>
      rw [Option.some.injEq] at reported
      subst reported
      exact ⟨told, named, rfl, rfl, rfl, rfl, rfl⟩
  · cases reported

/-- An issue is read if there are a message and a file. -/
theorem isSome_ofValue? (placement : Placement) (raw : Value) :
    (ofValue? placement raw).isSome =
      ((message? raw).isSome && (placement.file? (reportedFile? raw)).isSome) := by
  rw [ofValue?]
  cases message? raw with
  | none => rfl
  | some message => cases placement.file? (reportedFile? raw) <;> rfl

end Issue

end LintReport
