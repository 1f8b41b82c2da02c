import LintReport.Check
import LintReport.Proofs.Report.Soundness

/-! # Diagnostics filed by file

How diagnostics stand under their files: each file once, none over an empty list, and
under it only sound diagnostics of its own (`WellFiled`). The diagnostics of a report are
filed this way, and adding well filed diagnostics to a collection, or removing a file from
it, keeps it well filed. What a file has gained afterwards is what was filed under it
(`Collection.get_mergeAll`). Whatever the diagnostics are, no operation leaves a file twice or
one without diagnostics (`Collection.IsFilled`). -/

namespace LintReport

/-- Diagnostics by file, all of them sound and from one of the given sources. -/
structure WellFiled (sources : List String) (byFile : Keyed (List Diagnostic)) : Prop where
  distinct : byFile.keys.Nodup
  filled : ∀ entry ∈ byFile, entry.2 ≠ []
  sound : ∀ entry ∈ byFile, ∀ diagnostic ∈ entry.2,
    diagnostic.file = entry.1 ∧ ∃ source ∈ sources, diagnostic.IsSound source

namespace WellFiled

variable {sources : List String} {byFile : Keyed (List Diagnostic)}

/-- No diagnostics at all are well filed. -/
theorem nil : WellFiled sources [] := by
  constructor
  · exact List.nodup_nil
  · intro entry member
    cases member
  · intro entry member
    cases member

/-- Sound diagnostics of one file are well filed under it. -/
theorem single {file : String} {diagnostics : List Diagnostic} (filled : diagnostics ≠ [])
    (sound : ∀ diagnostic ∈ diagnostics,
      diagnostic.file = file ∧ ∃ source ∈ sources, diagnostic.IsSound source) :
    WellFiled sources [(file, diagnostics)] := by
  constructor
  · exact List.nodup_singleton _
  · intro entry member
    rw [List.mem_singleton.mp member]
    exact filled
  · intro entry member
    rw [List.mem_singleton.mp member]
    exact sound

/-- What is filed behind the first file is well filed. -/
theorem tail {entry : String × List Diagnostic} (filed : WellFiled sources (entry :: byFile)) :
    WellFiled sources byFile :=
  ⟨(List.nodup_cons.mp filed.distinct).2,
    fun other member => filed.filled other (List.mem_cons_of_mem _ member),
    fun other member => filed.sound other (List.mem_cons_of_mem _ member)⟩

/-- Without a diagnostic no file is there. -/
theorem eq_nil_of_total (filed : WellFiled sources byFile) (none : byFile.total = 0) :
    byFile = [] := by
  cases byFile with
  | nil => rfl
  | cons entry rest =>
      have empty : entry.2 = [] := by
        apply List.eq_nil_of_length_eq_zero
        rw [Keyed.total] at none
        omega
      exact absurd empty (filed.filled entry List.mem_cons_self)

/-- Taking a file out leaves the others well filed. -/
theorem erase (filed : WellFiled sources byFile) (file : String) :
    WellFiled sources (byFile.erase file) := by
  have kept : ∀ entry ∈ byFile.erase file, entry ∈ byFile :=
    fun entry member => (List.mem_filter.mp member).1
  constructor
  · exact Keyed.nodup_keys_erase filed.distinct file
  · intro entry member
    exact filed.filled entry (kept entry member)
  · intro entry member
    exact filed.sound entry (kept entry member)

/-- Adding sound diagnostics to those of their file. -/
theorem extend (filed : WellFiled sources byFile) {file : String} {diagnostics : List Diagnostic}
    (filled : diagnostics ≠ [])
    (sound : ∀ diagnostic ∈ diagnostics,
      diagnostic.file = file ∧ ∃ source ∈ sources, diagnostic.IsSound source) :
    WellFiled sources (byFile.extend file diagnostics) := by
  constructor
  · exact Keyed.nodup_keys_put filed.distinct _ _
  · intro entry member
    rcases Keyed.mem_put member with present | rfl
    · exact filed.filled entry present
    · exact List.append_ne_nil_of_right_ne_nil _ filled
  · intro entry member
    rcases Keyed.mem_put member with present | rfl
    · exact filed.sound entry present
    · intro diagnostic inside
      rcases List.mem_append.mp inside with before | added
      · cases found : byFile.get? file with
        | none => simp [found] at before
        | some earlier =>
            rw [found, Option.getD_some] at before
            exact filed.sound _ (Keyed.mem_of_get? found) diagnostic before
      · exact sound diagnostic added

end WellFiled

/-! ## Reports -/

/-- The diagnostics of a run on a file are in that file. -/
theorem Diagnostic.file_of_pinned {file output source : String} {diagnostic : Diagnostic}
    (member : diagnostic ∈ (Findings.ofOutput (.pinned file) output).diagnostics source) :
    diagnostic.file = file := by
  obtain ⟨issue, found, rfl⟩ := List.mem_map.mp member
  rw [Findings.issues_eq] at found
  obtain ⟨origin, _, reported⟩ := List.mem_filterMap.mp found
  exact Origin.file_of_pinned reported

/-- A report is well filed, on a file as well as on a project. -/
theorem ReportParser.wellFiled_report {parser : ReportParser} {sources : List String}
    (known : parser.source ∈ sources) (output : String) (target : CheckTarget) :
    WellFiled sources (parser.report output target).diagnostics := by
  cases target with
  | file path =>
      by_cases none : (parser.fileReport output path).diagnostics = []
      · simp only [report, if_pos none]
        exact WellFiled.nil
      · simp only [report, if_neg none]
        apply WellFiled.single none
        intro diagnostic member
        exact ⟨Diagnostic.file_of_pinned member, parser.source, known,
          Findings.isSound_of_mem member⟩
  | workspace root =>
      constructor
      · exact Keyed.nodup_keys_group _ _
      · intro entry member
        exact (Keyed.of_mem_group member).2
      · intro entry member diagnostic inside
        rw [(Keyed.of_mem_group member).1] at inside
        obtain ⟨there, same⟩ := List.mem_filter.mp inside
        exact ⟨by simpa using same, parser.source, known, Findings.isSound_of_mem there⟩

/-! ## Collections -/

namespace Collection

theorem mergeAll_cons (collection : Collection) (entry : String × List Diagnostic)
    (rest : Keyed (List Diagnostic)) :
    collection.mergeAll (entry :: rest) = (collection.merge entry.1 entry.2).mergeAll rest := rfl

/-- **What a file gains.** With each file there once, a file gains exactly what stands
under it, after what it had. -/
theorem get_mergeAll {byFile : Keyed (List Diagnostic)} (distinct : byFile.keys.Nodup)
    (collection : Collection) (file : String) :
    (collection.mergeAll byFile).get file =
      collection.get file ++ (byFile.get? file).getD [] := by
  induction byFile generalizing collection with
  | nil => simp [mergeAll, Keyed.get?]
  | cons entry rest ih =>
      obtain ⟨absent, distinct⟩ := List.nodup_cons.mp distinct
      rw [mergeAll_cons, ih distinct, get_merge, Keyed.get?]
      by_cases same : entry.1 = file
      · subst same
        rw [if_pos rfl, if_pos rfl, Keyed.get?_eq_none_iff.mpr absent, Option.getD_none,
          List.append_nil, Option.getD_some]
      · rw [if_neg same, if_neg same]

/-- Putting diagnostics under a file adds the file if it is new. -/
theorem files_put (collection : Collection) (file : String) (diagnostics : List Diagnostic) :
    files { byFile := collection.byFile.put file diagnostics } =
      if file ∈ collection.files then collection.files else collection.files ++ [file] :=
  Keyed.keys_put _ _ _

/-- Merging diagnostics into a file adds the file if it is new. -/
theorem files_merge (collection : Collection) (file : String) {diagnostics : List Diagnostic}
    (filled : diagnostics ≠ []) :
    (collection.merge file diagnostics).files =
      if file ∈ collection.files then collection.files else collection.files ++ [file] := by
  rw [merge, if_neg filled]
  exact files_put _ _ _

/-- New files come last, in the order in which they are added. -/
theorem files_mergeAll {byFile : Keyed (List Diagnostic)} (distinct : byFile.keys.Nodup)
    (filled : ∀ entry ∈ byFile, entry.2 ≠ []) (collection : Collection) :
    (collection.mergeAll byFile).files =
      collection.files ++ byFile.keys.filter (· ∉ collection.files) := by
  induction byFile generalizing collection with
  | nil => simp [mergeAll]
  | cons entry rest ih =>
      obtain ⟨absent, distinct⟩ := List.nodup_cons.mp distinct
      rw [mergeAll_cons,
        ih distinct fun other member => filled other (List.mem_cons_of_mem _ member),
        files_merge _ _ (filled entry List.mem_cons_self), Keyed.keys_cons]
      by_cases present : entry.1 ∈ collection.files
      · rw [if_pos present, List.filter_cons_of_neg (by simpa using present)]
      · -- the file is new, and as it comes once it is none of the later ones
        have later : ∀ file ∈ Keyed.keys rest,
            decide (file ∉ collection.files ++ [entry.1]) = decide (file ∉ collection.files) := by
          intro file member
          have other : file ≠ entry.1 := fun same => absent (same ▸ member)
          simp [other]
        rw [if_neg present, List.filter_cons_of_pos (by simpa using present),
          List.filter_congr later, List.append_assoc, List.singleton_append]

/-- **What a collection holds after more diagnostics.** What it held, followed by them. -/
theorem byFile_mergeAll {collection : Collection} (before : collection.byFile.keys.Nodup)
    {byFile : Keyed (List Diagnostic)} (distinct : byFile.keys.Nodup)
    (filled : ∀ entry ∈ byFile, entry.2 ≠ []) :
    (collection.mergeAll byFile).byFile = collection.byFile.followedBy byFile := by
  have names := files_mergeAll distinct filled collection
  have lists := get_mergeAll distinct collection
  unfold files at names
  unfold get at lists
  have after : (collection.mergeAll byFile).byFile.keys.Nodup := by
    rw [names]
    refine List.nodup_append.mpr ⟨before, distinct.filter _, ?_⟩
    intro file present other new same
    exact absurd (same ▸ present) (by simpa using (List.mem_filter.mp new).2)
  rw [Keyed.eq_tabulate after, names, Keyed.followedBy, funext lists]

/-- Merging what is well filed into what is well filed leaves it so. -/
theorem wellFiled_mergeAll {sources : List String} {collection : Collection}
    {byFile : Keyed (List Diagnostic)} (filed : WellFiled sources collection.byFile)
    (more : WellFiled sources byFile) : WellFiled sources (collection.mergeAll byFile).byFile := by
  induction byFile generalizing collection with
  | nil => exact filed
  | cons entry rest ih =>
      have filled := more.filled entry List.mem_cons_self
      rw [mergeAll_cons]
      apply ih _ more.tail
      rw [merge, if_neg filled]
      exact filed.extend filled (more.sound entry List.mem_cons_self)

/-! ## Collections without empty files -/

/-- Whether each file is there once, and none without diagnostics. No operation changes that. -/
structure IsFilled (collection : Collection) : Prop where
  distinct : collection.files.Nodup
  filled : ∀ entry ∈ collection.byFile, entry.2 ≠ []

namespace IsFilled

variable {collection : Collection}

theorem empty : IsFilled .empty where
  distinct := List.nodup_nil
  filled _ member := by cases member

/-- Putting diagnostics under a file keeps every file filled. -/
theorem put (filled : collection.IsFilled) {diagnostics : List Diagnostic}
    (some : diagnostics ≠ []) (file : String) :
    IsFilled { byFile := collection.byFile.put file diagnostics } where
  distinct := Keyed.nodup_keys_put filled.distinct _ _
  filled entry member := by
    rcases Keyed.mem_put member with present | rfl
    · exact filled.filled entry present
    · exact some

theorem delete (filled : collection.IsFilled) (file : String) :
    (collection.delete file).2.IsFilled where
  distinct := Keyed.nodup_keys_erase filled.distinct file
  filled entry member := filled.filled entry (List.mem_filter.mp member).1

/-- Setting the diagnostics of a file keeps every file filled, since setting none deletes it. -/
theorem set (filled : collection.IsFilled) (file : String) (diagnostics : List Diagnostic) :
    (collection.set file diagnostics).IsFilled := by
  unfold Collection.set
  split
  · exact filled.delete file
  · next some => exact filled.put some file

/-- Merging keeps every file filled, since merging none does nothing. -/
theorem merge (filled : collection.IsFilled) (file : String) (diagnostics : List Diagnostic) :
    (collection.merge file diagnostics).IsFilled := by
  unfold Collection.merge
  split
  · exact filled
  · next some => exact filled.put (List.append_ne_nil_of_right_ne_nil _ some) file

/-- What stands under a file is what the collection has for it. -/
theorem get_of_mem (filled : collection.IsFilled) {entry : String × List Diagnostic}
    (member : entry ∈ collection.byFile) : collection.get entry.1 = entry.2 := by
  rw [get, Keyed.get?_of_mem filled.distinct member, Option.getD_some]

end IsFilled

end Collection

end LintReport
