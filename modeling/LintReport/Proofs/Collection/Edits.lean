import LintReport.Proofs.Collection.Filing
import Mathlib.Data.List.DropRight

/-! # Edits of a collection

What a collection is after any sequence of edits that starts with the empty one, told by the
edits alone: what a file holds (`Edit.held`) and with which edit it last became present
(`Edit.Arrives`). A collection shows exactly that (`Collection.edits_leave`). Each edit acts
on what is held and on the order of the files in its own way, which is shown first; the rest
is by induction on the edits from the last one. -/

namespace LintReport

/-- An operation that may change a collection. -/
inductive Edit where
  | set (file : String) (diagnostics : List Diagnostic)
  | merge (file : String) (diagnostics : List Diagnostic)
  | delete (file : String)
  | clear

namespace Edit

/-! ## What edits leave -/

/-- Whether an edit removes a file: it deletes it, clears everything, or sets it to nothing. -/
def removes (file : String) : Edit → Bool
  | .set other diagnostics => other = file ∧ diagnostics = []
  | .merge _ _ => false
  | .delete other => other = file
  | .clear => true

/-- The diagnostics that an edit sets a file to. -/
def setTo? (file : String) : Edit → Option (List Diagnostic)
  | .set other diagnostics => if other = file then some diagnostics else none
  | _ => none

/-- The diagnostics that an edit merges into a file. -/
def merged (file : String) : Edit → List Diagnostic
  | .merge other diagnostics => if other = file then diagnostics else []
  | _ => []

/-- The edits after the last one that removes a file. -/
def sinceRemoval (file : String) (edits : List Edit) : List Edit :=
  edits.rtakeWhile fun edit => !edit.removes file

/-- The edits after the last one that sets a file. -/
def sinceSet (file : String) (edits : List Edit) : List Edit :=
  edits.rtakeWhile fun edit => (edit.setTo? file).isNone

/-- The diagnostics that the last edit to set a file sets it to; none when no edit does. -/
def lastSet (file : String) (edits : List Edit) : List Diagnostic :=
  (edits.filterMap (setTo? file)).getLast?.getD []

/-- What a file holds after some edits: what it was last set to since it was last removed,
followed by all that was merged into it after that. -/
def held (file : String) (edits : List Edit) : List Diagnostic :=
  let since := sinceRemoval file edits
  lastSet file since ++ (sinceSet file since).flatMap (merged file)

/-- Whether a file last became present with the edit that so many others come before: it
holds nothing before that edit, and something ever after. -/
structure Arrives (file : String) (edits : List Edit) (place : Nat) : Prop where
  inside : place < edits.length
  absent : held file (edits.take place) = []
  present : ∀ later, place < later → later ≤ edits.length → held file (edits.take later) ≠ []

/-! ## One more edit -/

variable {file : String} {edits : List Edit}

/-- A further edit removes, replaces or extends what is held of a file. -/
theorem held_concat (file : String) (edits : List Edit) (edit : Edit) :
    held file (edits ++ [edit]) =
      if edit.removes file then []
      else (edit.setTo? file).getD (held file edits ++ edit.merged file) := by
  unfold held sinceRemoval
  by_cases removed : edit.removes file = true
  · rw [List.rtakeWhile_concat_neg _ _ _ (by simp [removed]), if_pos removed]
    rfl
  · rw [List.rtakeWhile_concat_pos _ _ _ (by simp [removed]), if_neg removed]
    cases new : edit.setTo? file with
    | none =>
        -- what is merged comes last in the edits since the last one to set the file
        simp only [lastSet, sinceSet, List.filterMap_append, List.filterMap_cons, new,
          List.filterMap_nil, List.append_nil, List.rtakeWhile_concat, Option.isNone_none,
          if_true, List.flatMap_append, List.flatMap_singleton, Option.getD_none,
          List.append_assoc]
    | some diagnostics =>
        have nothing : edit.merged file = [] := by
          cases edit <;> simp_all [setTo?, merged]
        simp [lastSet, sinceSet, List.filterMap_append, new]

/-- A file that has arrived is held. -/
theorem Arrives.nonempty {place : Nat} (arrives : Arrives file edits place) :
    held file edits ≠ [] := by
  have last := arrives.present edits.length arrives.inside le_rfl
  rwa [List.take_length] at last

/-- A file last became present with one edit only. -/
theorem Arrives.unique {first second : Nat} (one : Arrives file edits first)
    (other : Arrives file edits second) : first = second := by
  rcases Nat.lt_trichotomy first second with before | same | after
  · exact absurd other.absent (one.present second before other.inside.le)
  · exact same
  · exact absurd one.absent (other.present first after one.inside.le)

/-- With one more edit a file stays where it last became present, or it becomes present with
that edit. -/
theorem arrives_concat {edit : Edit} {place : Nat} :
    Arrives file (edits ++ [edit]) place ↔
      held file (edits ++ [edit]) ≠ [] ∧
        (Arrives file edits place ∨ place = edits.length ∧ held file edits = []) := by
  have whole : (edits ++ [edit]).take (edits.length + 1) = edits ++ [edit] :=
    List.take_of_length_le (by simp)
  have earlier : ∀ {count}, count ≤ edits.length →
      (edits ++ [edit]).take count = edits.take count :=
    fun within => List.take_append_of_le_length within
  constructor
  · intro arrives
    refine ⟨arrives.nonempty, ?_⟩
    have inside := arrives.inside
    have absent := arrives.absent
    rw [List.length_append, List.length_singleton] at inside
    rw [earlier (Nat.le_of_lt_succ inside)] at absent
    rcases Nat.lt_succ_iff_lt_or_eq.mp inside with before | rfl
    · refine .inl ⟨before, absent, fun later after within => ?_⟩
      rw [← earlier within]
      apply arrives.present later after
      rw [List.length_append]
      exact Nat.le_add_right_of_le within
    · rw [List.take_length] at absent
      exact .inr ⟨rfl, absent⟩
  · rintro ⟨present, arrives | ⟨rfl, absent⟩⟩
    · refine ⟨?_, ?_, fun later after within => ?_⟩
      · rw [List.length_append]
        exact Nat.lt_add_right _ arrives.inside
      · rw [earlier arrives.inside.le]
        exact arrives.absent
      · rw [List.length_append, List.length_singleton] at within
        rcases Nat.le_succ_iff.mp within with before | rfl
        · rw [earlier before]
          exact arrives.present later after before
        · rwa [whole]
    · refine ⟨by simp, ?_, fun later after within => ?_⟩
      · rwa [earlier le_rfl, List.take_length]
      · rw [List.length_append, List.length_singleton] at within
        rwa [Nat.le_antisymm within after, whole]

end Edit

namespace Collection

/-- The collection after one edit. -/
def edited (collection : Collection) : Edit → Collection
  | .set file diagnostics => collection.set file diagnostics
  | .merge file diagnostics => collection.merge file diagnostics
  | .delete file => (collection.delete file).2
  | .clear => .empty

/-- The collection after some edits of the empty one. -/
def afterEdits (edits : List Edit) : Collection :=
  edits.foldl edited .empty

theorem afterEdits_concat (edits : List Edit) (edit : Edit) :
    afterEdits (edits ++ [edit]) = (afterEdits edits).edited edit :=
  List.foldl_concat ..

/-! ## One edit of a collection -/

variable {collection : Collection}

/-- What an edit does to the diagnostics of each file. -/
theorem get_edited (collection : Collection) (edit : Edit) (file : String) :
    (collection.edited edit).get file =
      if edit.removes file then []
      else (edit.setTo? file).getD (collection.get file ++ edit.merged file) := by
  cases edit with
  | set other diagnostics =>
      simp only [edited, get_set, Edit.removes, Edit.setTo?, Edit.merged, List.append_nil]
      by_cases same : other = file
      · by_cases empty : diagnostics = [] <;> simp [same, empty]
      · simp [same]
  | merge other diagnostics =>
      simp only [edited, get_merge, Edit.removes, Edit.setTo?, Edit.merged]
      by_cases same : other = file <;> simp [same]
  | delete other =>
      simp only [edited, get_delete, Edit.removes, Edit.setTo?, Edit.merged, List.append_nil]
      by_cases same : other = file <;> simp [same]
  | clear => rfl

/-- Every edit keeps the files filled. -/
theorem IsFilled.edited (filled : collection.IsFilled) (edit : Edit) :
    (collection.edited edit).IsFilled := by
  cases edit with
  | set file diagnostics => exact filled.set file diagnostics
  | merge file diagnostics => exact filled.merge file diagnostics
  | delete file => exact filled.delete file
  | clear => exact .empty

theorem files_delete (collection : Collection) (file : String) :
    (collection.delete file).2.files = collection.files.filter (· ≠ file) := by
  rw [delete, files, files, Keyed.keys, Keyed.keys, Keyed.erase, List.filter_map]
  rfl

/-- An edit keeps the order of the files that stay, and a file that it makes present comes
last. -/
theorem files_edited (collection : Collection) (edit : Edit) :
    ∃ kept, kept.Sublist collection.files ∧
      ((collection.edited edit).files = kept ∨
        ∃ file, file ∉ collection.files ∧ (collection.edited edit).files = kept ++ [file]) := by
  have put : ∀ file diagnostics, ∃ kept, kept.Sublist collection.files ∧
      (files { byFile := collection.byFile.put file diagnostics } = kept ∨
        ∃ new, new ∉ collection.files ∧
          files { byFile := collection.byFile.put file diagnostics } = kept ++ [new]) := by
    intro file diagnostics
    refine ⟨collection.files, List.Sublist.refl _, ?_⟩
    rw [files_put]
    by_cases present : file ∈ collection.files
    · exact .inl (if_pos present)
    · exact .inr ⟨file, present, if_neg present⟩
  have erase : ∀ file, (collection.delete file).2.files.Sublist collection.files := by
    intro file
    rw [files_delete]
    exact List.filter_sublist
  cases edit with
  | set file diagnostics =>
      rw [edited, set]
      split
      · exact ⟨_, erase file, .inl rfl⟩
      · exact put file diagnostics
  | merge file diagnostics =>
      rw [edited, merge]
      split
      · exact ⟨_, List.Sublist.refl _, .inl rfl⟩
      · exact put file _
  | delete file => exact ⟨_, erase file, .inl rfl⟩
  | clear => exact ⟨[], List.nil_sublist _, .inl rfl⟩

/-- A file is there exactly if something is held of it. -/
theorem IsFilled.mem_files_iff (filled : collection.IsFilled) {file : String} :
    file ∈ collection.files ↔ collection.get file ≠ [] := by
  unfold get
  cases found : collection.byFile.get? file with
  | none =>
      have absent : file ∉ collection.files := Keyed.get?_eq_none_iff.mp found
      simp [absent]
  | some diagnostics =>
      have there := Keyed.mem_of_get? found
      have present : file ∈ collection.files := List.mem_map_of_mem there
      simpa [present] using filled.filled _ there

/-! ## Any edits -/

/-- After a course of edits a file has what the edits since its removal gave it. -/
theorem get_afterEdits (edits : List Edit) (file : String) :
    (afterEdits edits).get file = Edit.held file edits := by
  induction edits using List.reverseRecOn with
  | nil => rfl
  | append_singleton edits edit ih => rw [afterEdits_concat, get_edited, Edit.held_concat, ih]

/-- No course of edits leaves a file without diagnostics. -/
theorem isFilled_afterEdits (edits : List Edit) : (afterEdits edits).IsFilled := by
  induction edits using List.reverseRecOn with
  | nil => exact .empty
  | append_singleton edits edit ih =>
      rw [afterEdits_concat]
      exact ih.edited edit

/-- After a course of edits a file is there exactly if something of it is held. -/
theorem mem_files_afterEdits {edits : List Edit} {file : String} :
    file ∈ (afterEdits edits).files ↔ Edit.held file edits ≠ [] := by
  rw [(isFilled_afterEdits edits).mem_files_iff, get_afterEdits]

/-- Every file that is present became so with some edit. -/
theorem exists_arrives {edits : List Edit} {file : String} (present : Edit.held file edits ≠ []) :
    ∃ place, Edit.Arrives file edits place := by
  induction edits using List.reverseRecOn with
  | nil => exact absurd rfl present
  | append_singleton edits edit ih =>
      by_cases before : Edit.held file edits = []
      · exact ⟨edits.length, Edit.arrives_concat.mpr ⟨present, .inr ⟨rfl, before⟩⟩⟩
      · obtain ⟨place, arrives⟩ := ih before
        exact ⟨place, Edit.arrives_concat.mpr ⟨present, .inl arrives⟩⟩

/-- The files stand in the order in which they last became present. -/
theorem files_afterEdits_pairwise (edits : List Edit) :
    (afterEdits edits).files.Pairwise fun first second => ∀ early late,
      Edit.Arrives first edits early → Edit.Arrives second edits late → early < late := by
  induction edits using List.reverseRecOn with
  | nil => exact List.Pairwise.nil
  | append_singleton edits edit ih =>
      have arrived : ∀ {file place}, file ∈ (afterEdits edits).files →
          Edit.Arrives file (edits ++ [edit]) place → Edit.Arrives file edits place := by
        intro file place present arrives
        rcases (Edit.arrives_concat.mp arrives).2 with before | ⟨_, absent⟩
        · exact before
        · exact absurd absent (mem_files_afterEdits.mp present)
      obtain ⟨kept, stays, files⟩ := files_edited (afterEdits edits) edit
      have old : kept.Pairwise fun first second => ∀ early late,
          Edit.Arrives first (edits ++ [edit]) early →
            Edit.Arrives second (edits ++ [edit]) late → early < late := by
        refine (ih.sublist stays).imp_of_mem fun firstThere secondThere ordered => ?_
        intro early late first second
        exact ordered early late (arrived (stays.subset firstThere) first)
          (arrived (stays.subset secondThere) second)
      rw [afterEdits_concat]
      rcases files with same | ⟨new, absent, added⟩
      · rwa [same]
      · rw [added, List.pairwise_append]
        refine ⟨old, List.pairwise_singleton _ _, fun first firstThere second single => ?_⟩
        intro early late firstArrives secondArrives
        rw [List.mem_singleton.mp single] at secondArrives
        have before := arrived (stays.subset firstThere) firstArrives
        rcases (Edit.arrives_concat.mp secondArrives).2 with known | ⟨rfl, _⟩
        · exact absurd (mem_files_afterEdits.mpr known.nonempty) absent
        · exact before.inside

/-- Whether a collection is what some edits leave of the empty one. -/
structure IsLeftBy (edits : List Edit) (collection : Collection) : Prop where
  get : ∀ file, collection.get file = Edit.held file edits
  distinct : collection.files.Nodup
  present : ∀ file, file ∈ collection.files ↔ collection.get file ≠ []
  arrived : ∀ file ∈ collection.files, ∃ place, Edit.Arrives file edits place
  ordered : collection.files.Pairwise fun first second => ∀ early late,
    Edit.Arrives first edits early → Edit.Arrives second edits late → early < late
  /-- Deleting a file tells whether it was there. -/
  told : ∀ file, (collection.delete file).1 = true ↔ file ∈ collection.files
  /-- Deleting a file leaves the others what they hold. -/
  others : ∀ file other, other ≠ file →
    (collection.delete file).2.get other = collection.get other
  /-- Deleting a file leaves the others in their order. -/
  left : ∀ file, (collection.delete file).2.files = collection.files.filter (· ≠ file)
  entries : collection.byFile = collection.files.map fun file => (file, collection.get file)

/-- **What edits leave.** After any edits of the empty collection a file holds what it was last
set to since it was last removed, with all that was merged into it after that. The files are
those that hold something, each of them once, in the order in which they last became present.
Deleting one of them is told as such and touches no other. The entries are these files with
what they hold. -/
theorem edits_leave (edits : List Edit) : (afterEdits edits).IsLeftBy edits where
  get := get_afterEdits edits
  distinct := (isFilled_afterEdits edits).distinct
  present _ := (isFilled_afterEdits edits).mem_files_iff
  arrived _ there := exists_arrives (mem_files_afterEdits.mp there)
  ordered := files_afterEdits_pairwise edits
  told _ := Keyed.has_iff_mem_keys
  others file other different := by rw [get_delete, if_neg (Ne.symm different)]
  left := files_delete _
  entries := Keyed.eq_tabulate (isFilled_afterEdits edits).distinct

/-- A file that comes back after it was deleted goes to the end. -/
example (diagnostic : Diagnostic) :
    (afterEdits [.merge "a.php" [diagnostic], .merge "b.php" [diagnostic], .delete "a.php",
      .merge "a.php" [diagnostic], .merge "b.php" [diagnostic]]).files = ["b.php", "a.php"] := rfl

end Collection

end LintReport
