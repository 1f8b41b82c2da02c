import LintReport.Proofs.SourcePath.Components
import LintReport.Proofs.Text.Run

/-! # Resolved paths

The path of a file that a report names is one or two slashes with names between single slashes
after them (`IsNormal`), whatever the report gives, if it gives no drive. The names are those
that the components of the root and of the given path are settled to, and a path of this form is
resolved to itself whatever the root is (`resolve_normal`). -/

namespace LintReport.SourcePath

open Text

/-! ## Normal paths -/

/-- Whether a path is one or two slashes with some names between slashes after them. -/
structure IsNormal (path : List Char) (names : List (List Char)) : Prop where
  written : ∃ slashes, (slashes = ['/'] ∨ slashes = ['/', '/']) ∧ path = slashes ++ join ['/'] names
  named : ∀ name ∈ names, IsName name
  single : ∀ name ∈ names, '/' ∉ name

/-- The normal form of a rooted path. -/
def normalPath (path : List Char) : List Char :=
  leadingSlashes path ++ join ['/'] (normalComponents true (splitAt '/' path))

/-- A rooted path keeps one or two of its slashes. -/
theorem leadingSlashes_of_isRooted {path : List Char} (rooted : isRooted path) :
    leadingSlashes path = ['/'] ∨ leadingSlashes path = ['/', '/'] := by
  unfold leadingSlashes
  split
  · exact .inl rfl
  · exact .inr rfl
  · exact .inl rfl
  · next other =>
      cases path with
      | nil => simp [isRooted] at rooted
      | cons char rest =>
          simp only [isRooted, List.head?_cons, beq_iff_eq, Option.some.injEq] at rooted
          exact absurd rfl (rooted ▸ other rest)

/-- One or two slashes before a relative path are the leading ones. -/
theorem leadingSlashes_append {slashes rest : List Char}
    (some : slashes = ['/'] ∨ slashes = ['/', '/']) (starts : isRooted rest = false) :
    leadingSlashes (slashes ++ rest) = slashes := by
  cases rest with
  | nil => rcases some with rfl | rfl <;> rfl
  | cons char rest =>
      have other : char ≠ '/' := by simpa [isRooted] using starts
      rcases some with rfl | rfl <;> simp [leadingSlashes, other]

/-- The normal path of a rooted one is normal. -/
theorem isNormal_normalPath {path : List Char} (rooted : isRooted path) :
    IsNormal (normalPath path) (normalComponents true (splitAt '/' path)) := by
  have settled := isSettled_normalComponents (splitAt '/' path)
  refine ⟨⟨_, leadingSlashes_of_isRooted rooted, rfl⟩, settled.named, ?_⟩
  intro name member
  exact mark_notMem_of_mem_splitAt (settled.sublist.mem member)

/-- Something is left of a rooted path, so that no single dot stands for it. -/
theorem normalize_of_isRooted {path : List Char} (rooted : isRooted path) :
    normalize path = normalPath path := by
  have filled : normalPath path ≠ [] := by
    rcases leadingSlashes_of_isRooted rooted with one | two
    · simp [normalPath, one]
    · simp [normalPath, two]
  obtain ⟨first, rest, shown⟩ := List.exists_cons_of_ne_nil filled
  unfold normalPath at shown ⊢
  simp only [normalize, rooted, shown]

namespace IsNormal

variable {path : List Char} {names : List (List Char)}

theorem isRooted (normal : IsNormal path names) : isRooted path := by
  obtain ⟨slashes, rfl | rfl, rfl⟩ := normal.written
  · rfl
  · rfl

/-- The names of a normal path do not start with a slash. -/
theorem isRooted_join (normal : IsNormal path names) :
    SourcePath.isRooted (join ['/'] names) = false := by
  cases names with
  | nil => rfl
  | cons name others =>
      have single := normal.single name List.mem_cons_self
      obtain ⟨char, rest, rfl⟩ :=
        List.exists_cons_of_ne_nil (normal.named name List.mem_cons_self).filled
      have start : (join ['/'] ((char :: rest) :: others)).head? = some char := by
        cases others with
        | nil => rfl
        | cons => rfl
      rw [SourcePath.isRooted, start]
      exact beq_eq_false_iff_ne.mpr fun same => single (by simp_all)

/-- The components of a normal path are settled to its names. -/
theorem normalComponents (normal : IsNormal path names) :
    normalComponents true (splitAt '/' path) = names := by
  have components : SourcePath.normalComponents true (splitAt '/' (join ['/'] names)) = names := by
    by_cases filled : names = []
    · subst filled
      rfl
    · rw [splitAt_join filled normal.single, normalComponents_names normal.named]
  have skip (rest : List Char) : SourcePath.normalComponents true (splitAt '/' ('/' :: rest)) =
      SourcePath.normalComponents true (splitAt '/' rest) := by
    rw [splitAt, if_pos rfl]
    exact normalComponents_of_step (.drop [] _ (.inl rfl))
  obtain ⟨slashes, rfl | rfl, rfl⟩ := normal.written
  · exact (skip _).trans components
  · exact (skip _).trans ((skip _).trans components)

/-- A normal path is its own normal path. -/
theorem normalPath (normal : IsNormal path names) : normalPath path = path := by
  have components := normal.normalComponents
  have starts := normal.isRooted_join
  obtain ⟨slashes, some, rfl⟩ := normal.written
  rw [SourcePath.normalPath, components, leadingSlashes_append some starts]

/-- A normal path is resolved to itself. -/
theorem resolveChars (normal : IsNormal path names) (root : List Char) :
    resolveChars path root = path := by
  have unmarked : withoutMarker path = path := by
    obtain ⟨slashes, rfl | rfl, rfl⟩ := normal.written
    · rfl
    · rfl
  rw [SourcePath.resolveChars, unmarked, normal.isRooted, Bool.true_or, if_pos rfl,
    normalize_of_isRooted normal.isRooted, normal.normalPath]

end IsNormal

/-! ## Given paths -/

/-- Whether a path starts with a slash or a backslash. -/
def IsComplete (path : List Char) : Prop :=
  path.head? = some '/' ∨ path.head? = some '\\'

/-- With slashes a path is rooted exactly if it was complete. -/
theorem isRooted_withSlashes_iff {path : List Char} :
    isRooted (withSlashes path) ↔ IsComplete path := by
  cases path with
  | nil => simp [isRooted, withSlashes, IsComplete]
  | cons char rest =>
      by_cases backslash : char = '\\'
      · simp [isRooted, withSlashes, IsComplete, backslash]
      · simp [isRooted, withSlashes, IsComplete, backslash]

/-- With slashes a path that is not complete is not rooted. -/
theorem isRooted_withSlashes {path : List Char} (incomplete : ¬ IsComplete path) :
    isRooted (withSlashes path) = false :=
  Bool.eq_false_iff.mpr fun slash => incomplete (isRooted_withSlashes_iff.mp slash)

theorem isComplete_of_isRooted {path : List Char} (rooted : isRooted path) : IsComplete path :=
  .inl (by simpa [isRooted] using rooted)

/-- A backslash is no part of a drive. -/
theorem hasDrive_withSlashes (path : List Char) : hasDrive (withSlashes path) = hasDrive path := by
  have drive (letter mark : Char) (rest : List Char) :
      hasDrive (letter :: mark :: rest) = (mark == ':' && letter.isAlpha) := by
    unfold hasDrive
    split <;> simp_all
  match path with
  | [] => rfl
  | [char] => rfl
  | letter :: mark :: rest =>
      simp only [withSlashes, List.map_cons, drive]
      by_cases first : letter = '\\'
      · subst first
        simp
      · by_cases second : mark = '\\'
        · subst second
          simp
        · rw [if_neg first, if_neg second]

/-! ## Resolved paths -/

/-- What stands below a directory has the components of both, but for idle ones. -/
theorem normalComponents_below (rooted : Bool) {root path : List Char}
    (given : isRooted path = false) :
    normalComponents rooted (splitAt '/' (below root path)) =
      normalComponents rooted (splitAt '/' root ++ splitAt '/' path) := by
  rw [below, given, if_neg Bool.false_ne_true]
  by_cases ends : root = [] ∨ root.getLast? = some '/'
  · rw [if_pos ends]
    rcases ends with rfl | slash
    · exact (normalComponents_drop rooted [] _ (.inl rfl)).symm
    · obtain ⟨before, rfl⟩ := List.getLast?_eq_some_iff.mp slash
      rw [List.append_assoc, List.singleton_append, splitAt_append_cons, splitAt_append_cons,
        List.append_assoc]
      exact (normalComponents_drop rooted _ _ (.inl rfl)).symm
  · rw [if_neg ends, splitAt_append_cons]

/-- Below a rooted path every path is rooted. -/
theorem isRooted_below {root : List Char} (rooted : isRooted root) (path : List Char) :
    isRooted (below root path) := by
  unfold below
  split
  · next given => exact given
  · obtain ⟨char, rest, rfl⟩ : ∃ char rest, root = char :: rest := by
      cases root with
      | nil => cases rooted
      | cons char rest => exact ⟨char, rest, rfl⟩
    split <;> exact rooted

variable {reported root : List Char}

/-- A path without a drive is made normal from a rooted path. -/
theorem exists_resolveChars (rooted : isRooted root)
    (plain : hasDrive (withoutMarker reported) = false) :
    ∃ path, isRooted path ∧ resolveChars reported root = normalPath path ∧
      (¬ IsComplete (withoutMarker reported) →
        IsSettled (splitAt '/' root ++ splitAt '/' (withSlashes (withoutMarker reported)))
          (normalComponents true (splitAt '/' path))) := by
  rw [resolveChars, hasDrive_withSlashes, plain, Bool.or_false]
  by_cases given : isRooted (withoutMarker reported)
  · rw [if_pos given]
    refine ⟨_, given, normalize_of_isRooted given, ?_⟩
    exact fun incomplete => absurd (isComplete_of_isRooted given) incomplete
  · rw [if_neg given]
    have below := isRooted_below rooted (withSlashes (withoutMarker reported))
    refine ⟨_, below, normalize_of_isRooted below, ?_⟩
    intro incomplete
    rw [isSettled_iff]
    apply normalComponents_below
    exact isRooted_withSlashes incomplete

/-- Backslashes are replaced once for all. -/
theorem withSlashes_withSlashes (path : List Char) :
    withSlashes (withSlashes path) = withSlashes path := by
  unfold withSlashes
  rw [List.map_map]
  apply List.map_congr_left
  intro char _
  by_cases backslash : char = '\\' <;> simp [backslash]

/-- A path without the marker is left as it is. -/
theorem withoutMarker_of_unmarked {path : List Char} (unmarked : ¬ longPathMarker <+: path) :
    withoutMarker path = path := by
  unfold withoutMarker
  cases marked : after? longPathMarker path with
  | none => rfl
  | some rest => exact absurd ⟨rest, (after?_eq_some_iff.mp marked).symm⟩ unmarked

/-- With slashes no path has the marker. -/
theorem withoutMarker_withSlashes (path : List Char) :
    withoutMarker (withSlashes path) = withSlashes path := by
  apply withoutMarker_of_unmarked
  intro marked
  have backslash : '\\' ∈ withSlashes path := marked.mem List.mem_cons_self
  obtain ⟨char, _, same⟩ := List.mem_map.mp backslash
  split at same
  · cases same
  · next other => exact other same

/-- Without a marker and a slash at the start, backslashes are read as slashes. -/
theorem resolveChars_withSlashes (given : isRooted reported = false)
    (plain : hasDrive (withoutMarker reported) = false) (unmarked : ¬ longPathMarker <+: reported)
    (root : List Char) :
    resolveChars (withSlashes reported) root = resolveChars reported root := by
  rw [withoutMarker_of_unmarked unmarked] at plain
  rw [resolveChars, resolveChars, withoutMarker_withSlashes, withSlashes_withSlashes,
    withoutMarker_of_unmarked unmarked, hasDrive_withSlashes, plain, Bool.or_false,
    Bool.or_false, given, if_neg Bool.false_ne_true, below]
  split <;> rfl

/-- **Resolved paths**: below a rooted directory, the path of a file is a normal path, and is
resolved to itself whatever the root is. Its names are those that the components of the root and
of a path that is not complete are settled to. Backslashes are read as slashes. -/
theorem resolve_normal {reported root : String} (rooted : isRooted root.toList)
    (plain : hasDrive (withoutMarker reported.toList) = false) :
    (∃ names, IsNormal (resolve reported root).toList names ∧
      (¬ IsComplete (withoutMarker reported.toList) →
        IsSettled (splitAt '/' root.toList ++
          splitAt '/' (withSlashes (withoutMarker reported.toList))) names)) ∧
    (∀ other, resolve (resolve reported root) other = resolve reported root) ∧
    (isRooted reported.toList = false → ¬ longPathMarker <+: reported.toList →
      ∀ other, resolve (String.ofList (withSlashes reported.toList)) other =
        resolve reported other) := by
  obtain ⟨path, slash, resolved, settled⟩ := exists_resolveChars rooted plain
  have shown : (resolve reported root).toList = normalPath path := by
    rw [resolve, String.toList_ofList, resolved]
  have normal : IsNormal (resolve reported root).toList
      (normalComponents true (splitAt '/' path)) := shown ▸ isNormal_normalPath slash
  refine ⟨⟨_, normal, settled⟩, ?_, ?_⟩
  · intro other
    apply String.toList_injective
    rw [resolve, String.toList_ofList, normal.resolveChars]
  · intro given unmarked other
    rw [resolve, resolve, String.toList_ofList, resolveChars_withSlashes given plain unmarked]

/-- A double dot behind backslashes leads out of the root. -/
theorem resolve_normal_up :
    resolve "src\\..\\..\\a.php" "//w/b" = "//w/a.php" ∧
      (∃ names, IsNormal "//w/a.php".toList names ∧
        IsSettled (splitAt '/' "//w/b".toList ++ splitAt '/' "src/../../a.php".toList) names) ∧
      (∀ other, resolve "//w/a.php" other = "//w/a.php") ∧
      ∀ other, resolve "src/../../a.php" other = resolve "src\\..\\..\\a.php" other := by
  have result : resolve "src\\..\\..\\a.php" "//w/b" = "//w/a.php" := by decide
  obtain ⟨⟨names, normal, settled⟩, fixed, slashes⟩ :=
    @resolve_normal "src\\..\\..\\a.php" "//w/b" (by decide) (by decide)
  have incomplete : ¬ IsComplete (withoutMarker "src\\..\\..\\a.php".toList) := by
    rw [← isRooted_withSlashes_iff]
    decide
  rw [result] at normal fixed
  exact ⟨result, ⟨names, normal, settled incomplete⟩, fixed, slashes (by decide) (by decide)⟩

end LintReport.SourcePath
