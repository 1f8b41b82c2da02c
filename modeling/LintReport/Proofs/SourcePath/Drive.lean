import LintReport.Proofs.SourcePath.Resolve
import Mathlib.Data.List.Infix

/-! # Paths with a drive

The drive that a path starts with stands in its first component, and a double dot takes this
component away like any other name. So the path that is resolved starts with the drive as long as
no double dot leads back to where the path starts (`StaysInside`). One that does leaves nothing of
the drive, and the same path comes out for every letter (`resolve_drive`). -/

namespace LintReport.SourcePath

open Text

/-! ## Components that lead back -/

instance : DecidablePred IsName := fun component =>
  decidable_of_iff (component ≠ [] ∧ component ≠ ['.'] ∧ component ≠ ['.', '.'])
    ⟨fun ⟨filled, here, up⟩ => ⟨filled, here, up⟩,
      fun named => ⟨named.filled, named.here, named.up⟩⟩

/-- Whether components do not lead more than some steps above where they start: wherever they
are broken off, there are at most so many more double dots than names. -/
def StaysWithin (depth : Nat) (components : List (List Char)) : Prop :=
  ∀ before, before <+: components → before.count ['.', '.'] ≤ depth + before.countP IsName

/-- Whether components do not lead back to where they start: wherever they are broken off, there
are fewer double dots than names. -/
def StaysInside (components : List (List Char)) : Prop :=
  ∀ before, before <+: components → before ≠ [] → before.count ['.', '.'] < before.countP IsName

instance (components : List (List Char)) : Decidable (StaysInside components) :=
  decidable_of_iff (∀ before ∈ components.inits, before ≠ [] →
    before.count ['.', '.'] < before.countP IsName) (by simp only [List.mem_inits, StaysInside])

/-- A path stays within some depth if none of its beginnings climbs higher. -/
theorem staysWithin_cons {depth : Nat} {component : List Char} {rest : List (List Char)} :
    StaysWithin depth (component :: rest) ↔ ∀ before, before <+: rest →
      (component :: before).count ['.', '.'] ≤ depth + (component :: before).countP IsName := by
  constructor
  · exact fun stays before inside => stays _ (List.cons_prefix_cons.mpr ⟨rfl, inside⟩)
  · intro stays before inside
    rcases List.prefix_cons_iff.mp inside with rfl | ⟨others, rfl, within⟩
    · exact Nat.zero_le _
    · exact stays others within

variable {depth : Nat} {name : List Char} {rest : List (List Char)}

/-- An idle component changes nothing about how high a path climbs. -/
theorem staysWithin_idle {component : List Char} (idle : IsIdle component) :
    StaysWithin depth (component :: rest) ↔ StaysWithin depth rest := by
  have notUp : component ≠ ['.', '.'] := by
    rcases idle with rfl | rfl <;> decide
  have notName : ¬ IsName component := fun named => named.not_isIdle idle
  rw [staysWithin_cons]
  simp only [List.count_cons_of_ne notUp, List.countP_cons, notName, decide_false,
    Bool.false_eq_true, if_false, Nat.add_zero, StaysWithin]

/-- A name gives room for one step up more. -/
theorem staysWithin_name (named : IsName name) :
    StaysWithin depth (name :: rest) ↔ StaysWithin (depth + 1) rest := by
  rw [staysWithin_cons]
  simp only [List.count_cons_of_ne named.up, List.countP_cons, named, decide_true, if_true,
    StaysWithin, ← Nat.add_assoc, Nat.add_right_comm depth 1]

/-- A step up takes room for one. -/
theorem staysWithin_up :
    StaysWithin (depth + 1) (['.', '.'] :: rest) ↔ StaysWithin depth rest := by
  have notName : ¬ IsName ['.', '.'] := fun named => named.up rfl
  rw [staysWithin_cons]
  simp only [List.count_cons_self, List.countP_cons, notName, decide_false, Bool.false_eq_true,
    if_false, Nat.add_zero, StaysWithin, Nat.add_right_comm depth 1, Nat.add_le_add_iff_right]

/-- Without room no step up stays within. -/
theorem not_staysWithin_up : ¬ StaysWithin 0 (['.', '.'] :: rest) := by
  intro stays
  have first := stays [['.', '.']] ⟨rest, rfl⟩
  exact absurd first (by decide)

/-- What starts with a name does not lead back as long as the rest does not lead above it. -/
theorem staysInside_cons (named : IsName name) :
    StaysInside (name :: rest) ↔ StaysWithin 0 rest := by
  constructor
  · intro stays before inside
    have whole := stays (name :: before) (List.cons_prefix_cons.mpr ⟨rfl, inside⟩)
      (List.cons_ne_nil _ _)
    simp only [List.count_cons_of_ne named.up, List.countP_cons, named, decide_true, if_true]
      at whole
    omega
  · intro stays before inside filled
    rcases List.prefix_cons_iff.mp inside with rfl | ⟨others, rfl, within⟩
    · exact absurd rfl filled
    · have few := stays others within
      simp only [List.count_cons_of_ne named.up, List.countP_cons, named, decide_true, if_true]
      omega

/-! ## What becomes of the first name -/

/-- As long as nothing leads above a name, it stays below the others as a root would. -/
theorem foldl_of_staysWithin {components kept : List (List Char)}
    (named : ∀ name ∈ kept, IsName name)
    (stays : StaysWithin kept.length components) (first : List Char) :
    components.foldl (keepComponent false) (kept ++ [first]) =
      components.foldl (keepComponent true) kept ++ [first] := by
  induction components generalizing kept with
  | nil => rfl
  | cons component components ih =>
      rw [List.foldl_cons, List.foldl_cons]
      by_cases idle : IsIdle component
      · rw [keepComponent_of_isIdle idle, keepComponent_of_isIdle idle]
        exact ih named ((staysWithin_idle idle).mp stays)
      by_cases up : component = ['.', '.']
      · subst up
        cases kept with
        | nil => exact absurd stays not_staysWithin_up
        | cons name kept =>
            obtain ⟨last, named⟩ := List.forall_mem_cons.mp named
            rw [List.cons_append, keepComponent_up last, keepComponent_up last]
            exact ih named (staysWithin_up.mp stays)
      · have name : IsName component :=
          ⟨fun empty => idle (.inl empty), fun dot => idle (.inr dot), up⟩
        rw [keepComponent_of_isName name, keepComponent_of_isName name, ← List.cons_append]
        exact ih (List.forall_mem_cons.mpr ⟨name, named⟩) ((staysWithin_name name).mp stays)

/-- Once something leads above a name, nothing is left of it, so it may have been any other. -/
theorem foldl_of_not_staysWithin {components kept : List (List Char)}
    (named : ∀ name ∈ kept, IsName name) (climbs : ¬ StaysWithin kept.length components)
    {first other : List Char} (one : IsName first) (another : IsName other) :
    components.foldl (keepComponent false) (kept ++ [first]) =
      components.foldl (keepComponent false) (kept ++ [other]) := by
  induction components generalizing kept with
  | nil => exact absurd (fun before inside => by simp [List.prefix_nil.mp inside]) climbs
  | cons component components ih =>
      rw [List.foldl_cons, List.foldl_cons]
      by_cases idle : IsIdle component
      · rw [keepComponent_of_isIdle idle, keepComponent_of_isIdle idle]
        exact ih named (mt (staysWithin_idle idle).mpr climbs)
      by_cases up : component = ['.', '.']
      · subst up
        cases kept with
        | nil =>
            rw [List.nil_append, List.nil_append, keepComponent_up one, keepComponent_up another]
        | cons name kept =>
            obtain ⟨last, named⟩ := List.forall_mem_cons.mp named
            rw [List.cons_append, List.cons_append, keepComponent_up last, keepComponent_up last]
            exact ih named (mt staysWithin_up.mpr climbs)
      · have name : IsName component :=
          ⟨fun empty => idle (.inl empty), fun dot => idle (.inr dot), up⟩
        rw [keepComponent_of_isName name, keepComponent_of_isName name, ← List.cons_append,
          ← List.cons_append]
        exact ih (List.forall_mem_cons.mpr ⟨name, named⟩) (mt (staysWithin_name name).mpr climbs)

/-- As long as the rest stays inside, its first name is kept. -/
theorem normalComponents_of_staysInside (named : IsName name) (stays : StaysInside (name :: rest)) :
    normalComponents false (name :: rest) = name :: normalComponents true rest := by
  have within : StaysWithin ([] : List (List Char)).length rest := (staysInside_cons named).mp stays
  have kept := foldl_of_staysWithin (by simp) within name
  rw [List.nil_append] at kept
  rw [normalComponents, List.foldl_cons, keepComponent_of_isName named, kept, List.reverse_append,
    List.reverse_singleton, List.singleton_append, normalComponents]

/-- Once the rest climbs out, its first name makes no difference. -/
theorem normalComponents_of_not_staysInside (named : IsName name)
    (climbs : ¬ StaysInside (name :: rest)) {other : List Char} (another : IsName other) :
    normalComponents false (name :: rest) = normalComponents false (other :: rest) := by
  have above : ¬ StaysWithin ([] : List (List Char)).length rest :=
    mt (staysInside_cons named).mpr climbs
  have lost := foldl_of_not_staysWithin (by simp) above named another
  rw [List.nil_append, List.nil_append] at lost
  rw [normalComponents, normalComponents, List.foldl_cons, List.foldl_cons,
    keepComponent_of_isName named, keepComponent_of_isName another, lost]

/-! ## Drives -/

/-- Whether a path is a letter of ASCII and a colon with something after them. -/
structure StartsWithDrive (letter : Char) (rest path : List Char) : Prop where
  written : path = letter :: ':' :: rest
  alpha : letter.isAlpha

/-- A path has a drive exactly if it starts with a letter and a colon. -/
theorem hasDrive_iff {path : List Char} :
    hasDrive path ↔ ∃ letter rest, StartsWithDrive letter rest path := by
  unfold hasDrive
  split
  · next letter rest =>
      constructor
      · exact fun alpha => ⟨letter, rest, rfl, alpha⟩
      · rintro ⟨_, _, same, alpha⟩
        exact (List.cons.inj same).1 ▸ alpha
  · next other =>
      constructor
      · intro drive
        cases drive
      · rintro ⟨letter, rest, rfl, _⟩
        exact absurd rfl (other letter rest)

/-- The path that components come to which are not rooted. -/
def relativePath (components : List (List Char)) : List Char :=
  match join ['/'] (normalComponents false components) with
  | [] => ['.']
  | shown => shown

namespace StartsWithDrive

variable {letter other : Char} {path another root : List Char} {rest : List Char}

theorem hasDrive (drive : StartsWithDrive letter rest path) : hasDrive path :=
  hasDrive_iff.mpr ⟨letter, rest, drive⟩

/-- A path that starts with a drive is not rooted, so it is normalized as a relative one. -/
theorem normalize (drive : StartsWithDrive letter rest path) :
    normalize path = relativePath (splitAt '/' path) := by
  obtain ⟨rfl, alpha⟩ := drive
  have noSlash : letter ≠ '/' := by
    rintro rfl
    cases alpha
  have slashes : leadingSlashes (letter :: ':' :: rest) = [] := by
    simp [leadingSlashes, noSlash]
  simp only [SourcePath.normalize, isRooted, List.head?_cons, slashes, List.nil_append,
    beq_eq_false_iff_ne.mpr fun same => noSlash (Option.some.inj same)]
  rfl

/-- The drive stands in the first component, and the components after it are the same for every
letter. -/
theorem exists_splitAt (rest : List Char) : ∃ first others, ∀ {letter path},
    StartsWithDrive letter rest path →
      splitAt '/' path = (letter :: ':' :: first) :: others ∧ IsName (letter :: ':' :: first) := by
  obtain ⟨first, others, pieces⟩ := List.exists_cons_of_ne_nil (splitAt_ne_nil '/' rest)
  refine ⟨first, others, ?_⟩
  rintro letter path ⟨rfl, alpha⟩
  have noSlash : letter ≠ '/' := by
    rintro rfl
    cases alpha
  refine ⟨?_, by simp, by simp, by simp⟩
  rw [splitAt, if_neg noSlash, splitAt, if_neg (by decide), pieces]

/-- What is made from a path with a drive starts with the drive if nothing leads back to it. -/
theorem isPrefix (drive : StartsWithDrive letter rest path) {more : List (List Char)}
    (stays : StaysInside (splitAt '/' path ++ more)) :
    [letter, ':'] <+: relativePath (splitAt '/' path ++ more) := by
  obtain ⟨first, others, pieces⟩ := exists_splitAt rest
  obtain ⟨pieces, named⟩ := pieces drive
  rw [pieces, List.cons_append] at stays ⊢
  have starts : ∃ after, join ['/'] ((letter :: ':' :: first) ::
      normalComponents true (others ++ more)) = letter :: ':' :: after := by
    by_cases none : normalComponents true (others ++ more) = []
    · exact ⟨first, by rw [none, join]⟩
    · exact ⟨_, join_cons none _ _⟩
  obtain ⟨after, written⟩ := starts
  rw [relativePath, normalComponents_of_staysInside named stays, written]
  exact List.prefix_append [letter, ':'] _

/-- What is made from a path with a drive is the same for every drive if something leads back. -/
theorem relativePath_eq (drive : StartsWithDrive letter rest path)
    (drive' : StartsWithDrive other rest another) {more : List (List Char)}
    (climbs : ¬ StaysInside (splitAt '/' path ++ more)) :
    relativePath (splitAt '/' another ++ more) = relativePath (splitAt '/' path ++ more) := by
  obtain ⟨first, others, pieces⟩ := exists_splitAt rest
  obtain ⟨here, named⟩ := pieces drive
  obtain ⟨there, named'⟩ := pieces drive'
  rw [here, List.cons_append] at climbs
  rw [relativePath, relativePath, here, there, List.cons_append, List.cons_append,
    normalComponents_of_not_staysInside named climbs named']

end StartsWithDrive

/-! ## Resolved paths -/

variable {letter : Char} {reported root : List Char}

/-- A path with a drive is resolved as a relative one, whatever the root is. -/
theorem resolveChars_of_drive {rest : List Char}
    (drive : StartsWithDrive letter rest (withoutMarker reported)) (root : List Char) :
    resolveChars reported root = relativePath (splitAt '/' (withoutMarker reported) ++ []) := by
  rw [resolveChars, hasDrive_withSlashes, drive.hasDrive, Bool.or_true, if_pos rfl,
    drive.normalize, List.append_nil]

/-- Whether a path is complete neither by a slash or backslash nor by a drive. -/
def IsRelative (path : List Char) : Prop :=
  ¬ IsComplete path ∧ hasDrive path = false

instance (path : List Char) : Decidable (IsRelative path) :=
  inferInstanceAs (Decidable (¬ (_ ∨ _) ∧ _))

/-- Below a root with a drive so is a relative path. -/
theorem resolveChars_of_relative {rest : List Char} (drive : StartsWithDrive letter rest root)
    (relative : IsRelative (withoutMarker reported)) :
    resolveChars reported root = relativePath
      (splitAt '/' root ++ splitAt '/' (withSlashes (withoutMarker reported))) := by
  obtain ⟨incomplete, plain⟩ := relative
  have given := isRooted_withSlashes incomplete
  have unrooted : isRooted (withoutMarker reported) = false :=
    Bool.eq_false_iff.mpr fun rooted => incomplete (isComplete_of_isRooted rooted)
  have below : ∃ more, StartsWithDrive letter more
      (below root (withSlashes (withoutMarker reported))) := by
    obtain ⟨rfl, alpha⟩ := drive
    rw [below, given, if_neg Bool.false_ne_true]
    split
    · exact ⟨_, rfl, alpha⟩
    · exact ⟨_, rfl, alpha⟩
  obtain ⟨more, below⟩ := below
  rw [resolveChars, hasDrive_withSlashes, plain, unrooted, Bool.or_false,
    if_neg Bool.false_ne_true, below.normalize, relativePath, relativePath,
    normalComponents_below false given]

/-- **Paths with a drive**: a path with a drive does not depend on the root, and a relative path is
resolved below a root with a drive. Either way the result starts with the drive if the components
do not lead back to where the path starts. If they do, the result is the same for every drive. -/
theorem resolve_drive (reported root : String) :
    (∀ letter rest, StartsWithDrive letter rest (withoutMarker reported.toList) →
      (∀ other, resolve reported other = resolve reported root) ∧
      (StaysInside (splitAt '/' (withoutMarker reported.toList)) →
        [letter, ':'] <+: (resolve reported root).toList) ∧
      (¬ StaysInside (splitAt '/' (withoutMarker reported.toList)) →
        ∀ another given, StartsWithDrive another rest (withoutMarker given.toList) →
          resolve given root = resolve reported root)) ∧
    (∀ letter rest, StartsWithDrive letter rest root.toList →
      IsRelative (withoutMarker reported.toList) →
      (StaysInside (splitAt '/' root.toList ++
          splitAt '/' (withSlashes (withoutMarker reported.toList))) →
        [letter, ':'] <+: (resolve reported root).toList) ∧
      (¬ StaysInside (splitAt '/' root.toList ++
          splitAt '/' (withSlashes (withoutMarker reported.toList))) →
        ∀ another other, StartsWithDrive another rest other.toList →
          resolve reported other = resolve reported root)) := by
  constructor
  · intro letter rest drive
    simp only [resolve, String.toList_ofList, resolveChars_of_drive drive]
    refine ⟨fun _ => trivial, fun stays => drive.isPrefix (by rwa [List.append_nil]), ?_⟩
    intro climbs another given drive'
    rw [resolveChars_of_drive drive', drive.relativePath_eq drive' (by rwa [List.append_nil])]
  · intro letter rest drive relative
    simp only [resolve, String.toList_ofList, resolveChars_of_relative drive relative]
    refine ⟨drive.isPrefix, ?_⟩
    intro climbs another other drive'
    rw [resolveChars_of_relative drive' relative, drive.relativePath_eq drive' climbs]

/-- Double dots that take names after the drive away leave the drive alone. -/
theorem resolve_drive_kept :
    (StartsWithDrive 'C' "/a/../b.php".toList (withoutMarker "\\\\?\\C:/a/../b.php".toList) ∧
      StaysInside (splitAt '/' (withoutMarker "\\\\?\\C:/a/../b.php".toList)) ∧
      ['C', ':'] <+: (resolve "\\\\?\\C:/a/../b.php" "/w").toList) ∧
    StartsWithDrive 'D' "\\w/x".toList "D:\\w/x".toList ∧
      IsRelative (withoutMarker "..\\b.php".toList) ∧
      StaysInside (splitAt '/' "D:\\w/x".toList ++
        splitAt '/' (withSlashes (withoutMarker "..\\b.php".toList))) ∧
      ['D', ':'] <+: (resolve "..\\b.php" "D:\\w/x").toList := by
  have given : StartsWithDrive 'C' "/a/../b.php".toList
      (withoutMarker "\\\\?\\C:/a/../b.php".toList) := ⟨by decide, by decide⟩
  have root : StartsWithDrive 'D' "\\w/x".toList "D:\\w/x".toList := ⟨by decide, by decide⟩
  have relative : IsRelative (withoutMarker "..\\b.php".toList) := by decide
  have complete := ((resolve_drive "\\\\?\\C:/a/../b.php" "/w").1 _ _ given).2.1 (by decide)
  have below := ((resolve_drive "..\\b.php" "D:\\w/x").2 _ _ root relative).1 (by decide)
  exact ⟨⟨given, by decide, complete⟩, root, relative, by decide, below⟩

/-- A double dot right after the drive takes it away, in a path and in a root, and leaves a path
that is not complete. -/
theorem resolve_drive_lost :
    (StartsWithDrive 'C' "/../a.php".toList (withoutMarker "C:/../a.php".toList) ∧
      ¬ StaysInside (splitAt '/' (withoutMarker "C:/../a.php".toList)) ∧
      resolve "C:/../a.php" "/w" = "a.php") ∧
    (StartsWithDrive 'C' "/w".toList "C:/w".toList ∧
      IsRelative (withoutMarker "../../a.php".toList) ∧
      ¬ StaysInside (splitAt '/' "C:/w".toList ++
        splitAt '/' (withSlashes (withoutMarker "../../a.php".toList))) ∧
      resolve "../../a.php" "C:/w" = "a.php") ∧
    IsRelative "a.php".toList := by
  refine ⟨⟨⟨?_, ?_⟩, ?_, ?_⟩, ⟨⟨?_, ?_⟩, ?_, ?_, ?_⟩, ?_⟩ <;> decide

end LintReport.SourcePath
