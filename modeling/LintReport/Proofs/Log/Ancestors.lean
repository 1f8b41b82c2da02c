import LintReport.Log.Hierarchy
import LintReport.Proofs.Keyed.Pairs
import LintReport.Proofs.Text.Run
import Mathlib.Data.List.Infix
import Mathlib.Logic.Relation

/-! # Loggers below others

The loggers that are there form a forest below the root: the parent of a logger is the nearest of
its ancestors that is there (`IsParent`). The level from which on a logger lets records through is
that of the nearest logger on the way up to the root that has a level of its own, so it is lifted
to warnings for the quiet loggers, those with such a level and all below them, and it is the level
of the root for all others (`Hierarchy.threshold_eq`). A logger is only ever below others whose
names begin its own, and a name without two dots in a row puts it below all of these that are there
(`isQuiet_of_isPlain`). -/

namespace LintReport.Log

/-! ## Names of ancestors -/

/-- A part behind a dot is left when the text is cut at its first dot. -/
theorem suffix_dropWhile_dot {name tail : List Char} (suffix : '.' :: tail <:+ name) :
    '.' :: tail <:+ name.dropWhile (· ≠ '.') := by
  induction name with
  | nil => exact suffix
  | cons char name ih =>
      by_cases dot : char = '.'
      · rwa [List.dropWhile_cons_of_neg (by simpa using dot)]
      · rw [List.dropWhile_cons_of_pos (by simpa using dot)]
        rcases List.suffix_cons_iff.mp suffix with same | later
        · exact absurd (List.cons.inj same).1.symm dot
        · exact ih later

/-- What begins with a dot once the characters before the first dot are gone. -/
theorem head_of_dropWhile_dot {name rest : List Char} {char : Char}
    (cut : name.dropWhile (· ≠ '.') = char :: rest) : char = '.' := by
  have stops := Text.startsWithout_dropWhile (· ≠ '.') name
  rw [cut, Text.startsWithout_cons] at stops
  simpa using stops

/-- An ancestor of a name that is read backwards comes after a dot. -/
theorem suffix_of_mem_ancestorsBackwards {name ancestor : List Char}
    (member : ancestor ∈ ancestorsBackwards name) : ancestor ≠ [] ∧ '.' :: ancestor <:+ name := by
  fun_induction ancestorsBackwards name with
  | case1 => simp at member
  | case2 => simp at member
  | case3 name dot last rest cut ih =>
      have suffix : '.' :: last :: rest <:+ name :=
        head_of_dropWhile_dot cut ▸ cut ▸ List.dropWhile_suffix _
      rcases List.mem_cons.mp member with rfl | later
      · exact ⟨List.cons_ne_nil _ _, suffix⟩
      · obtain ⟨filled, below⟩ := ih later
        exact ⟨filled, below.trans (((List.suffix_cons last rest).trans
          (List.suffix_cons '.' _)).trans suffix)⟩

/-- In a name without two dots in a row, all that comes after a dot is an ancestor. -/
theorem mem_ancestorsBackwards {name ancestor : List Char} (plain : ¬ ['.', '.'] <:+: name)
    (filled : ancestor ≠ []) (suffix : '.' :: ancestor <:+ name) :
    ancestor ∈ ancestorsBackwards name := by
  fun_induction ancestorsBackwards name with
  | case1 name cut =>
      have inside := suffix_dropWhile_dot suffix
      rw [cut] at inside
      exact absurd (List.suffix_nil.mp inside) (List.cons_ne_nil _ _)
  | case2 name dot cut =>
      have short := (suffix_dropWhile_dot suffix).length_le
      rw [cut] at short
      exact absurd (List.length_eq_zero_iff.mp (by simpa using short)) filled
  | case3 name dot last rest cut ih =>
      have dots := head_of_dropWhile_dot cut
      subst dots
      have whole : '.' :: last :: rest <:+ name := cut ▸ List.dropWhile_suffix _
      have inside := cut ▸ suffix_dropWhile_dot suffix
      rcases List.suffix_cons_iff.mp inside with same | below
      · rw [(List.cons.inj same).2]
        exact List.mem_cons_self
      rcases List.suffix_cons_iff.mp below with same | below
      · refine absurd ?_ plain
        rw [← (List.cons.inj same).1] at whole
        exact List.IsInfix.trans (⟨[], rest, rfl⟩ : ['.', '.'] <:+: '.' :: '.' :: rest)
          whole.isInfix
      · refine List.mem_cons_of_mem _ (ih (fun doubled => plain ?_) below)
        exact doubled.trans (((List.suffix_cons last rest).trans
          (List.suffix_cons '.' _)).trans whole).isInfix

/-- Ancestors come nearest first, each shorter than the one before it. -/
theorem pairwise_ancestorsBackwards (name : List Char) :
    (ancestorsBackwards name).Pairwise fun nearer farther => farther.length < nearer.length := by
  fun_induction ancestorsBackwards name with
  | case1 => exact List.Pairwise.nil
  | case2 => exact List.Pairwise.nil
  | case3 name dot last rest cut ih =>
      refine List.pairwise_cons.mpr ⟨fun ancestor member => ?_, ih⟩
      have shorter := length_lt_of_mem_ancestorsBackwards member
      rw [List.length_cons]
      omega

/-- The name of an ancestor and a dot are the beginning of a name. -/
theorem isPrefix_of_mem_ancestors {name ancestor : List Char} (member : ancestor ∈ ancestors name) :
    ancestor ++ ['.'] <+: name := by
  obtain ⟨backwards, found, rfl⟩ := List.mem_map.mp member
  rw [← List.reverse_suffix, List.reverse_append, List.reverse_reverse]
  exact (suffix_of_mem_ancestorsBackwards found).2

/-- In a name without two dots in a row, all that comes before a dot is an ancestor. -/
theorem mem_ancestors {name ancestor : List Char} (plain : ¬ ['.', '.'] <:+: name)
    (filled : ancestor ≠ []) (isPrefix : ancestor ++ ['.'] <+: name) :
    ancestor ∈ ancestors name := by
  refine List.mem_map.mpr ⟨ancestor.reverse, ?_, List.reverse_reverse _⟩
  refine mem_ancestorsBackwards (fun doubled => plain ?_) (by simpa using filled) ?_
  · rwa [← List.reverse_infix]
  · rw [← List.reverse_prefix, List.reverse_reverse, List.reverse_cons, List.reverse_reverse]
    exact isPrefix

/-- The nearest ancestors come first. -/
theorem pairwise_ancestors (name : List Char) :
    (ancestors name).Pairwise fun nearer farther => farther.length < nearer.length := by
  refine List.pairwise_map.mpr ((pairwise_ancestorsBackwards name.reverse).imp ?_)
  intro nearer farther shorter
  rwa [List.length_reverse, List.length_reverse]

/-! ## Parents -/

/-- Whether a logger is the parent of another one: the nearest of its ancestors among the loggers
that are there. -/
inductive IsParent (there : Set String) : String → String → Prop
  | nearest {parent name : String} {nearer farther : List (List Char)}
      (above : ancestors name.toList = nearer ++ parent.toList :: farther)
      (known : parent ∈ there) (closer : ∀ other ∈ nearer, String.ofList other ∉ there) :
      IsParent there parent name

/-- Whether a logger is another one or below it. -/
def IsWithin (there : Set String) : String → String → Prop :=
  Relation.ReflTransGen (IsParent there)

/-- Whether a logger has a level of its own or is below one that has. -/
def IsQuiet (there : Set String) (name : String) : Prop :=
  ∃ quiet ∈ ownLevels.keys, IsWithin there quiet name

variable {there : Set String} {parent name : String}

/-- The parent is the first ancestor that is there. -/
theorem isParent_iff [DecidablePred (· ∈ there)] :
    IsParent there parent name ↔
      (ancestors name.toList).find? (fun ancestor => String.ofList ancestor ∈ there) =
        some parent.toList := by
  rw [List.find?_eq_some_iff_append]
  simp only [String.ofList_toList, Bool.not_eq_true', decide_eq_true_eq, decide_eq_false_iff_not]
  constructor
  · rintro ⟨above, known, closer⟩
    exact ⟨known, _, _, above, closer⟩
  · rintro ⟨known, _, _, above, closer⟩
    exact ⟨above, known, closer⟩

/-- A logger with an ancestor that is there has a parent: this one or a nearer one. -/
theorem exists_isParent {outer : String} (known : outer ∈ there)
    (above : outer.toList ∈ ancestors name.toList) :
    ∃ parent, IsParent there parent name ∧
      (parent = outer ∨ outer.toList.length < parent.toList.length) := by
  classical
  cases found : (ancestors name.toList).find? (fun ancestor => String.ofList ancestor ∈ there) with
  | none =>
      have absent := List.find?_eq_none.mp found _ above
      rw [String.ofList_toList, decide_eq_true_eq] at absent
      exact absurd known absent
  | some nearest =>
      have isParent : IsParent there (String.ofList nearest) name := by
        rw [isParent_iff, String.toList_ofList]
        exact found
      refine ⟨_, isParent, ?_⟩
      obtain ⟨split, _, closer⟩ := isParent
      have ordered := pairwise_ancestors name.toList
      rw [split] at above ordered
      rcases List.mem_append.mp above with nearer | further
      · exact absurd (String.ofList_toList.symm ▸ known) (closer _ nearer)
      rcases List.mem_cons.mp further with same | further
      · exact .inl (String.toList_inj.mp same.symm)
      · exact .inr (List.rel_of_pairwise_cons (List.pairwise_append.mp ordered).2.1 further)

theorem IsParent.isPrefix (isParent : IsParent there parent name) :
    parent.toList ++ ['.'] <+: name.toList := by
  obtain ⟨above, _, _⟩ := isParent
  exact isPrefix_of_mem_ancestors (by simp [above])

/-- A logger with a level of its own is quiet, and that level is that of warnings. -/
theorem isQuiet_of_own {level : Level} (own : ownLevels.get? name = some level) :
    IsQuiet there name ∧ level = Level.warning := by
  have member := Keyed.mem_of_get? own
  refine ⟨⟨name, List.mem_map_of_mem member, .refl⟩, ?_⟩
  have all : ∀ entry ∈ ownLevels, entry.2 = Level.warning := by decide
  exact all _ member

/-- Without a level of its own a logger is quiet only if it has a quiet parent. -/
theorem IsQuiet.exists_parent (quiet : IsQuiet there name) (own : ownLevels.get? name = none) :
    ∃ parent, IsParent there parent name ∧ IsQuiet there parent := by
  obtain ⟨outer, listed, within⟩ := quiet
  rcases Relation.ReflTransGen.cases_tail within with same | ⟨parent, within, isParent⟩
  · exact absurd (same ▸ listed) (Keyed.get?_eq_none_iff.mp own)
  · exact ⟨parent, isParent, outer, listed, within⟩

/-- A logger is quiet if its parent is. -/
theorem IsParent.isQuiet (isParent : IsParent there parent name)
    (quiet : IsQuiet there parent) : IsQuiet there name := by
  obtain ⟨outer, listed, within⟩ := quiet
  exact ⟨outer, listed, within.tail isParent⟩

namespace Hierarchy

/-- The loggers that are there. -/
def loggers (hierarchy : Hierarchy) : Set String :=
  {logger | logger ∈ hierarchy.known}

theorem mem_loggers {hierarchy : Hierarchy} {logger : String} :
    logger ∈ hierarchy.loggers ↔ logger ∈ hierarchy.known :=
  Iff.rfl

instance (hierarchy : Hierarchy) : DecidablePred (· ∈ hierarchy.loggers) := fun logger =>
  inferInstanceAs (Decidable (logger ∈ hierarchy.known))

/-- The parent is the first ancestor that is known. -/
theorem isParent_loggers_iff (hierarchy : Hierarchy) :
    IsParent hierarchy.loggers parent name ↔
      (ancestors name.toList).find?
          (fun ancestor => hierarchy.known.contains (String.ofList ancestor)) =
        some parent.toList := by
  simp only [List.contains_eq_mem]
  exact isParent_iff

/-- The threshold of a logger whose name is given as a list. -/
theorem thresholdOf_eq (hierarchy : Hierarchy) (name : List Char) :
    (IsQuiet hierarchy.loggers (String.ofList name) →
        hierarchy.thresholdOf name = Level.warning) ∧
      (¬ IsQuiet hierarchy.loggers (String.ofList name) →
        hierarchy.thresholdOf name = hierarchy.root) := by
  fun_induction thresholdOf hierarchy name with
  | case1 name level own =>
      obtain ⟨quiet, same⟩ : IsQuiet hierarchy.loggers _ ∧ level = _ := isQuiet_of_own own
      exact ⟨fun _ => same, fun loud => absurd quiet loud⟩
  | case2 name own ancestor nearest ih =>
      have isParent : IsParent hierarchy.loggers (String.ofList ancestor) (String.ofList name) := by
        rw [isParent_loggers_iff, String.toList_ofList, String.toList_ofList]
        exact nearest
      refine ⟨fun quiet => ih.1 ?_, fun loud => ih.2 fun quiet => loud (isParent.isQuiet quiet)⟩
      obtain ⟨parent, other, quiet⟩ := quiet.exists_parent own
      rw [isParent_loggers_iff, String.toList_ofList, nearest, Option.some.injEq] at other
      rwa [other, String.ofList_toList]
  | case3 name own orphan =>
      refine ⟨fun quiet => ?_, fun _ => rfl⟩
      obtain ⟨parent, isParent, _⟩ := quiet.exists_parent own
      rw [isParent_loggers_iff, String.toList_ofList, orphan] at isParent
      cases isParent

open Classical in
/-- **Thresholds.** The quiet loggers let records through from warnings on, and all others from
the level of the root on. -/
theorem threshold_eq (hierarchy : Hierarchy) (logger : String) :
    hierarchy.threshold logger =
      if IsQuiet hierarchy.loggers logger then Level.warning else hierarchy.root := by
  have cases := hierarchy.thresholdOf_eq logger.toList
  rw [String.ofList_toList] at cases
  split
  · next quiet => exact cases.1 quiet
  · next loud => exact cases.2 loud

end Hierarchy

/-! ## Names below others -/

/-- Whether a name is that of a logger with a level of its own, or begins with such a name and a
dot. -/
def IsNested (name : String) : Prop :=
  ∃ quiet ∈ ownLevels.keys, name = quiet ∨ quiet.toList ++ ['.'] <+: name.toList

instance (name : String) : Decidable (IsNested name) :=
  List.decidableBEx _ ownLevels.keys

/-- Whether a name has no two dots in a row. -/
def IsPlain (name : String) : Prop :=
  ¬ ['.', '.'] <:+: name.toList

instance (name : String) : Decidable (IsPlain name) :=
  instDecidableNot

/-- The name of what is within a logger begins with that of the logger. -/
theorem IsWithin.starts {outer : String} (within : IsWithin there outer name) :
    name = outer ∨ outer.toList ++ ['.'] <+: name.toList := by
  induction within with
  | refl => exact .inl rfl
  | tail _ isParent ih =>
      right
      rcases ih with rfl | starts
      · exact isParent.isPrefix
      · exact (starts.trans (List.prefix_append _ _)).trans isParent.isPrefix

/-- A quiet logger is named within one of the noisy ones. -/
theorem IsQuiet.isNested (quiet : IsQuiet there name) : IsNested name := by
  obtain ⟨outer, listed, within⟩ := quiet
  exact ⟨outer, listed, within.starts⟩

/-- A logger whose name has no two dots in a row is below all loggers there whose names begin its
own. -/
theorem isWithin_of_isPlain {outer : String} (known : outer ∈ there) (filled : outer ≠ "")
    (plain : IsPlain name) (starts : outer.toList ++ ['.'] <+: name.toList) :
    IsWithin there outer name := by
  induction shorter : name.toList.length using Nat.strongRecOn generalizing name with
  | ind length ih =>
      have member := mem_ancestors plain (by simpa using filled) starts
      obtain ⟨parent, isParent, rfl | further⟩ := exists_isParent known member
      · exact .single isParent
      have starting := (List.prefix_append _ _).trans isParent.isPrefix
      have between := List.prefix_of_prefix_length_le starts starting
        (by rw [List.length_append, List.length_singleton]; exact further)
      have longer := isParent.isPrefix.length_le
      rw [List.length_append, List.length_singleton, shorter] at longer
      exact (ih _ longer (fun doubled => plain (doubled.trans starting.isInfix)) between rfl).tail
        isParent

/-- Once the noisy loggers are there, plain names within them are quiet. -/
theorem isQuiet_of_isPlain (known : ∀ quiet ∈ ownLevels.keys, quiet ∈ there)
    (plain : IsPlain name) (nested : IsNested name) : IsQuiet there name := by
  obtain ⟨outer, listed, rfl | starts⟩ := nested
  · exact ⟨_, listed, .refl⟩
  · have filled : ∀ quiet ∈ ownLevels.keys, quiet ≠ "" := by decide
    exact ⟨outer, listed, isWithin_of_isPlain (known _ listed) (filled _ listed) plain starts⟩

end LintReport.Log
