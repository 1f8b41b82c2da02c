import LintReport.SourcePath
import LintReport.Proofs.Text.Pieces
import Mathlib.Logic.Relation

/-! # Settling the components of a path

What the components of a rooted path come to is told by steps that each take some away
(`Step`): an idle component goes, a double dot goes with the name right before it, and a double
dot with nothing before it goes alone. Steps taken in any order until only names are left come
to the same names, which are the components of the normal path (`isSettled_iff`). -/

namespace LintReport.SourcePath

open Text

/-! ## Kinds of components -/

/-- Whether a component leads nowhere. -/
def IsIdle (component : List Char) : Prop :=
  component = [] ∨ component = ['.']

/-- Whether a component is the name of something in a directory. -/
structure IsName (component : List Char) : Prop where
  filled : component ≠ []
  here : component ≠ ['.']
  up : component ≠ ['.', '.']

/-- A name is not idle. -/
theorem IsName.not_isIdle {component : List Char} (named : IsName component) :
    ¬ IsIdle component := by
  rintro (empty | dot)
  · exact named.filled empty
  · exact named.here dot

theorem keepComponent_of_isIdle {component : List Char} (idle : IsIdle component) (rooted : Bool)
    (kept : List (List Char)) : keepComponent rooted kept component = kept :=
  if_pos idle

theorem keepComponent_of_isName {component : List Char} (named : IsName component) (rooted : Bool)
    (kept : List (List Char)) : keepComponent rooted kept component = component :: kept := by
  unfold keepComponent
  exact (if_neg named.not_isIdle).trans (if_neg named.up)

/-- A double dot takes the name that was kept last away. -/
theorem keepComponent_up {name : List Char} (named : IsName name) (rooted : Bool)
    (kept : List (List Char)) : keepComponent rooted (name :: kept) ['.', '.'] = kept := by
  simp [keepComponent, named.up]

theorem keepComponent_root : keepComponent true [] ['.', '.'] = [] := by
  simp [keepComponent]

/-! ## Steps -/

/-- One step of settling the components of a rooted path. -/
inductive Step : List (List Char) → List (List Char) → Prop
  /-- An idle component goes. -/
  | drop (before after : List (List Char)) {component : List Char} (idle : IsIdle component) :
      Step (before ++ component :: after) (before ++ after)
  /-- A double dot goes with the name right before it. -/
  | cancel (before after : List (List Char)) {name : List Char} (named : IsName name) :
      Step (before ++ name :: ['.', '.'] :: after) (before ++ after)
  /-- A double dot at the root goes alone. -/
  | root (after : List (List Char)) : Step (['.', '.'] :: after) after

/-- Whether components come to some names in steps, after which there is none to take. -/
structure IsSettled (components names : List (List Char)) : Prop where
  steps : Relation.ReflTransGen Step components names
  named : ∀ name ∈ names, IsName name

/-- An idle component may as well be missing, also from a path that is not rooted. -/
theorem normalComponents_drop (rooted : Bool) (before after : List (List Char))
    {component : List Char} (idle : IsIdle component) :
    normalComponents rooted (before ++ component :: after) =
      normalComponents rooted (before ++ after) := by
  unfold normalComponents
  rw [List.foldl_append, List.foldl_append, List.foldl_cons, keepComponent_of_isIdle idle]

/-- Dropping an idle component or a name with the step up behind it leaves the normal components. -/
theorem normalComponents_of_step {before after : List (List Char)} (step : Step before after) :
    normalComponents true before = normalComponents true after := by
  cases step with
  | drop before after idle => exact normalComponents_drop true before after idle
  | cancel before after named =>
      unfold normalComponents
      rw [List.foldl_append, List.foldl_append, List.foldl_cons, List.foldl_cons,
        keepComponent_of_isName named, keepComponent_up named]
  | root after =>
      unfold normalComponents
      rw [List.foldl_cons, keepComponent_root]

/-- Any number of steps leaves the normal components. -/
theorem normalComponents_of_steps {before after : List (List Char)}
    (steps : Relation.ReflTransGen Step before after) :
    normalComponents true before = normalComponents true after := by
  induction steps with
  | refl => rfl
  | tail _ step ih => exact ih.trans (normalComponents_of_step step)

/-- Names alone are their own normal components. -/
theorem normalComponents_names {names : List (List Char)} (named : ∀ name ∈ names, IsName name)
    (rooted : Bool) : normalComponents rooted names = names := by
  have all : ∀ kept, names.foldl (keepComponent rooted) kept = names.reverse ++ kept := by
    induction names with
    | nil => exact fun kept => rfl
    | cons name names ih =>
        intro kept
        rw [List.foldl_cons, keepComponent_of_isName (named name List.mem_cons_self),
          ih (fun other member => named other (List.mem_cons_of_mem _ member)),
          List.reverse_cons, List.append_assoc, List.singleton_append]
  rw [normalComponents, all, List.append_nil, List.reverse_reverse]

/-! ## The names that are left -/

/-- What one component does to the names kept so far is at most one step. -/
theorem steps_keepComponent {kept : List (List Char)} (named : ∀ name ∈ kept, IsName name)
    (component : List Char) (after : List (List Char)) :
    (∀ name ∈ keepComponent true kept component, IsName name) ∧
      Relation.ReflTransGen Step (kept.reverse ++ component :: after)
        ((keepComponent true kept component).reverse ++ after) := by
  by_cases idle : IsIdle component
  · rw [keepComponent_of_isIdle idle]
    exact ⟨named, .single (.drop _ _ idle)⟩
  by_cases up : component = ['.', '.']
  · subst up
    cases kept with
    | nil =>
        rw [keepComponent_root]
        exact ⟨named, .single (.root after)⟩
    | cons name kept =>
        have last := named name List.mem_cons_self
        rw [keepComponent_up last, List.reverse_cons, List.append_assoc, List.singleton_append]
        exact ⟨fun other member => named other (List.mem_cons_of_mem _ member),
          .single (.cancel _ _ last)⟩
  · have name : IsName component := ⟨fun empty => idle (.inl empty), fun dot => idle (.inr dot), up⟩
    rw [keepComponent_of_isName name, List.reverse_cons, List.append_assoc, List.singleton_append]
    refine ⟨?_, .refl⟩
    intro other member
    rcases List.mem_cons.mp member with rfl | member
    · exact name
    · exact named other member

/-- Every path can be brought to its normal components step by step. -/
theorem isSettled_normalComponents (components : List (List Char)) :
    IsSettled components (normalComponents true components) := by
  have all : ∀ kept : List (List Char), (∀ name ∈ kept, IsName name) →
      IsSettled (kept.reverse ++ components)
        (components.foldl (keepComponent true) kept).reverse := by
    induction components with
    | nil =>
        intro kept named
        rw [List.append_nil]
        exact ⟨.refl, fun name member => named name (List.mem_reverse.mp member)⟩
    | cons component components ih =>
        intro kept named
        obtain ⟨still, steps⟩ := steps_keepComponent named component components
        obtain ⟨more, left⟩ := ih _ still
        exact ⟨steps.trans more, left⟩
  exact all [] (by simp)

/-- **Settled components**: whichever steps are taken, the names that are left in the end are the
components of the normal path. -/
theorem isSettled_iff {components names : List (List Char)} :
    IsSettled components names ↔ names = normalComponents true components := by
  constructor
  · rintro ⟨steps, named⟩
    rw [normalComponents_of_steps steps, normalComponents_names named]
  · rintro rfl
    exact isSettled_normalComponents components

/-- A step only drops components. -/
theorem Step.sublist {before after : List (List Char)} (step : Step before after) :
    List.Sublist after before := by
  cases step with
  | drop before after => exact (List.sublist_cons_self _ _).append_left before
  | cancel before after =>
      exact ((List.sublist_cons_self _ _).trans (List.sublist_cons_self _ _)).append_left before
  | root after => exact List.sublist_cons_self _ _

/-- Settling takes components away and changes none. -/
theorem IsSettled.sublist {components names : List (List Char)}
    (settled : IsSettled components names) : List.Sublist names components := by
  have steps := settled.steps
  clear settled
  induction steps with
  | refl => exact List.Sublist.refl _
  | tail _ step ih => exact step.sublist.trans ih

end LintReport.SourcePath
