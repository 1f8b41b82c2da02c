import LintReport.Proofs.Keyed.Pairs
import Mathlib.Data.List.Nodup

/-! # Grouped items

Grouping puts one item after another at the end of the list under its name. What comes
out is told without that order of work: the names in the order in which they first
came, and under each name its items in the order in which they came
(`Keyed.group_eq_tabulate`). So no item is lost, none comes twice, no name stands over an
empty list, and items after others extend what these have come to (`Keyed.group_append`). -/

namespace LintReport.Keyed

variable {Value Item : Type}

/-- Distinct names with the values that a function gives them. -/
def tabulate (names : List String) (value : String → Value) : Keyed Value :=
  names.map fun name => (name, value name)

/-- The names of items, each in the place where it first came. -/
def firstNames (name : Item → String) (items : List Item) : List String :=
  (items.map name).eraseDups

/-- The items under one name. -/
def under (name : Item → String) (items : List Item) (key : String) : List Item :=
  items.filter fun item => name item = key

@[simp]
theorem keys_tabulate (names : List String) (value : String → Value) :
    (tabulate names value).keys = names := by
  simp [tabulate, keys, Function.comp_def]

/-- Each name of a table gives its own value, and no other name gives one. -/
@[simp]
theorem get?_tabulate (names : List String) (value : String → Value) (name : String) :
    (tabulate names value).get? name = if name ∈ names then some (value name) else none := by
  induction names with
  | nil => rfl
  | cons first rest ih =>
      simp only [tabulate, List.map_cons, get?] at ih ⊢
      by_cases same : first = name
      · simp [same]
      · rw [if_neg same, ih]
        simp [Ne.symm same]

/-- Writing under a present name changes the function at that name only. -/
theorem put_tabulate_of_mem {names : List String} (distinct : names.Nodup) {name : String}
    (present : name ∈ names) (new : Value) (value : String → Value) :
    (tabulate names value).put name new =
      tabulate names fun other => if other = name then new else value other := by
  induction names with
  | nil => simp at present
  | cons first rest ih =>
      obtain ⟨absent, distinct⟩ := List.nodup_cons.mp distinct
      simp only [tabulate, List.map_cons, put] at ih ⊢
      by_cases same : first = name
      · subst same
        have kept : ∀ other ∈ rest, (other, if other = first then new else value other) =
            (other, value other) := by
          intro other member
          have different : other ≠ first := fun equal => absent (equal ▸ member)
          rw [if_neg different]
        simp only [if_true, List.map_congr_left kept]
      · have later : name ∈ rest := (List.mem_cons.mp present).resolve_left (Ne.symm same)
        rw [if_neg same, if_neg same, ih distinct later]

/-- A further item adds its name unless an earlier one has it. -/
theorem firstNames_concat (name : Item → String) (items : List Item) (item : Item) :
    firstNames name (items ++ [item]) =
      if name item ∈ firstNames name items then firstNames name items
      else firstNames name items ++ [name item] := by
  have again : [name item].removeAll (items.map name) =
      if name item ∈ items.map name then [] else [name item] := by
    by_cases present : name item ∈ items.map name <;>
      simp only [List.removeAll, List.filter_cons, List.elem_eq_mem, present, decide_true,
        decide_false, Bool.not_true, Bool.not_false, Bool.false_eq_true, if_true, if_false,
        List.filter_nil]
  simp only [firstNames, List.map_append, List.map_cons, List.map_nil, List.eraseDups_append,
    again, List.mem_eraseDups]
  split
  · simp
  · rfl

theorem mem_firstNames {name : Item → String} {items : List Item} {key : String} :
    key ∈ firstNames name items ↔ ∃ item ∈ items, name item = key := by
  simp [firstNames]

/-- Each name is first once. -/
theorem nodup_firstNames (name : Item → String) (items : List Item) :
    (firstNames name items).Nodup := by
  induction items using List.reverseRecOn with
  | nil => exact List.nodup_nil
  | append_singleton items item ih =>
      rw [firstNames_concat]
      split
      · exact ih
      · next absent =>
          refine List.nodup_append.mpr ⟨ih, List.nodup_singleton _, ?_⟩
          intro key present other single equal
          rw [List.mem_singleton.mp single] at equal
          exact absent (equal ▸ present)

/-- A further item goes last under its own name. -/
theorem under_concat (name : Item → String) (items : List Item) (item : Item) (key : String) :
    under name (items ++ [item]) key =
      if name item = key then under name items key ++ [item] else under name items key := by
  by_cases same : name item = key <;> simp [under, same]

/-- Grouping one item more extends the list under its name. -/
theorem group_concat (name : Item → String) (items : List Item) (item : Item) :
    group name (items ++ [item]) = (group name items).extend (name item) [item] := by
  simp [group]

/-- **What grouping gives.** The names in the order in which they first came, and under
each of them its items in the order in which they came. -/
theorem group_eq_tabulate (name : Item → String) (items : List Item) :
    group name items = tabulate (firstNames name items) (under name items) := by
  induction items using List.reverseRecOn with
  | nil => rfl
  | append_singleton items item ih =>
      rw [group_concat, ih, extend, get?_tabulate, firstNames_concat]
      -- under a known name the item ends the list there, under a new one it opens a list
      by_cases present : name item ∈ firstNames name items
      · rw [if_pos present, if_pos present, Option.getD_some,
          put_tabulate_of_mem (nodup_firstNames name items) present]
        congr 1
        funext key
        rw [under_concat]
        by_cases same : name item = key
        · simp [same]
        · simp [same, Ne.symm same]
      · rw [if_neg present, if_neg present, Option.getD_none, List.nil_append,
          put_of_notMem (by simpa using present)]
        have unchanged : ∀ key ∈ firstNames name items,
            (key, under name items key) = (key, under name (items ++ [item]) key) := by
          intro key member
          have different : name item ≠ key := fun equal => present (equal ▸ member)
          rw [under_concat, if_neg different]
        have fresh : under name (items ++ [item]) (name item) = [item] := by
          have none : under name items (name item) = [] := by
            apply List.filter_eq_nil_iff.mpr
            intro other member
            simpa using fun equal => present (mem_firstNames.mpr ⟨other, member, equal⟩)
          rw [under_concat, if_pos rfl, none, List.nil_append]
        simp [tabulate, List.map_congr_left unchanged, fresh]

/-- Under each name stand the items of that name, in order. -/
theorem get?_group (name : Item → String) (items : List Item) (key : String) :
    ((group name items).get? key).getD [] = under name items key := by
  rw [group_eq_tabulate, get?_tabulate]
  split
  · rfl
  · next absent =>
      symm
      apply List.filter_eq_nil_iff.mpr
      intro item member
      simpa using fun equal => absent (mem_firstNames.mpr ⟨item, member, equal⟩)

/-- An entry of grouped items is a name with all of its items, of which there is one. -/
theorem of_mem_group {name : Item → String} {items : List Item} {entry : String × List Item}
    (member : entry ∈ group name items) :
    entry.2 = under name items entry.1 ∧ entry.2 ≠ [] := by
  rw [group_eq_tabulate, tabulate, List.mem_map] at member
  obtain ⟨key, present, rfl⟩ := member
  obtain ⟨item, there, named⟩ := mem_firstNames.mp present
  exact ⟨rfl, List.ne_nil_of_mem (List.mem_filter.mpr ⟨there, by simpa using named⟩)⟩

theorem nodup_keys_group (name : Item → String) (items : List Item) :
    (group name items).keys.Nodup := by
  rw [group_eq_tabulate, keys_tabulate]
  exact nodup_firstNames name items

/-- Extending a list adds its new items and no others, wherever they go. -/
theorem flatMap_extend_perm (name : String) (items : List Item) (entries : Keyed (List Item)) :
    ((entries.extend name items).flatMap Prod.snd).Perm (entries.flatMap Prod.snd ++ items) := by
  induction entries with
  | nil => simp [extend, put, get?]
  | cons entry rest ih =>
      by_cases same : entry.1 = name
      · simp only [extend, get?, put, same, if_true, Option.getD_some, List.flatMap_cons,
          List.append_assoc]
        exact List.perm_append_comm.append_left entry.2
      · simp only [extend, get?, put, same, if_false, List.flatMap_cons, List.append_assoc] at ih ⊢
        exact ih.append_left entry.2

/-- Grouping neither loses an item nor makes one twice. -/
theorem flatMap_group_perm (name : Item → String) (items : List Item) :
    ((group name items).flatMap Prod.snd).Perm items := by
  induction items using List.reverseRecOn with
  | nil => exact List.Perm.nil
  | append_singleton items item ih =>
      rw [group_concat]
      exact (flatMap_extend_perm _ _ _).trans (ih.append_right [item])

/-- The total counts the items under all names. -/
theorem total_eq_length_flatMap (entries : Keyed (List Item)) :
    entries.total = (entries.flatMap Prod.snd).length := by
  induction entries with
  | nil => rfl
  | cons entry rest ih => simp [total, ih]

/-- Where no list is empty there are no more names than items. -/
theorem length_le_total {entries : Keyed (List Item)} (filled : ∀ entry ∈ entries, entry.2 ≠ []) :
    entries.length ≤ entries.total := by
  induction entries with
  | nil => exact Nat.le_refl 0
  | cons entry rest ih =>
      have first := List.length_pos_iff.mpr (filled entry List.mem_cons_self)
      have others := ih fun other member => filled other (List.mem_cons_of_mem _ member)
      rw [List.length_cons, total]
      omega

/-- Taking a name out makes no total larger. -/
theorem total_erase_le (name : String) (entries : Keyed (List Item)) :
    (entries.erase name).total ≤ entries.total := by
  induction entries with
  | nil => exact Nat.le_refl 0
  | cons entry rest ih =>
      unfold erase at ih ⊢
      rw [List.filter_cons, total]
      split
      · rw [total]
        omega
      · omega

/-- Grouping keeps the number of items. -/
theorem total_group (name : Item → String) (items : List Item) :
    (group name items).total = items.length := by
  rw [total_eq_length_flatMap]
  exact (flatMap_group_perm name items).length_eq

/-! ## One grouping after another -/

/-- Lists under names and more of them: the names that are new come last, and each name has
its first list and then its second. -/
def followedBy (first second : Keyed (List Item)) : Keyed (List Item) :=
  tabulate (first.keys ++ second.keys.filter (· ∉ first.keys)) fun name =>
    (first.get? name).getD [] ++ (second.get? name).getD []

/-- What stands under a name in the second lists is part of what stands under it after both. -/
theorem exists_mem_followedBy (first : Keyed (List Item)) {second : Keyed (List Item)}
    (distinct : second.keys.Nodup) {entry : String × List Item} (member : entry ∈ second) :
    ∃ after ∈ first.followedBy second, after.1 = entry.1 ∧ entry.2 ⊆ after.2 := by
  have named : entry.1 ∈ first.keys ++ second.keys.filter (· ∉ first.keys) := by
    by_cases early : entry.1 ∈ first.keys
    · exact List.mem_append_left _ early
    · have late : entry.1 ∈ second.keys := List.mem_map_of_mem member
      exact List.mem_append_right _ (List.mem_filter.mpr ⟨late, by simpa using early⟩)
  refine ⟨_, List.mem_map.mpr ⟨entry.1, named, rfl⟩, rfl, ?_⟩
  dsimp only
  rw [get?_of_mem distinct member, Option.getD_some]
  exact List.subset_append_right _ _

/-- Entries with distinct names are told by their names and by what stands under each. -/
theorem eq_tabulate {entries : Keyed (List Item)} (distinct : entries.keys.Nodup) :
    entries = tabulate entries.keys fun name => (entries.get? name).getD [] := by
  rw [tabulate, keys, List.map_map]
  refine (List.map_id entries).symm.trans (List.map_congr_left fun entry member => ?_)
  rw [Function.comp_apply, get?_of_mem distinct member, Option.getD_some, id]

/-- The names of later items that earlier ones do not have come behind the earlier names. -/
theorem firstNames_append (name : Item → String) (before after : List Item) :
    firstNames name (before ++ after) =
      firstNames name before ++
        (firstNames name after).filter (· ∉ firstNames name before) := by
  induction after using List.reverseRecOn with
  | nil => simp [firstNames]
  | append_singleton after item ih =>
      rw [← List.append_assoc, firstNames_concat, firstNames_concat, ih]
      by_cases early : name item ∈ firstNames name before
      · rw [if_pos (List.mem_append_left _ early)]
        split
        · rfl
        · simp [List.filter_append, early]
      · by_cases late : name item ∈ firstNames name after
        · rw [if_pos late, if_pos]
          exact List.mem_append_right _ (List.mem_filter.mpr ⟨late, by simpa using early⟩)
        · rw [if_neg late, if_neg]
          · simp [List.filter_append, early]
          · intro present
            rcases List.mem_append.mp present with inside | inside
            · exact early inside
            · exact late (List.mem_filter.mp inside).1

/-- Grouping items and then more items is grouping each of the two. -/
theorem group_append (name : Item → String) (before after : List Item) :
    group name (before ++ after) = (group name before).followedBy (group name after) := by
  have together : under name (before ++ after) = fun key =>
      ((group name before).get? key).getD [] ++ ((group name after).get? key).getD [] := by
    funext key
    rw [get?_group, get?_group, under, List.filter_append, under, under]
  rw [followedBy, ← together, group_eq_tabulate, firstNames_append, group_eq_tabulate name before,
    group_eq_tabulate name after, keys_tabulate, keys_tabulate]

end LintReport.Keyed
