import LintReport.Json.Value

/-! # Parts of values

A value inside an object is looked up along a path of names, and what is no object has no names
(`Value.inside?`). What is found is told by its kind: an array, a string, or a string that is
not empty (`Value.IsFilled`). With strict values for the floating-point numbers inside it a value
is strict (`Value.isStrict_withNumbers`), and a strict value stays as it is if the numbers that
plain JSON can write stay as they are (`Value.withNumbers_of_isStrict`). -/

namespace LintReport.Json.Value

/-! ## Paths of names -/

/-- The value at the end of a path of names through objects. -/
def inside? : List String → Value → Option Value
  | [], value => some value
  | name :: path, value => (value.get? name).bind (inside? path)

theorem inside?_singleton (name : String) (value : Value) :
    value.inside? [name] = value.get? name :=
  Option.bind_fun_some _

/-- A path of names leads out of what is no object, just as out of `null`. -/
theorem inside?_cons_cons (name next : String) (path : List String) (value : Value) :
    value.inside? (name :: next :: path) = (value.getD name).inside? (next :: path) := by
  rw [inside?, getD]
  cases value.get? name <;> rfl

/-! ## Values of one kind -/

variable {value : Value} {found : Option Value} {text : String} {items : List Value}

/-- Only an object has an entry. -/
theorem isObject_of_get? {name : String} {inner : Value} (there : value.get? name = some inner) :
    value.isObject := by
  cases value with
  | object entries => rfl
  | _ => cases there

theorem items?_eq_some_iff : value.items? = some items ↔ value = .array items := by
  cases value <;> simp [items?]

theorem string?_eq_some_iff : value.string? = some text ↔ value = .string text := by
  cases value <;> simp [string?]

/-- Only a string that is not empty is a filled text. -/
theorem filledString?_eq_some_iff :
    value.filledString? = some text ↔ value = .string text ∧ text ≠ "" := by
  cases value with
  | string inner =>
      rw [filledString?, Option.ite_none_left_eq_some, Option.some.injEq, string.injEq, and_comm]
      exact and_congr_right fun same => by rw [same]
  | _ => simp [filledString?]

theorem bind_items?_eq_some_iff : found.bind items? = some items ↔ found = some (.array items) := by
  simp only [Option.bind_eq_some_iff, items?_eq_some_iff, exists_eq_right]

theorem bind_string?_eq_some_iff :
    found.bind string? = some text ↔ found = some (.string text) := by
  simp only [Option.bind_eq_some_iff, string?_eq_some_iff, exists_eq_right]

/-- Whether a text that is not empty has been found. -/
def IsFilled (found : Option Value) (text : String) : Prop :=
  found = some (.string text) ∧ text ≠ ""

/-- A field gives a filled text exactly if it is filled with it. -/
theorem bind_filledString?_eq_some_iff :
    found.bind filledString? = some text ↔ IsFilled found text := by
  simp only [Option.bind_eq_some_iff, filledString?_eq_some_iff, IsFilled]
  constructor
  · rintro ⟨value, there, rfl, filled⟩
    exact ⟨there, filled⟩
  · rintro ⟨there, filled⟩
    exact ⟨_, there, rfl, filled⟩

theorem bind_filledString?_eq_none_iff :
    found.bind filledString? = none ↔ ∀ text, ¬ IsFilled found text := by
  simp only [Option.eq_none_iff_forall_ne_some, ne_eq, bind_filledString?_eq_some_iff]

/-! ## Strict values -/

variable {number : Binary64 → Value}

theorem itemsWithNumbers_eq_map (number : Binary64 → Value) (items : List Value) :
    itemsWithNumbers number items = items.map (withNumbers number) := by
  induction items with
  | nil => rfl
  | cons value rest ih => rw [itemsWithNumbers, ih, List.map_cons]

theorem entriesWithNumbers_eq_map (number : Binary64 → Value) (entries : List (String × Value)) :
    entriesWithNumbers number entries =
      entries.map fun entry => (entry.1, entry.2.withNumbers number) := by
  induction entries with
  | nil => rfl
  | cons entry rest ih => rw [entriesWithNumbers, ih, List.map_cons]

mutual

/-- Plain JSON can write what holds strict values for all floating-point numbers. -/
theorem isStrict_withNumbers (strict : ∀ value, (number value).isStrict) :
    (value : Value) → (value.withNumbers number).isStrict
  | .null => rfl
  | .bool _ => rfl
  | .int _ => rfl
  | .float value => strict value
  | .string _ => rfl
  | .array items => areStrict_itemsWithNumbers strict items
  | .object entries => entriesAreStrict_entriesWithNumbers strict entries

/-- Items become strict one by one. -/
theorem areStrict_itemsWithNumbers (strict : ∀ value, (number value).isStrict) :
    (items : List Value) → areStrict (itemsWithNumbers number items)
  | [] => rfl
  | value :: rest => by
      rw [itemsWithNumbers, areStrict, Bool.and_eq_true]
      exact ⟨isStrict_withNumbers strict value, areStrict_itemsWithNumbers strict rest⟩

/-- Entries become strict one by one. -/
theorem entriesAreStrict_entriesWithNumbers (strict : ∀ value, (number value).isStrict) :
    (entries : List (String × Value)) → entriesAreStrict (entriesWithNumbers number entries)
  | [] => rfl
  | (_, value) :: rest => by
      rw [entriesWithNumbers, entriesAreStrict, Bool.and_eq_true]
      exact ⟨isStrict_withNumbers strict value, entriesAreStrict_entriesWithNumbers strict rest⟩

end

mutual

/-- A strict value has no numbers to be changed if finite numbers are not. -/
theorem withNumbers_of_isStrict
    (finite : ∀ value : Binary64, value.isFinite → number value = .float value) :
    {value : Value} → value.isStrict → value.withNumbers number = value
  | .null, _ => rfl
  | .bool _, _ => rfl
  | .int _, _ => rfl
  | .float value, strict => finite value strict
  | .string _, _ => rfl
  | .array _, strict => congrArg array (itemsWithNumbers_of_areStrict finite strict)
  | .object _, strict => congrArg object (entriesWithNumbers_of_entriesAreStrict finite strict)

/-- Strict items are left as they are. -/
theorem itemsWithNumbers_of_areStrict
    (finite : ∀ value : Binary64, value.isFinite → number value = .float value) :
    {items : List Value} → areStrict items → itemsWithNumbers number items = items
  | [], _ => rfl
  | _ :: _, strict => by
      rw [areStrict, Bool.and_eq_true] at strict
      rw [itemsWithNumbers, withNumbers_of_isStrict finite strict.1,
        itemsWithNumbers_of_areStrict finite strict.2]

/-- Strict entries are left as they are. -/
theorem entriesWithNumbers_of_entriesAreStrict
    (finite : ∀ value : Binary64, value.isFinite → number value = .float value) :
    {entries : List (String × Value)} → entriesAreStrict entries →
      entriesWithNumbers number entries = entries
  | [], _ => rfl
  | (_, _) :: _, strict => by
      rw [entriesAreStrict, Bool.and_eq_true] at strict
      rw [entriesWithNumbers, withNumbers_of_isStrict finite strict.1,
        entriesWithNumbers_of_entriesAreStrict finite strict.2]

end

end LintReport.Json.Value
