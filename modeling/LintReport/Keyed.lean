/-! # Keyed entries

A list of values under names, in the order in which the names first came. It is
the shape of a JSON object, of a report grouped by file and of the collection of
diagnostics. Writing under a present name keeps its place (`put`, `extend`); a name
that was removed goes to the end when it comes back. -/

namespace LintReport

/-- Values under names, in the order in which the names first came. -/
abbrev Keyed (Value : Type) := List (String × Value)

namespace Keyed

variable {Value : Type}

/-- The names, in order. -/
def keys (entries : Keyed Value) : List String :=
  entries.map Prod.fst

/-- The value under a name. -/
def get? (name : String) : Keyed Value → Option Value
  | [] => none
  | (key, value) :: rest => if key = name then some value else get? name rest

/-- Whether a name is present. -/
def has (name : String) (entries : Keyed Value) : Bool :=
  (entries.get? name).isSome

/-- Writes a value under a name, in the place of the name if it is present and at
the end if it is not. -/
def put (name : String) (value : Value) : Keyed Value → Keyed Value
  | [] => [(name, value)]
  | (key, old) :: rest =>
      if key = name then (key, value) :: rest else (key, old) :: put name value rest

/-- Removes a name. -/
def erase (name : String) (entries : Keyed Value) : Keyed Value :=
  entries.filter fun entry => entry.1 ≠ name

/-- Writes the values one after another, so that the last one under a name stays and
the first one gives the place. -/
def ofPairs (pairs : List (String × Value)) : Keyed Value :=
  pairs.foldl (fun entries pair => entries.put pair.1 pair.2) []

/-- Adds items to the end of the list under a name. -/
def extend {Item : Type} (name : String) (items : List Item)
    (entries : Keyed (List Item)) : Keyed (List Item) :=
  entries.put name ((entries.get? name).getD [] ++ items)

/-- The number of items in all lists together. -/
def total {Item : Type} : Keyed (List Item) → Nat
  | [] => 0
  | (_, items) :: rest => items.length + total rest

/-- The items grouped under the names that a function gives them. -/
def group {Item : Type} (name : Item → String) (items : List Item) : Keyed (List Item) :=
  items.foldl (fun entries item => entries.extend (name item) [item]) []

@[simp]
theorem get?_put (name other : String) (value : Value) (entries : Keyed Value) :
    (entries.put name value).get? other =
      if name = other then some value else entries.get? other := by
  induction entries with
  | nil => simp [put, get?]
  | cons entry rest ih =>
      by_cases here : entry.1 = name
      · by_cases same : name = other <;> simp_all [put, get?]
      · by_cases same : name = other
        · subst same
          simp_all [put, get?]
        · by_cases found : entry.1 = other <;> simp_all [put, get?]

@[simp]
theorem get?_erase (name other : String) (entries : Keyed Value) :
    (entries.erase name).get? other = if name = other then none else entries.get? other := by
  induction entries with
  | nil => simp [erase, get?]
  | cons entry rest ih =>
      by_cases here : entry.1 = name
      · by_cases same : name = other <;> simp_all [erase, get?]
      · by_cases same : name = other
        · subst same
          simp_all [erase, get?]
        · by_cases found : entry.1 = other <;> simp_all [erase, get?]

end Keyed

end LintReport
