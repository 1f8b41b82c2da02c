import LintReport.Keyed
import LintReport.Number.Binary64
import LintReport.Number.Numeral

/-! # JSON values

The values that a JSON text denotes. Whole numbers are kept apart from
floating-point numbers, and the entries of an object keep their order. -/

namespace LintReport.Json

/-- The number of containers that may nest, in a text that is read as in one that is
written. -/
def maxDepth : Nat := 900

/-- A JSON value. -/
inductive Value where
  | null
  | bool (value : Bool)
  | int (value : Int)
  | float (value : Binary64)
  | string (value : String)
  | array (items : List Value)
  | object (entries : List (String × Value))

namespace Value

instance : Inhabited Value := ⟨.null⟩

/-- The entries of an object, none for any other value. -/
def entries : Value → Keyed Value
  | .object entries => entries
  | _ => []

/-- The value under a name of an object. -/
def get? (name : String) (value : Value) : Option Value :=
  value.entries.get? name

/-- The value under a name, `null` when there is none. -/
def getD (name : String) (value : Value) : Value :=
  (value.get? name).getD .null

/-- The items of an array. -/
def items? : Value → Option (List Value)
  | .array items => some items
  | _ => none

/-- The characters of a string. -/
def string? : Value → Option String
  | .string text => some text
  | _ => none

/-- A string that is not empty. -/
def filledString? : Value → Option String
  | .string text => if text = "" then none else some text
  | _ => none

/-- Whether a value is an object. -/
def isObject : Value → Bool
  | .object _ => true
  | _ => false

/-- A value is void when it says nothing: `null`, `false`, a zero, or an empty string,
array or object. -/
def isVoid : Value → Bool
  | .null => true
  | .bool value => !value
  | .int value => value == 0
  | .float value => value.isZero
  | .string text => text == ""
  | .array items => items.isEmpty
  | .object entries => entries.isEmpty

mutual

/-- A value is strict when every floating-point number inside is finite, so that plain
JSON can write it. -/
def isStrict : Value → Bool
  | .float value => value.isFinite
  | .array items => areStrict items
  | .object entries => entriesAreStrict entries
  | _ => true

/-- Whether all values of a list are strict. -/
def areStrict : List Value → Bool
  | [] => true
  | value :: rest => value.isStrict && areStrict rest

/-- Whether the values of all entries are strict. -/
def entriesAreStrict : List (String × Value) → Bool
  | [] => true
  | (_, value) :: rest => value.isStrict && entriesAreStrict rest

end

mutual

/-- The value with other values for the floating-point numbers inside it. -/
def withNumbers (number : Binary64 → Value) : Value → Value
  | .float value => number value
  | .array items => .array (itemsWithNumbers number items)
  | .object entries => .object (entriesWithNumbers number entries)
  | value => value

/-- The values of a list with other values for the floating-point numbers inside them. -/
def itemsWithNumbers (number : Binary64 → Value) : List Value → List Value
  | [] => []
  | value :: rest => value.withNumbers number :: itemsWithNumbers number rest

/-- The entries with other values for the floating-point numbers inside them. -/
def entriesWithNumbers (number : Binary64 → Value) :
    List (String × Value) → List (String × Value)
  | [] => []
  | (name, value) :: rest => (name, value.withNumbers number) :: entriesWithNumbers number rest

end

mutual

/-- The number of containers that nest in a value. -/
def depth : Value → Nat
  | .array items => depthOf items + 1
  | .object entries => depthOfEntries entries + 1
  | _ => 0

/-- The greatest depth of the values of a list. -/
def depthOf : List Value → Nat
  | [] => 0
  | value :: rest => max value.depth (depthOf rest)

/-- The greatest depth of the values of all entries. -/
def depthOfEntries : List (String × Value) → Nat
  | [] => 0
  | (_, value) :: rest => max value.depth (depthOfEntries rest)

end

mutual

/-- Whether no whole number inside a value has more digits than a numeral may have. -/
def isSpellable : Value → Bool
  | .int value => (Nat.toDigits 10 value.natAbs).length ≤ Numeral.maxDigits
  | .array items => areSpellable items
  | .object entries => entriesAreSpellable entries
  | _ => true

/-- Whether all values of a list are spellable. -/
def areSpellable : List Value → Bool
  | [] => true
  | value :: rest => value.isSpellable && areSpellable rest

/-- Whether the values of all entries are spellable. -/
def entriesAreSpellable : List (String × Value) → Bool
  | [] => true
  | (_, value) :: rest => value.isSpellable && entriesAreSpellable rest

end

mutual

/-- Two values are compared by their shape and their leaves. -/
def decideEq : (left right : Value) → Decidable (left = right)
  | .null, right => by
      cases right with
      | null => exact isTrue rfl
      | _ => exact isFalse Value.noConfusion
  | .bool left, right => by
      cases right with
      | bool right => exact decidable_of_iff (left = right) (by simp)
      | _ => exact isFalse Value.noConfusion
  | .int left, right => by
      cases right with
      | int right => exact decidable_of_iff (left = right) (by simp)
      | _ => exact isFalse Value.noConfusion
  | .float left, right => by
      cases right with
      | float right => exact decidable_of_iff (left = right) (by simp)
      | _ => exact isFalse Value.noConfusion
  | .string left, right => by
      cases right with
      | string right => exact decidable_of_iff (left = right) (by simp)
      | _ => exact isFalse Value.noConfusion
  | .array left, right => by
      cases right with
      | array right =>
          exact @decidable_of_iff _ (left = right) (by simp) (decideItemsEq left right)
      | _ => exact isFalse Value.noConfusion
  | .object left, right => by
      cases right with
      | object right =>
          exact @decidable_of_iff _ (left = right) (by simp) (decideEntriesEq left right)
      | _ => exact isFalse Value.noConfusion

/-- Two lists of values are compared item by item. -/
def decideItemsEq : (left right : List Value) → Decidable (left = right)
  | [], [] => isTrue rfl
  | [], _ :: _ => isFalse (by simp)
  | _ :: _, [] => isFalse (by simp)
  | left :: lefts, right :: rights =>
      have := decideEq left right
      have := decideItemsEq lefts rights
      decidable_of_iff (left = right ∧ lefts = rights) (by simp)

/-- Two lists of entries are compared entry by entry, names included. -/
def decideEntriesEq : (left right : List (String × Value)) → Decidable (left = right)
  | [], [] => isTrue rfl
  | [], _ :: _ => isFalse (by simp)
  | _ :: _, [] => isFalse (by simp)
  | (leftName, left) :: lefts, (rightName, right) :: rights =>
      have := decideEq left right
      have := decideEntriesEq lefts rights
      decidable_of_iff (leftName = rightName ∧ left = right ∧ lefts = rights)
        (by simp [and_assoc])

end

instance : DecidableEq Value := decideEq

end Value

end LintReport.Json
