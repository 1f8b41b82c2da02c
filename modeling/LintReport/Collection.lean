import LintReport.Diagnostic

/-! # Collections of diagnostics

The diagnostics gathered so far, by file. A file is present only while it has
diagnostics; the files are listed in the order in which they last became present. -/

namespace LintReport

/-- The diagnostics gathered so far. -/
structure Collection where
  byFile : Keyed (List Diagnostic) := []
  deriving DecidableEq

namespace Collection

/-- The collection without any diagnostics. -/
def empty : Collection := {}

/-- The diagnostics of a file. -/
def get (collection : Collection) (file : String) : List Diagnostic :=
  (collection.byFile.get? file).getD []

/-- The files that have diagnostics. -/
def files (collection : Collection) : List String :=
  collection.byFile.keys

/-- Replaces the diagnostics of a file. -/
def set (collection : Collection) (file : String) (diagnostics : List Diagnostic) :
    Collection :=
  if diagnostics = [] then { byFile := collection.byFile.erase file }
  else { byFile := collection.byFile.put file diagnostics }

/-- Adds diagnostics to those of a file. -/
def merge (collection : Collection) (file : String) (diagnostics : List Diagnostic) :
    Collection :=
  if diagnostics = [] then collection
  else { byFile := collection.byFile.extend file diagnostics }

/-- Removes a file, and tells whether it was present. -/
def delete (collection : Collection) (file : String) : Bool × Collection :=
  (collection.byFile.has file, { byFile := collection.byFile.erase file })

/-- Adds the diagnostics of several files, one file after another. -/
def mergeAll (collection : Collection) (byFile : Keyed (List Diagnostic)) : Collection :=
  byFile.foldl (fun collection entry => collection.merge entry.1 entry.2) collection

/-- The number of diagnostics. -/
def total (collection : Collection) : Nat :=
  collection.byFile.total

@[simp]
theorem get_empty (file : String) : empty.get file = [] := rfl

@[simp]
theorem get_set (collection : Collection) (file other : String)
    (diagnostics : List Diagnostic) :
    (collection.set file diagnostics).get other =
      if file = other then diagnostics else collection.get other := by
  unfold set get
  split
  · next none =>
      subst none
      by_cases same : file = other <;> simp [same]
  · by_cases same : file = other <;> simp [same]

@[simp]
theorem get_merge (collection : Collection) (file other : String)
    (diagnostics : List Diagnostic) :
    (collection.merge file diagnostics).get other =
      if file = other then collection.get file ++ diagnostics else collection.get other := by
  unfold merge get
  split
  · next none =>
      subst none
      by_cases same : file = other <;> simp [same]
  · by_cases same : file = other <;> simp [Keyed.extend, same]

@[simp]
theorem get_delete (collection : Collection) (file other : String) :
    (collection.delete file).2.get other = if file = other then [] else collection.get other := by
  unfold delete get
  by_cases same : file = other <;> simp [same]

end Collection

end LintReport
