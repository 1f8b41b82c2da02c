import LintReport.Log.Level
import LintReport.Log.Record

/-! # The hierarchy of loggers

Which records are let through, and where they are told. Loggers form a hierarchy by the dots of
their names: the parent of a logger is the nearest of its ancestors that is already there, and a
logger without a level of its own has the level of its parent, the root's in the end
(`Hierarchy.threshold`). A logger is there once it has been written to. What has been
decided for a logger and a level stands, even if a nearer parent turns up later
(`Hierarchy.consult`). Setting a log up leaves it with a single outlet and gives the root the
level that the setting names (`Logging.setUp`). -/

namespace LintReport.Log

/-! ## Loggers -/

/-- The names of the ancestors of a logger below the root, for a name that is read
backwards. A name is cut off at its dots, but a dot right before the last cut is passed
over. -/
def ancestorsBackwards (name : List Char) : List (List Char) :=
  match _cut : name.dropWhile (· ≠ '.') with
  | [] => []
  | [_] => []
  | _ :: last :: rest => (last :: rest) :: ancestorsBackwards rest
termination_by name.length
decreasing_by
  have shorter := (List.dropWhile_suffix (l := name) (· ≠ '.')).length_le
  simp only [_cut, List.length_cons] at shorter
  omega

/-- The names of the ancestors of a logger below the root, the nearest one first. -/
def ancestors (name : List Char) : List (List Char) :=
  (ancestorsBackwards name.reverse).map List.reverse

/-- An ancestor of a name that is read backwards is shorter than the name. -/
theorem length_lt_of_mem_ancestorsBackwards {name ancestor : List Char}
    (member : ancestor ∈ ancestorsBackwards name) : ancestor.length < name.length := by
  fun_induction ancestorsBackwards name with
  | case1 => simp at member
  | case2 => simp at member
  | case3 name _ last rest cut ih =>
      have shorter := (List.dropWhile_suffix (l := name) (· ≠ '.')).length_le
      simp only [cut, List.length_cons] at shorter
      rcases List.mem_cons.mp member with same | later
      · subst same
        simp only [List.length_cons]
        omega
      · have := ih later
        omega

/-- An ancestor of a logger has a shorter name. -/
theorem length_lt_of_mem_ancestors {name ancestor : List Char}
    (member : ancestor ∈ ancestors name) : ancestor.length < name.length := by
  obtain ⟨backwards, found, rfl⟩ := List.mem_map.mp member
  simpa using length_lt_of_mem_ancestorsBackwards found

/-- The loggers with a level of their own. -/
def ownLevels : Keyed Level :=
  [("uvicorn.access", Level.warning), ("httpcore", Level.warning), ("httpx", Level.warning)]

/-- A decision whether a logger lets a level through. -/
structure Decision where
  logger : String
  level : Level
  allowed : Bool
  deriving DecidableEq, Repr

/-- The loggers that are there, and what has been decided for them. -/
structure Hierarchy where
  /-- The level of the root. -/
  root : Level
  known : List String := ownLevels.keys
  decisions : List Decision := []
  deriving DecidableEq, Repr

namespace Hierarchy

/-- The level from which on records of a logger are let through. -/
def thresholdOf (hierarchy : Hierarchy) (name : List Char) : Level :=
  match ownLevels.get? (String.ofList name) with
  | some level => level
  | none =>
      match _parent : (ancestors name).find? fun ancestor =>
          hierarchy.known.contains (String.ofList ancestor) with
      | some ancestor => hierarchy.thresholdOf ancestor
      | none => hierarchy.root
termination_by name.length
decreasing_by exact length_lt_of_mem_ancestors (List.mem_of_find?_eq_some _parent)

/-- The level from which on records of a logger are let through. -/
def threshold (hierarchy : Hierarchy) (logger : String) : Level :=
  hierarchy.thresholdOf logger.toList

/-- Whether records of a level pass a logger's threshold. Levels that are not positive
are below every threshold. -/
def passes (hierarchy : Hierarchy) (logger : String) (level : Level) : Bool :=
  0 < level && hierarchy.threshold logger ≤ level

/-- The hierarchy once a logger is there. -/
def meet (hierarchy : Hierarchy) (logger : String) : Hierarchy :=
  if hierarchy.known.contains logger then hierarchy
  else { hierarchy with known := logger :: hierarchy.known }

/-- What has been decided for a logger and a level. -/
def decided? (hierarchy : Hierarchy) (logger : String) (level : Level) : Option Bool :=
  (hierarchy.decisions.find? fun decision =>
    decision.logger = logger ∧ decision.level = level).map Decision.allowed

/-- Whether a logger lets a level through, and the hierarchy once that is decided. -/
def consult (hierarchy : Hierarchy) (logger : String) (level : Level) : Bool × Hierarchy :=
  let hierarchy := hierarchy.meet logger
  match hierarchy.decided? logger level with
  | some allowed => (allowed, hierarchy)
  | none =>
      let allowed := hierarchy.passes logger level
      (allowed, { hierarchy with decisions := ⟨logger, level, allowed⟩ :: hierarchy.decisions })

/-- The records that are let through when they are written one after another. -/
def letThrough (hierarchy : Hierarchy) : List Record → List Record
  | [] => []
  | record :: records =>
      let (allowed, hierarchy) := hierarchy.consult record.logger record.level
      if allowed then record :: hierarchy.letThrough records else hierarchy.letThrough records

end Hierarchy

/-! ## Outlets

A log has some outlets, and each of them tells every record that the hierarchy of loggers lets
through. Setting it up replaces all outlets that it had before. -/

namespace Hierarchy

/-- The hierarchy once some loggers are there. -/
def meetAll (hierarchy : Hierarchy) (loggers : List String) : Hierarchy :=
  loggers.foldl meet hierarchy

/-- The hierarchy once the root has a level and the loggers with a level of their own are
there. With new levels nothing is decided any more. -/
def setLevels (hierarchy : Hierarchy) (root : Level) : Hierarchy :=
  { hierarchy with root, decisions := [] }.meetAll ownLevels.keys

end Hierarchy

/-- A log: its loggers, and the outlets that tell its records. At first it tells nothing. -/
structure Logging (Outlet : Type) where
  hierarchy : Hierarchy := { root := Level.warning, known := [] }
  outlets : List Outlet := []

namespace Logging

variable {Outlet : Type}

/-- The log once it is set up with an outlet and the level that a setting names. -/
def setUp (log : Logging Outlet) (outlet : Outlet) (setting : Option String) :
    Except Level.NotALevel (Logging Outlet) :=
  match Level.ofSetting setting with
  | .error problem => .error problem
  | .ok root => .ok { hierarchy := log.hierarchy.setLevels root, outlets := [outlet] }

/-- The records that come to the outlets when some are written one after another. -/
def deliveries (log : Logging Outlet) (records : List Record) : List (Outlet × Record) :=
  (log.hierarchy.letThrough records).flatMap fun record =>
    log.outlets.map fun outlet => (outlet, record)

/-- What the outlets tell when some records are written one after another: the line of each
record that comes to them, or the fault that keeps it from being told. -/
def told (log : Logging Outlet) (records : List Record) :
    List (Outlet × Except RecordFault String) :=
  (log.deliveries records).map fun delivery => (delivery.1, delivery.2.line)

end Logging

end LintReport.Log
