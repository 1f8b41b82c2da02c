import LintReport.Log.Hierarchy
import LintReport.Proofs.Log.Ancestors
import LintReport.Proofs.Log.Record

/-! # Levels of the log

What is decided for a logger and a level stands for all records of a run
(`Hierarchy.letThrough_eq_filter`), so the outlets tell some of the records, each of them once and
in their order. Once the log is set up the level that the setting names decides for all loggers but
the quiet ones, which tell all warnings (`Logging.told_floor`). So no record below the level is
told as long as the level is not above that of warnings, and above it the quiet loggers go on
(`Logging.told_below_floor`). -/

namespace LintReport.Log

namespace Hierarchy

variable {hierarchy other : Hierarchy} {record : Record} {records : List Record}
  {logger name : String} {level : Level}

/-! ## Loggers that come in -/

/-- Meeting a logger adds it. -/
theorem mem_loggers_meet :
    name ∈ (hierarchy.meet logger).loggers ↔ name ∈ hierarchy.loggers ∨ name = logger := by
  rw [mem_loggers, mem_loggers, meet]
  split
  · next known =>
      have inside : logger ∈ hierarchy.known := by simpa using known
      exact ⟨.inl, fun either => either.elim id fun same => same ▸ inside⟩
  · rw [List.mem_cons]
    exact or_comm

@[simp]
theorem root_meet : (hierarchy.meet logger).root = hierarchy.root := by
  unfold meet
  split <;> rfl

@[simp]
theorem decisions_meet : (hierarchy.meet logger).decisions = hierarchy.decisions := by
  unfold meet
  split <;> rfl

/-- Meeting loggers adds them. -/
theorem mem_loggers_meetAll {names : List String} :
    name ∈ (hierarchy.meetAll names).loggers ↔ name ∈ hierarchy.loggers ∨ name ∈ names := by
  induction names generalizing hierarchy with
  | nil => exact (or_iff_left List.not_mem_nil).symm
  | cons first names ih =>
      have others : name ∈ ((hierarchy.meet first).meetAll names).loggers ↔ _ := ih
      rw [mem_loggers_meet, or_assoc, ← List.mem_cons] at others
      exact others

@[simp]
theorem root_meetAll {names : List String} : (hierarchy.meetAll names).root = hierarchy.root := by
  induction names generalizing hierarchy with
  | nil => rfl
  | cons first names ih => exact ih.trans root_meet

@[simp]
theorem decisions_meetAll {names : List String} :
    (hierarchy.meetAll names).decisions = hierarchy.decisions := by
  induction names generalizing hierarchy with
  | nil => rfl
  | cons first names ih => exact ih.trans decisions_meet

/-! ## Levels that pass -/

/-- A quiet logger lets warnings and worse pass, whatever the level of the root is. -/
theorem passes_of_quiet (quiet : IsQuiet hierarchy.loggers logger) :
    hierarchy.passes logger level ↔ Level.warning ≤ level := by
  have positive : (0 : Int) < Level.warning := by decide
  rw [passes, threshold_eq, if_pos quiet, Bool.and_eq_true, decide_eq_true_eq, decide_eq_true_eq]
  exact ⟨And.right, fun enough => ⟨lt_of_lt_of_le positive enough, enough⟩⟩

/-- Any other logger has the level of the root. -/
theorem passes_of_loud (loud : ¬ IsQuiet hierarchy.loggers logger) :
    hierarchy.passes logger level ↔ 0 < level ∧ hierarchy.root ≤ level := by
  rw [passes, threshold_eq, if_neg loud, Bool.and_eq_true, decide_eq_true_eq, decide_eq_true_eq]

/-- What passes depends on the level of the root and on the loggers that are there, not on what
has been decided. -/
theorem passes_congr (root : hierarchy.root = other.root)
    (loggers : hierarchy.loggers = other.loggers) :
    hierarchy.passes logger level = other.passes logger level := by
  rw [passes, passes, threshold_eq, threshold_eq, root, loggers]

/-! ## Decisions -/

theorem decided?_meet (name : String) :
    (hierarchy.meet name).decided? logger level = hierarchy.decided? logger level := by
  rw [decided?, decided?, decisions_meet]

/-- A logger is asked once for each level; from then on the decision stands. -/
theorem allowed_consult :
    (hierarchy.consult logger level).1 =
      (hierarchy.decided? logger level).getD ((hierarchy.meet logger).passes logger level) := by
  rw [consult, decided?_meet]
  cases hierarchy.decided? logger level <;> rfl

@[simp]
theorem root_consult : (hierarchy.consult logger level).2.root = hierarchy.root := by
  rw [consult]
  split <;> exact root_meet

/-- Asking a logger meets it. -/
theorem mem_loggers_consult :
    name ∈ (hierarchy.consult logger level).2.loggers ↔
      name ∈ hierarchy.loggers ∨ name = logger := by
  rw [← mem_loggers_meet, consult]
  split <;> rfl

/-- A decision is kept, and no other one is made. -/
theorem decided?_consult {different : Level} :
    (hierarchy.consult name different).2.decided? logger level =
      if name = logger ∧ different = level then some (hierarchy.consult name different).1
      else hierarchy.decided? logger level := by
  rw [allowed_consult, consult, decided?_meet]
  cases decided : hierarchy.decided? name different with
  | some allowed =>
      rw [decided?_meet, Option.getD_some]
      split
      · next same => rw [← same.1, ← same.2, decided]
      · rfl
  | none =>
      rw [decided?, List.find?_cons, Option.getD_none]
      by_cases same : name = logger ∧ different = level
      · simp only [same, and_self, decide_true, if_true, Option.map_some]
      · simp only [same, decide_false, if_false, decisions_meet]
        rfl

/-! ## Runs -/

/-- The records before the first one of a logger and a level. -/
def recordsBefore (records : List Record) (logger : String) (level : Level) : List Record :=
  records.takeWhile fun record => ¬ (record.logger = logger ∧ record.level = level)

/-- The hierarchy when the first record of a logger and a level comes. -/
def atFirst (hierarchy : Hierarchy) (records : List Record) (logger : String) (level : Level) :
    Hierarchy :=
  (hierarchy.meetAll ((recordsBefore records logger level).map Record.logger)).meet logger

/-- What is decided for a logger and a level when some records are written. -/
def verdict (hierarchy : Hierarchy) (records : List Record) (logger : String) (level : Level) :
    Bool :=
  (hierarchy.decided? logger level).getD
    ((hierarchy.atFirst records logger level).passes logger level)

/-- The loggers that are there when the first record of a logger and a level comes: those from
before, and those of the records up to this one. -/
def loggersAt (there : Set String) (records : List Record) (logger : String) (level : Level) :
    Set String :=
  {name | name ∈ there ∨ name ∈ (recordsBefore records logger level).map Record.logger ∨
    name = logger}

/-- Before a logger is first asked, the loggers of the records up to there have been met. -/
theorem loggers_atFirst :
    (hierarchy.atFirst records logger level).loggers =
      loggersAt hierarchy.loggers records logger level := by
  ext name
  rw [atFirst, mem_loggers_meet, mem_loggers_meetAll, or_assoc]
  rfl

@[simp]
theorem root_atFirst : (hierarchy.atFirst records logger level).root = hierarchy.root :=
  root_meet.trans root_meetAll

/-- The first record of a run decides for its logger and level, and leaves the others to the rest
of the run. -/
theorem verdict_cons :
    hierarchy.verdict (record :: records) logger level =
      (hierarchy.consult record.logger record.level).2.verdict records logger level := by
  rw [verdict, verdict, decided?_consult]
  by_cases same : record.logger = logger ∧ record.level = level
  · have nothing : recordsBefore (record :: records) logger level = [] :=
      List.takeWhile_cons_of_neg (by simp [same])
    rw [if_pos same, Option.getD_some, allowed_consult, atFirst, nothing, same.1, same.2]
    rfl
  · have first : recordsBefore (record :: records) logger level =
        record :: recordsBefore records logger level :=
      List.takeWhile_cons_of_pos (decide_eq_true same)
    have loggers : (hierarchy.atFirst (record :: records) logger level).loggers =
        ((hierarchy.consult record.logger record.level).2.atFirst records logger
          level).loggers := by
      ext name
      rw [loggers_atFirst, loggers_atFirst, loggersAt, loggersAt, first, List.map_cons]
      simp only [Set.mem_ofPred_eq, mem_loggers_consult, List.mem_cons, or_assoc]
    rw [if_neg same, passes_congr (by simp only [root_atFirst, root_consult]) loggers]

/-- **Runs.** The records that are let through are those of the loggers and levels that the
verdict is for. -/
theorem letThrough_eq_filter (hierarchy : Hierarchy) (records : List Record) :
    hierarchy.letThrough records =
      records.filter fun record => hierarchy.verdict records record.logger record.level := by
  induction records generalizing hierarchy with
  | nil => rfl
  | cons record records ih =>
      have others := ih (hierarchy.consult record.logger record.level).2
      simp only [← verdict_cons] at others
      have first : hierarchy.verdict (record :: records) record.logger record.level =
          (hierarchy.consult record.logger record.level).1 := by
        rw [verdict_cons, verdict, decided?_consult, if_pos ⟨rfl, rfl⟩, Option.getD_some]
      rw [List.filter_cons, first, ← others]
      rfl

/-- Where nothing has been decided before, the hierarchy at the first record of a logger and a
level decides. -/
theorem verdict_of_undecided (undecided : hierarchy.decisions = []) :
    hierarchy.verdict records logger level =
      (hierarchy.atFirst records logger level).passes logger level := by
  rw [verdict, decided?, undecided]
  rfl

/-! ## Levels that are set -/

@[simp]
theorem root_setLevels (root : Level) : (hierarchy.setLevels root).root = root :=
  root_meetAll

@[simp]
theorem decisions_setLevels (root : Level) : (hierarchy.setLevels root).decisions = [] :=
  decisions_meetAll

/-- Setting the levels meets the loggers that get one of their own. -/
theorem mem_loggers_setLevels {root : Level} :
    name ∈ (hierarchy.setLevels root).loggers ↔
      name ∈ hierarchy.loggers ∨ name ∈ ownLevels.keys :=
  mem_loggers_meetAll

end Hierarchy

/-- Whether a setting names a level: it is one of the names of the level, in any case. -/
def Level.IsNamedBy (setting : String) (level : Level) : Prop :=
  ∃ name, (name, level) ∈ Level.bySetting ∧ setting.toList.flatMap Level.capitals = name.toList

/-- A setting that names a level sets it. -/
theorem Level.ofSetting_of_isNamedBy {setting : String} {level : Level}
    (named : Level.IsNamedBy setting level) : Level.ofSetting (some setting) = .ok level := by
  obtain ⟨name, listed, spelled⟩ := named
  have distinct : Level.bySetting.keys.Nodup := by decide
  have apart : ∀ entry ∈ Level.bySetting, Level.otherWords.get? entry.1 = none := by decide
  rw [Level.ofSetting, Option.getD_some, spelled, String.ofList_toList]
  simp only [apart _ listed, Keyed.get?_of_mem distinct listed, Option.getD_some]

/-! ## What a log tells -/

/-- Whether the logger of a record of a run is quiet when the first record of this logger and this
level comes. -/
def Record.IsQuietIn (record : Record) (there : Set String) (records : List Record) : Prop :=
  IsQuiet (Hierarchy.loggersAt there records record.logger record.level) record.logger

/-- How a level decides whether a record is shown, in view of whether its logger is quiet. The level
is a floor unless it is above that of warnings and the logger is quiet. Only a logger whose name is
nested can be quiet, and it is if its name is plain. -/
structure IsDecided (level : Level) (record : Record) (quiet : Prop) (shown : Bool) : Prop where
  ofLoud : ¬ quiet → (shown ↔ 0 < record.level ∧ level ≤ record.level)
  ofQuiet : quiet → (shown ↔ Level.warning ≤ record.level)
  floor : level ≤ Level.warning ∨ ¬ quiet → shown → level ≤ record.level
  nested : quiet → IsNested record.logger
  plain : IsPlain record.logger → IsNested record.logger → quiet

/-- What is decided for a record when the quiet loggers are there and nothing has been decided
before. -/
theorem isDecided_verdict {hierarchy : Hierarchy} {records : List Record} (record : Record)
    (undecided : hierarchy.decisions = [])
    (known : ∀ quiet ∈ ownLevels.keys, quiet ∈ hierarchy.loggers) :
    IsDecided hierarchy.root record (record.IsQuietIn hierarchy.loggers records)
      (hierarchy.verdict records record.logger record.level) := by
  rw [Hierarchy.verdict_of_undecided undecided, Record.IsQuietIn, ← Hierarchy.loggers_atFirst]
  have root : (hierarchy.atFirst records record.logger record.level).root = hierarchy.root :=
    Hierarchy.root_atFirst
  have inside : ∀ quiet ∈ ownLevels.keys,
      quiet ∈ (hierarchy.atFirst records record.logger record.level).loggers := fun quiet listed =>
    Hierarchy.loggers_atFirst ▸ .inl (known quiet listed)
  generalize hierarchy.atFirst records record.logger record.level = first at root inside
  refine ⟨fun loud => root ▸ Hierarchy.passes_of_loud loud, Hierarchy.passes_of_quiet, ?_,
    IsQuiet.isNested, isQuiet_of_isPlain inside⟩
  intro low shown
  by_cases quiet : IsQuiet first.loggers record.logger
  · exact (low.resolve_right (not_not.mpr quiet)).trans
      ((Hierarchy.passes_of_quiet quiet).mp shown)
  · exact root ▸ ((Hierarchy.passes_of_loud quiet).mp shown).2

namespace Logging

variable {Outlet : Type}

/-- A log with a single outlet tells each record at most once. -/
theorem told_of_single {log : Logging Outlet} {outlet : Outlet} {records : List Record}
    (single : log.outlets = [outlet]) :
    log.told records =
      (records.filter fun record => log.hierarchy.verdict records record.logger record.level).map
        fun record => (outlet, record.line) := by
  rw [told, deliveries, single, Hierarchy.letThrough_eq_filter, List.map_flatMap,
    List.map_eq_flatMap]
  rfl

/-- **The level of the log.** A log that is set up with the name of a level tells some of the
records that are written, each of them once and in their order. The loggers that are not quiet show
what is positive and not below the level, and the quiet ones, those with a level of their own and
all below them, show all warnings. So a record below the level is shown only by a quiet logger, and
only if the level is above that of warnings. -/
theorem told_floor {setting : String} {level : Level} (named : Level.IsNamedBy setting level)
    (log : Logging Outlet) (outlet : Outlet) (records : List Record) :
    ∃ ready shown, log.setUp outlet (some setting) = .ok ready ∧
      ready.told records = (records.filter shown).map (fun record => (outlet, record.line)) ∧
      ∀ record ∈ records,
        (record.IsTellable → ∃ line, record.line = .ok line) ∧
        IsDecided level record
          (record.IsQuietIn (log.hierarchy.loggers ∪ {quiet | quiet ∈ ownLevels.keys}) records)
          (shown record) := by
  have chosen : log.setUp outlet (some setting) =
      .ok { hierarchy := log.hierarchy.setLevels level, outlets := [outlet] } := by
    rw [setUp, Level.ofSetting_of_isNamedBy named]
  have loggers : (log.hierarchy.setLevels level).loggers =
      log.hierarchy.loggers ∪ {quiet | quiet ∈ ownLevels.keys} :=
    Set.ext fun _ => Hierarchy.mem_loggers_setLevels
  refine ⟨_, _, chosen, told_of_single rfl, fun record _ => ⟨Record.IsTellable.exists_line, ?_⟩⟩
  have decided : IsDecided _ record _ ((log.hierarchy.setLevels level).verdict records _ _) :=
    isDecided_verdict record (Hierarchy.decisions_setLevels level)
      fun quiet listed => Hierarchy.mem_loggers_setLevels.mpr (.inr listed)
  rwa [loggers, Hierarchy.root_setLevels] at decided

/-- Records of one logger below a quiet one and of another one that is not. -/
theorem told_floor_nested :
    let nested (level : Level) : Record := { logger := "httpx.client", level, template := "m" }
    let other (level : Level) : Record := { logger := "checks.httpx", level, template := "m" }
    Level.IsNamedBy "Info" Level.info ∧
      ∃ ready, ({ outlets := [1, 2] } : Logging Nat).setUp 0 (some "Info") = .ok ready ∧
        ready.told [other 10, nested 20, nested 30, other 20] =
          [(0, (nested 30).line), (0, (other 20).line)] := by
  intro nested other
  have named : Level.IsNamedBy "Info" Level.info := ⟨"INFO", by decide, by decide⟩
  obtain ⟨ready, shown, made, told, decided⟩ := told_floor named
    ({ outlets := [1, 2] } : Logging Nat) 0 [other 10, nested 20, nested 30, other 20]
  have hushed (level : Level) (member : nested level ∈ [other 10, nested 20, nested 30, other 20]) :
      shown (nested level) ↔ Level.warning ≤ level := by
    have plain : IsPlain "httpx.client" := by decide
    have below : IsNested "httpx.client" := by decide
    have decided := (decided _ member).2
    exact decided.ofQuiet (decided.plain plain below)
  have loud (level : Level) (member : other level ∈ [other 10, nested 20, nested 30, other 20]) :
      shown (other level) ↔ 0 < level ∧ Level.info ≤ level := by
    have apart : ¬ IsNested "checks.httpx" := by decide
    have decided := (decided _ member).2
    exact decided.ofLoud fun quiet => apart (decided.nested quiet)
  refine ⟨named, ready, made, told.trans ?_⟩
  have first : ¬ shown (other 10) := by rw [loud 10 (by simp)]; decide
  have second : ¬ shown (nested 20) := by rw [hushed 20 (by simp)]; decide
  have third : shown (nested 30) := by rw [hushed 30 (by simp)]; decide
  have fourth : shown (other 20) := by rw [loud 20 (by simp)]; decide
  rw [List.filter_cons_of_neg first, List.filter_cons_of_neg second, List.filter_cons_of_pos third,
    List.filter_cons_of_pos fourth]
  rfl

/-- A log of errors tells a warning of a quiet logger. -/
theorem told_below_floor :
    let record : Record := { logger := "httpx", level := Level.warning, template := "m" }
    Level.IsNamedBy "ERROR" 40 ∧ record.level < 40 ∧
      ∃ ready line, Logging.setUp {} () (some "ERROR") = .ok ready ∧
        ready.told [record] = [((), .ok line)] := by
  intro record
  have named : Level.IsNamedBy "ERROR" 40 := ⟨"ERROR", by decide, by decide⟩
  have dated : IsDated record.created := isDated_of_between (by decide) (by decide)
  obtain ⟨line, written⟩ :=
    Record.IsTellable.exists_line ⟨⟨"m", rfl⟩, dated, by simp [Context.values, record]⟩
  let ready : Logging Unit :=
    { hierarchy := Hierarchy.setLevels { root := Level.warning, known := [] } 40, outlets := [()] }
  have made : Logging.setUp {} () (some "ERROR") = .ok ready := by
    rw [setUp, Level.ofSetting_of_isNamedBy named]
  have shown : ready.hierarchy.verdict [record] record.logger record.level := by
    rw [Hierarchy.verdict_of_undecided (Hierarchy.decisions_setLevels 40)]
    exact (Hierarchy.passes_of_quiet (isQuiet_of_own rfl).1).mpr le_rfl
  have told : ready.told [record] = _ := told_of_single rfl
  simp only [List.filter_cons, shown, if_true, List.filter_nil, List.map_cons, List.map_nil,
    written] at told
  exact ⟨named, by decide, ready, line, made, told⟩

end Logging

end LintReport.Log
