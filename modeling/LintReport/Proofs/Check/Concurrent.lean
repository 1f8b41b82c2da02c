import LintReport.Proofs.Check.Course
import LintReport.Proofs.Report.Document
import Mathlib.Data.List.Perm.Subperm
import Mathlib.Logic.Relation

/-! # Concurrent checks

Checks that are made at the same time share nothing but the collection. A check works out its
result without it, so all that is left to do then is to merge the diagnostics of one file
after another, each merge while the collection is locked. In between, other checks may merge
theirs (`Concurrent.Step`). Whatever the order of the merges, a file gains the batches of the
checks that report it, whole and each of them once (`Concurrent.merges_whole`). Checks that
are made one after another follow one of these orders (`Concurrent.reaches_checks`). -/

namespace LintReport

/-! ## The merges of a check -/

namespace Checker

/-- The diagnostics that a check merges into a file. -/
def batch (checker : Checker) (file : String) (request : CheckRequest) : List Diagnostic :=
  ((checker.merges request).get? file).getD []

/-- Whether a check reports a file. -/
def reports (checker : Checker) (file : String) (request : CheckRequest) : Bool :=
  (checker.merges request).has file

/-- What a check merges is well filed. -/
theorem wellFiled_merges (checker : Checker) (request : CheckRequest) :
    WellFiled checker.sources (checker.merges request) := by
  unfold merges
  split
  · next answered => exact wellFiled_of_result answered
  · exact WellFiled.nil

end Checker

/-! ## Steps -/

/-- A check under way, with the merges that it has still to make. -/
structure Task where
  request : CheckRequest
  pending : Keyed (List Diagnostic)

/-- Whether a check has still to merge something into a file. -/
def Task.holds (file : String) (task : Task) : Bool :=
  task.pending.has file

/-- A collection and the checks that share it. -/
structure Concurrent where
  collection : Collection
  tasks : List Task

namespace Concurrent

/-- The checks of some requests, before any of them has merged anything. -/
def start (checker : Checker) (collection : Collection) (requests : List CheckRequest) :
    Concurrent :=
  { collection
    tasks := requests.map fun request => { request, pending := checker.merges request } }

/-- One merge of one check, which can be any of those that are not done. -/
inductive Step : Concurrent → Concurrent → Prop
  | merge (collection : Collection) (before after : List Task) (request : CheckRequest)
      (file : String) (diagnostics : List Diagnostic) (pending : Keyed (List Diagnostic)) :
      Step { collection, tasks := before ++ ⟨request, (file, diagnostics) :: pending⟩ :: after }
        { collection := collection.merge file diagnostics
          tasks := before ++ ⟨request, pending⟩ :: after }

/-- Whether some merges lead from one state to another. -/
def Reaches : Concurrent → Concurrent → Prop :=
  Relation.ReflTransGen Step

/-- Whether all checks are done. -/
def IsFinished (state : Concurrent) : Prop :=
  ∀ task ∈ state.tasks, task.pending = []

/-- The requests of the checks that have still to merge something into a file. -/
def waiting (file : String) (tasks : List Task) : List CheckRequest :=
  (tasks.filter (Task.holds file)).map Task.request

variable {checker : Checker} {requests : List CheckRequest} {initial : Collection}
  {state next : Concurrent}

/-- Tasks wait in the order in which they stand. -/
theorem waiting_append (file : String) (first second : List Task) :
    waiting file (first ++ second) = waiting file first ++ waiting file second := by
  simp only [waiting, List.filter_append, List.map_append]

/-- A task waits with a file exactly as long as it holds it. -/
theorem waiting_cons (file : String) (task : Task) (tasks : List Task) :
    waiting file (task :: tasks) =
      if task.holds file then task.request :: waiting file tasks else waiting file tasks := by
  unfold waiting
  rw [List.filter_cons]
  split <;> rfl

/-- At the start all checks that report in a file wait with it. -/
theorem waiting_start (file : String) :
    waiting file (start checker initial requests).tasks =
      requests.filter (checker.reports file) := by
  rw [waiting, start, List.filter_map, List.map_map]
  exact List.map_id _

/-- At the end none waits. -/
theorem waiting_of_isFinished (finished : state.IsFinished) (file : String) :
    waiting file state.tasks = [] := by
  have none : state.tasks.filter (Task.holds file) = [] := by
    apply List.filter_eq_nil_iff.mpr
    intro task member
    rw [Task.holds, finished task member]
    exact Bool.false_ne_true
  rw [waiting, none, List.map_nil]

/-- The first merge of a check is the only one into its file. -/
theorem waiting_merged {file : String} {pending : Keyed (List Diagnostic)}
    (absent : file ∉ pending.keys) (before after : List Task) (request : CheckRequest)
    (diagnostics : List Diagnostic) :
    waiting file (before ++ ⟨request, (file, diagnostics) :: pending⟩ :: after) =
      waiting file before ++ request :: waiting file after ∧
    waiting file (before ++ ⟨request, pending⟩ :: after) =
      waiting file before ++ waiting file after := by
  have held : Task.holds file ⟨request, (file, diagnostics) :: pending⟩ := by
    simp [Task.holds, Keyed.has, Keyed.get?]
  have done : ¬ Task.holds file ⟨request, pending⟩ := by
    simp [Task.holds, Keyed.has, Keyed.get?_eq_none_iff.mpr absent]
  rw [waiting_append, waiting_cons, if_pos held, waiting_append, waiting_cons, if_neg done]
  exact ⟨rfl, rfl⟩

/-- Merging one file leaves who waits with another. -/
theorem waiting_of_ne {file other : String} (different : file ≠ other) (before after : List Task)
    (request : CheckRequest) (diagnostics : List Diagnostic) (pending : Keyed (List Diagnostic)) :
    waiting other (before ++ ⟨request, (file, diagnostics) :: pending⟩ :: after) =
      waiting other (before ++ ⟨request, pending⟩ :: after) := by
  have unchanged : Task.holds other ⟨request, (file, diagnostics) :: pending⟩ =
      Task.holds other ⟨request, pending⟩ := by
    simp only [Task.holds, Keyed.has, Keyed.get?, if_neg different]
  rw [waiting_append, waiting_cons, unchanged, waiting_append, waiting_cons]

/-- What every state on the way satisfies: each check has done the first of its merges, and
each file has gained whole batches, those of the checks that are done with it. -/
structure Gathers (checker : Checker) (requests : List CheckRequest) (initial : Collection)
    (state : Concurrent) : Prop where
  filled : state.collection.IsFilled
  pending : ∀ task ∈ state.tasks, task.pending <:+ checker.merges task.request
  gained : ∀ file, ∃ order,
    (order ++ waiting file state.tasks).Perm (requests.filter (checker.reports file)) ∧
      state.collection.get file = initial.get file ++ order.flatMap (checker.batch file)

/-- At the start every file has what it had, and all checks wait. -/
theorem Gathers.start (filled : initial.IsFilled) :
    Gathers checker requests initial (start checker initial requests) where
  filled := filled
  pending := by
    intro task member
    obtain ⟨request, _, rfl⟩ := List.mem_map.mp member
    exact List.suffix_rfl
  gained file := ⟨[], by rw [List.nil_append, waiting_start], by
    rw [List.flatMap_nil, List.append_nil]
    rfl⟩

/-- The first of the merges that are left is a whole batch, and the file does not come again. -/
theorem batch_of_suffix {request : CheckRequest} {entry : String × List Diagnostic}
    {pending : Keyed (List Diagnostic)} (suffix : entry :: pending <:+ checker.merges request) :
    checker.batch entry.1 request = entry.2 ∧ entry.1 ∉ pending.keys := by
  have distinct := (checker.wellFiled_merges request).distinct
  constructor
  · rw [Checker.batch, Keyed.get?_of_mem distinct (suffix.mem List.mem_cons_self),
      Option.getD_some]
  · exact (List.nodup_cons.mp (distinct.sublist (suffix.sublist.map Prod.fst))).1

/-- **One merge** keeps all batches whole. -/
theorem Gathers.step (gathers : Gathers checker requests initial state) (step : Step state next) :
    Gathers checker requests initial next := by
  obtain ⟨collection, before, after, request, file, diagnostics, pending⟩ := step
  have suffix : (file, diagnostics) :: pending <:+ checker.merges request :=
    gathers.pending ⟨request, (file, diagnostics) :: pending⟩ (by simp)
  obtain ⟨whole, absent⟩ := batch_of_suffix suffix
  constructor
  case filled => exact gathers.filled.merge file diagnostics
  case pending =>
    intro task member
    rcases List.mem_append.mp member with early | late
    · exact gathers.pending task (List.mem_append_left _ early)
    · rcases List.mem_cons.mp late with rfl | late
      · exact (List.suffix_cons _ _).trans suffix
      · exact gathers.pending task (List.mem_append_right _ (List.mem_cons_of_mem _ late))
  case gained =>
    intro other
    obtain ⟨order, left, has⟩ := gathers.gained other
    by_cases same : file = other
    · -- the file gains the batch, and the check is done with it
      subst same
      obtain ⟨held, done⟩ := waiting_merged absent before after request diagnostics
      rw [held] at left
      refine ⟨order ++ [request], ?_, ?_⟩
      · rw [done, List.append_assoc, List.singleton_append]
        exact (List.perm_middle.symm.append_left order).trans left
      · rw [Collection.get_merge, if_pos rfl, has, List.flatMap_append, List.flatMap_singleton,
          whole, List.append_assoc]
    · -- nothing changes for any other file
      rw [waiting_of_ne same] at left
      refine ⟨order, left, ?_⟩
      rw [Collection.get_merge, if_neg same, has]

/-- **All merges.** -/
theorem Gathers.of_reaches (filled : initial.IsFilled)
    (reached : (Concurrent.start checker initial requests).Reaches state) :
    Gathers checker requests initial state := by
  induction reached with
  | refl => exact Gathers.start filled
  | tail _ step ih => exact ih.step step

/-! ## Finished runs -/

/-- A check can make its merges one after another. -/
theorem reaches_merged (collection : Collection) (before after : List Task)
    (request : CheckRequest) (pending : Keyed (List Diagnostic)) :
    Reaches { collection, tasks := before ++ ⟨request, pending⟩ :: after }
      { collection := collection.mergeAll pending, tasks := before ++ ⟨request, []⟩ :: after } := by
  induction pending generalizing collection with
  | nil => exact .refl
  | cons entry pending ih => exact .head (.merge ..) (ih _)

/-- Checks that are made one after another are checks at the same time in one of the orders. -/
theorem reaches_checks (checker : Checker) (collection : Collection)
    (requests : List CheckRequest) :
    (start checker collection requests).Reaches
      { collection := requests.foldl
          (fun collection request => (checker.check collection request).collection) collection
        tasks := requests.map fun request => ⟨request, []⟩ } := by
  suffices after : ∀ done : List Task,
      Reaches
        { collection, tasks := done ++ (start checker collection requests).tasks }
        { collection := requests.foldl
            (fun collection request => (checker.check collection request).collection) collection
          tasks := done ++ requests.map fun request => ⟨request, []⟩ } from after []
  induction requests generalizing collection with
  | nil => exact fun _ => .refl
  | cons request requests ih =>
      intro done
      have first := reaches_merged collection done (start checker collection requests).tasks
        request (checker.merges request)
      have others := ih (collection.mergeAll (checker.merges request)) (done ++ [⟨request, []⟩])
      rw [List.append_assoc, List.append_assoc] at others
      rw [List.foldl_cons, Checker.collection_check]
      exact Relation.ReflTransGen.trans first others

/-- No check gets stuck. -/
theorem exists_finished (state : Concurrent) :
    ∃ finished, state.Reaches finished ∧ finished.IsFinished := by
  obtain ⟨collection, tasks⟩ := state
  suffices after : ∀ done : List Task, (∀ task ∈ done, task.pending = []) →
      ∃ finished, Reaches { collection, tasks := done ++ tasks } finished ∧
        finished.IsFinished from after [] (by simp)
  induction tasks generalizing collection with
  | nil => exact fun done idle => ⟨_, .refl, by simpa [IsFinished] using idle⟩
  | cons task tasks ih =>
      intro done idle
      have first := reaches_merged collection done tasks task.request task.pending
      obtain ⟨finished, others, ended⟩ := ih (collection.mergeAll task.pending)
        (done ++ [⟨task.request, []⟩]) (by
          intro other member
          rcases List.mem_append.mp member with early | last
          · exact idle other early
          · rw [List.mem_singleton.mp last])
      rw [List.append_assoc] at others
      exact ⟨finished, Relation.ReflTransGen.trans first others, ended⟩

/-- **Whole batches.** Checks that share a collection may merge in any order. At every point on
the way a file has what it had before and then batches of checks that report it, each of them
whole and from one check only, and no file is there without diagnostics. The checks can always
be finished, and then the batches of all checks that report a file have come. -/
theorem merges_whole (checker : Checker) (requests : List CheckRequest) (initial : Collection)
    (filled : initial.IsFilled) (state : Concurrent)
    (reached : (start checker initial requests).Reaches state) :
    (∀ file, ∃ order : List CheckRequest, order.Subperm (requests.filter (checker.reports file)) ∧
      state.collection.get file = initial.get file ++ order.flatMap (checker.batch file)) ∧
    state.collection.files.Nodup ∧
    (∀ entry ∈ state.collection.byFile,
      entry.2 ≠ [] ∧ entry.2 = state.collection.get entry.1) ∧
    (∃ finished, state.Reaches finished ∧ finished.IsFinished) ∧
    (state.IsFinished → ∀ file, ∃ order : List CheckRequest,
      order.Perm (requests.filter (checker.reports file)) ∧
        state.collection.get file = initial.get file ++ order.flatMap (checker.batch file)) := by
  have gathers := Gathers.of_reaches filled reached
  refine ⟨fun file => ?_, gathers.filled.distinct, fun entry member => ?_,
    exists_finished state, fun finished file => ?_⟩
  · obtain ⟨order, left, has⟩ := gathers.gained file
    exact ⟨order, (List.sublist_append_left order _).subperm.trans left.subperm, has⟩
  · exact ⟨gathers.filled.filled entry member, (gathers.filled.get_of_mem member).symm⟩
  · obtain ⟨order, left, has⟩ := gathers.gained file
    rw [waiting_of_isFinished finished, List.append_nil] at left
    exact ⟨order, left, has⟩

/-! ## Two checks of one workspace -/

/-- The files of a run on a workspace whose output is read line by line. -/
theorem keys_merges_ofWorkspace (output : String) (linewise : ¬ IsDocument output)
    (unmarked : ¬ ToolFailure.errorMark <:+: output.toList)
    (fits : ({ registry := ⟨[{}]⟩ } : Checker).Fits (.ofWorkspace output)) :
    (({ registry := ⟨[{}]⟩ } : Checker).merges (.ofWorkspace output)).keys =
      (Keyed.group Diagnostic.file
        ((Findings.ofLines (.under "/w") output.toList).diagnostics "mago")).keys := by
  have answered := Checker.result_of_unmarked (Checker.accept_eq_ok_iff.mpr ⟨fits, rfl⟩) unmarked
  rw [Checker.merges, answered, ← Findings.ofOutput_of_not_isDocument linewise]
  rfl

/-- Two checks report the same two files, and merge into them in opposite orders. -/
theorem merges_whole_interleaved :
    ∃ state first second,
      (start { registry := ⟨[{}]⟩ } .empty [first, second]).Reaches state ∧ state.IsFinished ∧
      ∀ file ∈ ["/w/a.php", "/w/b.php"], ∃ order : List CheckRequest,
        order.Perm [first, second] ∧
          state.collection.get file =
            order.flatMap (({ registry := ⟨[{}]⟩ } : Checker).batch file) := by
  have firstFiles : (({ registry := ⟨[{}]⟩ } : Checker).merges
      (.ofWorkspace "a.php:1:1: error: x\nb.php:1:1: error: x")).keys =
        ["/w/a.php", "/w/b.php"] := by
    rw [keys_merges_ofWorkspace _ (not_isDocument_of_bare rfl rfl (by decide) (by decide))
      (by decide) (by decide)]
    decide
  have secondFiles : (({ registry := ⟨[{}]⟩ } : Checker).merges
      (.ofWorkspace "b.php:2:1: error: y\na.php:2:1: error: y")).keys =
        ["/w/b.php", "/w/a.php"] := by
    rw [keys_merges_ofWorkspace _ (not_isDocument_of_bare rfl rfl (by decide) (by decide))
      (by decide) (by decide)]
    decide
  generalize CheckRequest.ofWorkspace "a.php:1:1: error: x\nb.php:1:1: error: x" = first
    at firstFiles
  generalize CheckRequest.ofWorkspace "b.php:2:1: error: y\na.php:2:1: error: y" = second
    at secondFiles
  obtain ⟨firstA, firstB, ofFirst⟩ := Keyed.eq_pair_of_keys firstFiles
  obtain ⟨secondB, secondA, ofSecond⟩ := Keyed.eq_pair_of_keys secondFiles
  -- the second check makes both of its merges between the two of the first one
  have reached : (start { registry := ⟨[{}]⟩ } .empty [first, second]).Reaches
      { collection := (((Collection.empty.merge "/w/a.php" firstA).merge "/w/b.php" secondB).merge
          "/w/a.php" secondA).merge "/w/b.php" firstB
        tasks := [⟨first, []⟩, ⟨second, []⟩] } := by
    rw [start, List.map_cons, List.map_singleton, ofFirst, ofSecond]
    refine .head (.merge _ [] _ _ _ _ _) ?_
    refine .head (.merge _ [_] [] _ _ _ _) ?_
    refine .head (.merge _ [_] [] _ _ _ _) ?_
    exact .single (.merge _ [] _ _ _ _ _)
  obtain ⟨_, _, _, _, ended⟩ := merges_whole { registry := ⟨[{}]⟩ } [first, second] .empty
    Collection.IsFilled.empty _ reached
  have finished : IsFinished
      { collection := (((Collection.empty.merge "/w/a.php" firstA).merge "/w/b.php" secondB).merge
          "/w/a.php" secondA).merge "/w/b.php" firstB
        tasks := [⟨first, []⟩, ⟨second, []⟩] } := by
    intro task member
    simp only [List.mem_cons, List.not_mem_nil, or_false] at member
    rcases member with rfl | rfl <;> rfl
  refine ⟨_, first, second, reached, finished, fun file member => ?_⟩
  obtain ⟨order, all, has⟩ := ended finished file
  have reported : [first, second].filter
      (({ registry := ⟨[{}]⟩ } : Checker).reports file) = [first, second] := by
    apply List.filter_eq_self.mpr
    intro request asked
    simp only [List.mem_cons, List.not_mem_nil, or_false] at asked member
    rcases asked with rfl | rfl <;> rcases member with rfl | rfl <;>
      simp [Checker.reports, Keyed.has, Keyed.get?, ofFirst, ofSecond]
  exact ⟨order, reported ▸ all, has⟩

end Concurrent

end LintReport
