import LintReport.Proofs.Api.Framework
import LintReport.Proofs.Check.Nested

/-! # Courses of requests

A request makes at most one call on the collection, and which one does not depend on what
the collection holds (`Framework.call?`). So a course of requests leaves what the course of
its calls leaves (`Server.afterRequests_eq`), and what holds of courses of calls holds of
courses of requests. A request that is not answered as a success might as well not have been
sent, unless it is a run whose result is held and then cannot be presented. The collection can
be shown as long as it can be presented (`Server.requests_keep`). A code that nests too deep is
enough for a run that is lost and for a collection that is not shown (`Server.requests_lose`). -/

namespace LintReport

open Json

namespace Api

/-! ## The call of a request -/

/-- The call that an endpoint makes on the collection, if it makes one. -/
def Invocation.call? : Invocation → Option Call
  | .parse kind fields => some (.check (fields.request kind))
  | .clearDiagnostics => some .clear
  | .deleteFile path => some (.delete path)
  | _ => none

/-- The call that a request makes on the collection, if it makes one. -/
def Framework.call? (framework : Framework) (request : Request) : Option Call :=
  match framework.dispatch request with
  | .call invocation => invocation.call?
  | .answer _ => none

/-- Whether an exchange is answered with a status. -/
def Exchange.HasStatus (exchange : Exchange) (status : Nat) : Prop :=
  ∃ response, exchange.response = .ok response ∧ response.status = status

/-- Whether a request sends a run in whose result cannot be presented. -/
def Request.IsLost (framework : Framework) (checker : Checker) (request : Request) : Prop :=
  ∃ kind fields result, framework.dispatch request = .call (.parse kind fields) ∧
    checker.result (fields.request kind) = .ok result ∧ ¬ result.IsPresentable

namespace Server

/-- The collection after a course of requests that starts with the empty one. -/
def afterRequests (framework : Framework) (checker : Checker) (requests : List Request) :
    Collection :=
  requests.foldl
    (fun collection request => (handle framework checker collection request).collection) .empty

variable {framework : Framework} {checker : Checker} {collection : Collection} {request : Request}
  {invocation : Invocation} {number : Binary64 → Value}

/-- A request that is a call is answered with what the endpoint replies, after what it does. -/
theorem handle_of_call (called : framework.dispatch request = .call invocation) :
    handle framework checker collection request =
      { response :=
          (serve checker collection invocation).reply.bind (framework.respond invocation.shape)
        collection := (serve checker collection invocation).collection } := by
  simp only [handle, called]

/-- A request that is answered before an endpoint is reached changes nothing. -/
theorem handle_of_answer {outcome : Except Breakdown Response}
    (answered : framework.dispatch request = .answer outcome) :
    handle framework checker collection request = { response := outcome, collection } := by
  simp only [handle, answered]

/-- A file that is not there cannot be removed, and trying to changes nothing. -/
theorem collection_deleteFile (collection : Collection) (path : String) :
    (deleteFile collection path).collection = (collection.delete path).2 := by
  by_cases present : collection.byFile.has path
  · simp [deleteFile, Collection.delete, present]
  · simp [deleteFile, Collection.delete, present, Keyed.erase_of_not_has present]

/-- What an endpoint does to the collection is what its call does. -/
theorem collection_serve (checker : Checker) (collection : Collection) (invocation : Invocation) :
    (serve checker collection invocation).collection =
      match invocation.call? with
      | some call => checker.afterCall collection call
      | none => collection := by
  cases invocation with
  | deleteFile path => exact collection_deleteFile collection path
  | _ => rfl

/-- What a request does to the collection is what its call does. -/
theorem collection_handle (framework : Framework) (checker : Checker) (collection : Collection)
    (request : Request) :
    (handle framework checker collection request).collection =
      match framework.call? request with
      | some call => checker.afterCall collection call
      | none => collection := by
  rw [Framework.call?]
  cases dispatched : framework.dispatch request with
  | answer outcome => rw [handle_of_answer dispatched]
  | call invocation =>
      rw [handle_of_call dispatched]
      exact collection_serve checker collection invocation

/-- **A course of requests is the course of their calls.** -/
theorem afterRequests_eq (framework : Framework) (checker : Checker) (requests : List Request) :
    afterRequests framework checker requests =
      checker.afterCalls (requests.filterMap framework.call?) := by
  rw [Checker.afterCalls, List.foldl_filterMap, afterRequests]
  congr 1
  funext collection request
  rw [collection_handle]
  cases framework.call? request <;> rfl

/-- A further request is handled on what those before it leave. -/
theorem afterRequests_concat (framework : Framework) (checker : Checker) (requests : List Request)
    (request : Request) :
    afterRequests framework checker (requests ++ [request]) =
      (handle framework checker (afterRequests framework checker requests) request).collection :=
  List.foldl_concat ..

/-- The files that are held after a course of requests are all different. -/
theorem nodup_files_afterRequests (framework : Framework) (checker : Checker)
    (requests : List Request) : (afterRequests framework checker requests).files.Nodup := by
  rw [afterRequests_eq]
  exact (Checker.wellFiled_afterCalls checker _).distinct

/-! ## Successes -/

section Faithful

variable (faithful : framework.IsFaithful number)
include faithful

/-- What an endpoint returns is answered with, as far as it has the declared shape and can be
sent. -/
theorem response_of_returned (called : framework.dispatch request = .call invocation)
    {value : Value} (returned : (serve checker collection invocation).reply = .ok (.returned value))
    (fits : invocation.shape.fits value) (sendable : value.IsSendable) :
    (handle framework checker collection request).response =
      .ok { status := 200, body := value.withNumbers number } := by
  simp only [handle_of_call called, returned, Except.bind, faithful.answers _ _ fits sendable]

omit faithful in
/-- A short report of success can be sent. -/
theorem isSendable_status {text : String} (encodable : Text.isEncodable text) :
    (textObject "status" text).IsSendable where
  spellable := rfl
  distinct := rfl
  shallow := by simp [textObject, Value.depth, Value.depthOfEntries, answerDepth]
  encodable := by
    simp only [textObject, Value.isEncodable, Value.entriesAreEncodable, encodable, Bool.and_true]
    decide

omit faithful in
/-- Deleting a file that is held is reported as a success. -/
theorem reply_deleteFile {path : String} (present : collection.byFile.has path) :
    (serve checker collection (.deleteFile path)).reply =
      .ok (.returned (textObject "status" "deleted")) := by
  simp [serve, deleteFile, Collection.delete, present]

omit faithful in
/-- A result that can be copied is returned. -/
theorem runReply_of_areCopyable {result : CheckResult}
    (copyable : Diagnostic.areCopyable result.diagnostics) :
    runReply (.ok result) = .ok (.returned result.toValue) := by
  simp [runReply, CheckResult.copied, copyable]

/-- The result of a run is answered with if it can be presented. -/
theorem response_of_result {kind : RunKind} {fields : RunFields}
    (called : framework.dispatch request = .call (.parse kind fields)) {result : CheckResult}
    (answered : checker.result (fields.request kind) = .ok result)
    (presentable : result.IsPresentable) :
    (handle framework checker collection request).response =
      .ok { status := 200, body := result.toValue.withNumbers number } := by
  refine response_of_returned faithful called ?_ (Shape.fits_result answered)
    (presentable.isSendable answered)
  rw [serve, Checker.answer_check, answered,
    runReply_of_areCopyable presentable.shallow.areCopyable]

/-! ## Failures -/

/-- A request that is not answered as a success leaves the collection as it was, unless the result
of a run is lost with it. -/
theorem collection_handle_of_failed
    (failed : ¬ (handle framework checker collection request).HasStatus 200)
    (kept : ¬ request.IsLost framework checker) :
    (handle framework checker collection request).collection = collection := by
  cases dispatched : framework.dispatch request with
  | answer outcome => rw [handle_of_answer dispatched]
  | call invocation =>
      cases invocation with
      | parse kind fields =>
          rw [handle_of_call dispatched]
          cases answered : checker.result (fields.request kind) with
          | error error => exact Checker.collection_check_of_error answered collection
          | ok result =>
              have presentable : result.IsPresentable := by
                by_contra hidden
                exact kept ⟨kind, fields, result, dispatched, answered, hidden⟩
              exact absurd ⟨_, response_of_result faithful dispatched answered presentable, rfl⟩
                failed
      | clearDiagnostics =>
          have cleared := @response_of_returned _ checker collection _ _ _ faithful dispatched _
            rfl (by rfl) (isSendable_status (by decide : Text.isEncodable "cleared"))
          exact absurd ⟨_, cleared, rfl⟩ failed
      | deleteFile path =>
          by_cases present : collection.byFile.has path
          · have deleted := response_of_returned faithful dispatched
              (@reply_deleteFile checker collection path present) (by rfl)
              (isSendable_status (by decide : Text.isEncodable "deleted"))
            exact absurd ⟨_, deleted, rfl⟩ failed
          · rw [handle_of_call dispatched]
            simp [serve, deleteFile, Collection.delete, present]
      | _ => rw [handle_of_call dispatched]; rfl

/-- A request that changes nothing might as well not have been sent. -/
theorem afterRequests_of_failed {before : List Request}
    (failed : ¬ (handle framework checker (afterRequests framework checker before)
      request).HasStatus 200)
    (kept : ¬ request.IsLost framework checker) (later : List Request) :
    afterRequests framework checker (before ++ request :: later) =
      afterRequests framework checker (before ++ later) := by
  have unchanged := collection_handle_of_failed faithful failed kept
  unfold afterRequests at unchanged ⊢
  rw [List.foldl_append, List.foldl_cons, unchanged, List.foldl_append]

end Faithful

/-- What cannot be copied on its own cannot be copied with what was held before it. -/
theorem not_areCopyable_mergeAll {result : CheckResult} {run : CheckRequest}
    (answered : checker.result run = .ok result) (distinct : collection.files.Nodup)
    (uncopyable : ¬ Diagnostic.areCopyable result.diagnostics) :
    ¬ Diagnostic.areCopyable (collection.mergeAll result.diagnostics).byFile := by
  have filed := Checker.wellFiled_of_result answered
  rw [Collection.byFile_mergeAll distinct filed.distinct filed.filled]
  intro copyable
  refine uncopyable (Diagnostic.areCopyable_iff.mpr fun entry member diagnostic inside => ?_)
  obtain ⟨after, there, _, more⟩ :=
    Keyed.exists_mem_followedBy collection.byFile filed.distinct member
  exact Diagnostic.areCopyable_iff.mp copyable after there diagnostic (more inside)

/-- The diagnostics of a run are held before it is answered. -/
theorem collection_handle_of_result {kind : RunKind} {fields : RunFields}
    (called : framework.dispatch request = .call (.parse kind fields)) {result : CheckResult}
    (answered : checker.result (fields.request kind) = .ok result) :
    (handle framework checker collection request).collection =
      collection.mergeAll result.diagnostics := by
  rw [handle_of_call called]
  exact Checker.collection_check_of_ok answered collection

/-- A run whose diagnostics cannot be copied breaks down. -/
theorem response_of_uncopyable {kind : RunKind} {fields : RunFields}
    (called : framework.dispatch request = .call (.parse kind fields)) {result : CheckResult}
    (answered : checker.result (fields.request kind) = .ok result)
    (uncopyable : ¬ Diagnostic.areCopyable result.diagnostics) :
    (handle framework checker collection request).response = .error (.uncopied .tooDeep) := by
  have reply : (serve checker collection (.parse kind fields)).reply =
      .error (.uncopied .tooDeep) := by
    simp only [serve, Checker.answer_check, answered, runReply, CheckResult.copied,
      if_neg uncopyable]
  simp only [handle_of_call called, reply, Except.bind]

end Server

end Api

/-! ## Showing the collection -/

/-- A diagnostic as an answer shows it. -/
def Diagnostic.shown (number : Binary64 → Value) (diagnostic : Diagnostic) : Diagnostic :=
  { diagnostic with code := diagnostic.code.withNumbers number }

/-- Only the code of a diagnostic can have other numbers in an answer. -/
theorem Diagnostic.withNumbers_toValue (number : Binary64 → Value) (diagnostic : Diagnostic) :
    diagnostic.toValue.withNumbers number = (diagnostic.shown number).toValue := by
  have related : Value.itemsWithNumbers number
      (diagnostic.related.map RelatedInformation.toValue) =
        diagnostic.related.map RelatedInformation.toValue := by
    rw [Value.itemsWithNumbers_eq_map, List.map_map]
    rfl
  simp only [toValue, shown, Value.withNumbers, Value.entriesWithNumbers, related]
  rfl

/-- All diagnostics keep their files and their order in an answer. -/
theorem Diagnostic.withNumbers_objectOf (number : Binary64 → Value)
    (byFile : Keyed (List Diagnostic)) :
    (objectOf byFile).withNumbers number =
      .object (byFile.map fun entry =>
        (entry.1, .array (entry.2.map fun diagnostic => (diagnostic.shown number).toValue))) := by
  have items : ∀ diagnostics : List Diagnostic, (arrayOf diagnostics).withNumbers number =
      .array (diagnostics.map fun diagnostic => (diagnostic.shown number).toValue) := by
    intro diagnostics
    rw [arrayOf, Value.withNumbers, Value.itemsWithNumbers_eq_map, List.map_map]
    simp only [Function.comp_def, withNumbers_toValue]
  rw [objectOf, Value.withNumbers, Value.entriesWithNumbers_eq_map, List.map_map]
  simp only [Function.comp_def, items]

namespace Api.Server

variable {framework : Framework} {number : Binary64 → Value}

/-- The collection as it is shown: the number of its files, the number of its diagnostics,
and all diagnostics in order. -/
def overview (number : Binary64 → Value) (collection : Collection) : Value :=
  .object
    [("files", .int collection.files.length),
      ("total", .int (collection.byFile.flatMap Prod.snd).length),
      ("diagnostics", .object (collection.byFile.map fun entry =>
        (entry.1, .array (entry.2.map fun diagnostic => (diagnostic.shown number).toValue))))]

/-- The listing in an answer is the overview of the collection. -/
theorem withNumbers_collectionValue (number : Binary64 → Value) (collection : Collection) :
    (collectionValue collection).withNumbers number = overview number collection := by
  have total : collection.total = (collection.byFile.flatMap Prod.snd).length :=
    Keyed.total_eq_length_flatMap collection.byFile
  simp only [collectionValue, overview, total, Value.withNumbers, Value.entriesWithNumbers,
    Diagnostic.withNumbers_objectOf]

/-- A request for all diagnostics. -/
def listing (query : Keyed String) (body : List UInt8) : Request :=
  { method := "GET", path := "/api/diagnostics", query, body }

/-- The listing is asked for whatever the query and the body are. -/
theorem dispatch_listing (faithful : framework.IsFaithful number) (query : Keyed String)
    (body : List UInt8) : framework.dispatch (listing query body) = .call .showDiagnostics :=
  faithful.calls ⟨"/api/diagnostics", "GET", .showDiagnostics⟩ (by simp [routes]) _ rfl query body

/-- A collection that is reached and can be presented is shown. -/
theorem handle_listing (faithful : framework.IsFaithful number) (checker : Checker)
    {requests : List Request}
    (presentable : (afterRequests framework checker requests).IsPresentable) (query : Keyed String)
    (body : List UInt8) :
    handle framework checker (afterRequests framework checker requests) (listing query body) =
      { response := .ok
          { status := 200, body := overview number (afterRequests framework checker requests) }
        collection := afterRequests framework checker requests } := by
  have called := dispatch_listing faithful query body
  have sendable : (collectionValue (afterRequests framework checker requests)).IsSendable := by
    rw [afterRequests_eq] at presentable ⊢
    exact presentable.isSendable
  have reply : (serve checker (afterRequests framework checker requests) .showDiagnostics).reply =
      .ok (.returned (collectionValue (afterRequests framework checker requests))) :=
    if_pos presentable.shallow.areCopyable
  have answer := faithful.answers Shape.collection _ (Shape.fits_collection _) sendable
  rw [withNumbers_collectionValue] at answer
  rw [handle_of_call called, reply]
  exact congrArg (Exchange.mk · _) answer

/-- A collection that cannot be copied is not shown. -/
theorem handle_listing_of_uncopyable (faithful : framework.IsFaithful number) (checker : Checker)
    {collection : Collection} (uncopyable : ¬ Diagnostic.areCopyable collection.byFile)
    (query : Keyed String) (body : List UInt8) :
    handle framework checker collection (listing query body) =
      { response := .error (.uncopied .tooDeep), collection } := by
  have reply : (serve checker collection .showDiagnostics).reply = .error (.uncopied .tooDeep) :=
    if_neg uncopyable
  rw [handle_of_call (dispatch_listing faithful query body), reply]
  rfl

/-- **Failed requests and later ones.** After any course of requests, a further one that is not
answered as a success changes nothing, neither at once nor for what comes later, unless it is a run
whose result cannot be presented. The diagnostics of a run are held whatever becomes of its answer;
if they cannot be copied it breaks down, and the collection cannot be copied from then on. The
collection is shown as long as it can be presented: the answer is plain JSON with the number of
files, the number of diagnostics, and under each file, which is there once, its diagnostics in
order. It is not shown while one of them cannot be copied. -/
theorem requests_keep (faithful : framework.IsFaithful number) (checker : Checker)
    (requests : List Request) :
    (∀ request, ¬ request.IsLost framework checker →
      ¬ (handle framework checker (afterRequests framework checker requests)
        request).HasStatus 200 →
      (handle framework checker (afterRequests framework checker requests) request).collection =
          afterRequests framework checker requests ∧
        ∀ later, afterRequests framework checker (requests ++ request :: later) =
          afterRequests framework checker (requests ++ later)) ∧
    (∀ request kind fields result, framework.dispatch request = .call (.parse kind fields) →
      checker.result (fields.request kind) = .ok result →
      afterRequests framework checker (requests ++ [request]) =
          (afterRequests framework checker requests).mergeAll result.diagnostics ∧
        (¬ Diagnostic.areCopyable result.diagnostics →
          (handle framework checker (afterRequests framework checker requests) request).response =
              .error (.uncopied .tooDeep) ∧
            ¬ Diagnostic.areCopyable
              (afterRequests framework checker (requests ++ [request])).byFile)) ∧
    (∀ query body, (afterRequests framework checker requests).IsPresentable →
      handle framework checker (afterRequests framework checker requests) (listing query body) =
        { response := .ok
            { status := 200, body := overview number (afterRequests framework checker requests) }
          collection := afterRequests framework checker requests }) ∧
    (∀ query body, ¬ Diagnostic.areCopyable (afterRequests framework checker requests).byFile →
      handle framework checker (afterRequests framework checker requests) (listing query body) =
        { response := .error (.uncopied .tooDeep)
          collection := afterRequests framework checker requests }) ∧
    (overview number (afterRequests framework checker requests)).isStrict ∧
    (afterRequests framework checker requests).files.Nodup := by
  have distinct := nodup_files_afterRequests framework checker requests
  refine ⟨?failed, ?run, ?shown, ?hidden, ?strict, distinct⟩
  case failed =>
    intro request kept failed
    exact ⟨collection_handle_of_failed faithful failed kept,
      afterRequests_of_failed faithful failed kept⟩
  case run =>
    intro request kind fields result called answered
    have gained := (afterRequests_concat framework checker requests request).trans
      (collection_handle_of_result called answered)
    refine ⟨gained, fun uncopyable => ⟨response_of_uncopyable called answered uncopyable, ?_⟩⟩
    rw [gained]
    exact not_areCopyable_mergeAll answered distinct uncopyable
  case shown =>
    intro query body presentable
    exact handle_listing faithful checker presentable query body
  case hidden =>
    intro query body uncopyable
    exact handle_listing_of_uncopyable faithful checker uncopyable query body
  case strict =>
    rw [← withNumbers_collectionValue]
    exact Value.isStrict_withNumbers faithful.strict _

/-- A run without a body is refused, and a removal after it finds what it would have found
without it. -/
theorem requests_keep_bodiless :
    let checker : Checker := { registry := ⟨[{}]⟩ }
    let run : Request := { method := "POST", path := "/api/parse/file" }
    let clearance : Request := { method := "DELETE", path := "/api/diagnostics" }
    (∃ response, (handle .standard checker .empty run).response = .ok response ∧
      response.status = 422) ∧
    afterRequests .standard checker ([] ++ run :: [clearance]) =
      afterRequests .standard checker ([] ++ [clearance]) := by
  intro checker run clearance
  have refused : ∃ response, Framework.standard.dispatch run = .answer (.ok response) ∧
      response.status = 422 := ⟨_, rfl, rfl⟩
  obtain ⟨response, dispatched, status⟩ := refused
  have answered := @handle_of_answer _ checker .empty run _ dispatched
  obtain ⟨kept, _⟩ := requests_keep Framework.isFaithful_standard checker []
  refine ⟨⟨response, congrArg Exchange.response answered, status⟩, (kept run ?_ ?_).2 _⟩
  · rintro ⟨kind, fields, result, called, _⟩
    cases dispatched.symm.trans called
  · rintro ⟨other, given, success⟩
    rw [afterRequests, List.foldl_nil, answered, Except.ok.injEq] at given
    exact absurd (status.symm.trans (given ▸ success)) (by decide)

/-! ## A run that is lost -/

/-- What is told of a run whose only issue has so many arrays inside one another as its code. -/
def nestedFields (depth : Nat) : RunFields :=
  { tool := "mago", command := "lint", output := Issue.nestedReport depth, target := "/x.php" }

/-- Sends such a run in. -/
def nestedRun (depth : Nat) : Request :=
  { method := "POST", path := "/api/parse/file", body := RunKind.file.bytes (nestedFields depth) }

/-- The run reaches its endpoint with the fields it was sent with. -/
theorem dispatch_nestedRun (depth : Nat) :
    Framework.standard.dispatch (nestedRun depth) = .call (.parse .file (nestedFields depth)) := by
  have routed : route "POST" "/api/parse/file" = .ok (.parse .file) := by decide
  have read := @fieldsOfBody_bytes .file (nestedFields depth) (by simp [nestedFields, runCommands])
  simp only [Framework.standard, nestedRun, routed, Framework.dispatchAt, read]

/-- The run is lost, and what it leaves cannot be shown. -/
theorem handle_nestedRun {checker : Checker} {depth : Nat} (known : checker.Knows (.ofLint ""))
    (roomy : 2000 ≤ checker.settings.maxOutputChars) (deep : copyDepth < depth)
    (room : depth < maxDepth) :
    (handle .standard checker .empty (nestedRun depth)).response = .error (.uncopied .tooDeep) ∧
      ¬ Diagnostic.areCopyable (afterRequests .standard checker [nestedRun depth]).byFile := by
  obtain ⟨result, answered, uncopyable⟩ :=
    Checker.exists_result_nestedReport known roomy deep room
  have called := dispatch_nestedRun depth
  have gained := @collection_handle_of_result _ _ .empty _ _ _ called _ answered
  refine ⟨response_of_uncopyable called answered uncopyable, ?_⟩
  rw [afterRequests, List.foldl_cons, List.foldl_nil, gained]
  exact not_areCopyable_mergeAll answered List.nodup_nil uncopyable

/-- A run that breaks down changes the collection, and then the collection is not shown. -/
theorem requests_lose :
    let checker : Checker := { registry := ⟨[{}]⟩ }
    ¬ (handle .standard checker .empty (nestedRun 600)).HasStatus 200 ∧
      afterRequests .standard checker [nestedRun 600] ≠ .empty ∧
      ¬ (handle .standard checker (afterRequests .standard checker [nestedRun 600])
        (listing [] [])).HasStatus 200 := by
  intro checker
  have known : checker.Knows (.ofLint "") :=
    ⟨"mago", rfl, Registry.mem_tools.mpr ⟨{}, List.mem_singleton_self _, rfl⟩⟩
  have roomy : 2000 ≤ checker.settings.maxOutputChars := by simp [checker]
  obtain ⟨broken, uncopyable⟩ := @handle_nestedRun checker 600 known roomy
    (by simp [copyDepth]) (by simp [maxDepth])
  generalize afterRequests .standard checker [nestedRun 600] = left at uncopyable ⊢
  have hidden := handle_listing_of_uncopyable Framework.isFaithful_standard checker uncopyable [] []
  refine ⟨?_, ?_, ?_⟩
  · rintro ⟨response, answered, _⟩
    rw [broken] at answered
    cases answered
  · rintro rfl
    exact uncopyable rfl
  · rintro ⟨response, answered, _⟩
    rw [hidden] at answered
    cases answered

end Api.Server

end LintReport
