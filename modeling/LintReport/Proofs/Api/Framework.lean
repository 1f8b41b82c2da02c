import LintReport.Api.Server
import LintReport.Api.Standard
import LintReport.Proofs.Check.Writable
import LintReport.Proofs.Json.Ascii
import LintReport.Proofs.Json.Value
import LintReport.Proofs.Text.Utf8

/-! # Frameworks that can be relied on

What the service relies on in the framework that it is served by (`Framework.IsFaithful`): the
endpoints that take nothing from a request are found at their routes, and what an endpoint comes
back with is answered, as far as it can be sent (`Value.IsSendable`). Nothing is said of how bodies
are read, nor of values that nest deeper or have texts that may be none. There is such a framework
(`Framework.isFaithful_standard`). Results of checks, and collections that are reached by them, can
be sent as far as they can be presented (`CheckResult.IsPresentable`,
`Collection.IsPresentable`). -/

namespace LintReport

open Json

/-! ## What can be sent -/

/-- Whether a text can be encoded: nothing in it stands in for half of a pair. -/
def Text.isEncodable (text : String) : Bool :=
  !text.toList.contains Utf16.standIn

namespace Json.Value

mutual

/-- Whether all texts inside a value can be encoded, the names of entries included. -/
def isEncodable : Value → Bool
  | .string text => Text.isEncodable text
  | .array items => areEncodable items
  | .object entries => entriesAreEncodable entries
  | _ => true

/-- Whether all texts inside the values of a list can be encoded. -/
def areEncodable : List Value → Bool
  | [] => true
  | value :: rest => value.isEncodable && areEncodable rest

/-- Whether all texts inside entries can be encoded. -/
def entriesAreEncodable : List (String × Value) → Bool
  | [] => true
  | (name, value) :: rest =>
      Text.isEncodable name && value.isEncodable && entriesAreEncodable rest

end

/-- Entries can be encoded exactly if each name and each value can. -/
theorem entriesAreEncodable_iff {entries : List (String × Value)} :
    entriesAreEncodable entries ↔
      ∀ entry ∈ entries, Text.isEncodable entry.1 ∧ entry.2.isEncodable := by
  induction entries with
  | nil => simp [entriesAreEncodable]
  | cons entry rest ih => simp [entriesAreEncodable, ih]

end Json.Value

/-- The number of containers that may nest in an answer, whatever the framework. -/
def answerDepth : Nat := 128

/-- Whether a value can be sent: it can be written and encoded, and does not nest deep. -/
structure Json.Value.IsSendable (value : Value) : Prop where
  spellable : value.isSpellable
  distinct : value.isDistinct
  shallow : value.depth ≤ answerDepth
  encodable : value.isEncodable

/-- What can be written within the depth of answers and encoded can be sent. -/
theorem Json.Value.IsWritable.isSendable {value : Value} (writable : value.IsWritable answerDepth)
    (encodable : value.isEncodable) : value.IsSendable := by
  obtain ⟨spellable, distinct, shallow⟩ := Value.isWritable_iff.mp writable
  exact ⟨spellable, distinct, shallow, encodable⟩

namespace Api

/-! ## Faithful frameworks -/

/-- What is relied on in a framework, where `number` is what it writes for a floating-point
number. -/
structure Framework.IsFaithful (framework : Framework) (number : Binary64 → Value) : Prop where
  /-- An endpoint that takes nothing from a request is called for its route, whatever else is
  sent. -/
  calls : ∀ route ∈ routes, ∀ invocation, route.endpoint.bareCall? = some invocation →
    ∀ query body, framework.dispatch
      { method := route.method, path := route.path, query, body } = .call invocation
  /-- A removal is called with the path that the query gives. -/
  removes : ∀ query path body, query.get? "path" = some path → framework.dispatch
    { method := "DELETE", path := "/api/diagnostics/file", query, body } = .call (.deleteFile path)
  /-- A value of the declared shape is answered with if it can be sent. -/
  answers : ∀ shape value, shape.fits value → value.IsSendable →
    framework.respond shape (.returned value) =
      .ok { status := 200, body := value.withNumbers number }
  /-- A value is answered as a success or not at all. -/
  succeeds : ∀ shape value response,
    framework.respond shape (.returned value) = .ok response → response.status = 200
  /-- A refusal is answered with its sentence if that can be encoded. -/
  refuses : ∀ shape status detail, Text.isEncodable detail →
    framework.respond shape (.refused status detail) = .ok (detailed status detail)
  /-- A refusal is answered with its status or not at all. -/
  insists : ∀ shape status detail response,
    framework.respond shape (.refused status detail) = .ok response → response.status = status
  /-- Finite numbers are written as they are. -/
  finite : ∀ value : Binary64, value.isFinite → number value = .float value
  /-- Plain JSON is written. -/
  strict : ∀ value, (number value).isStrict

/-- The standard framework writes `null` for what is no finite number. -/
theorem Framework.isFaithful_standard : standard.IsFaithful plainNumber where
  calls := by
    intro known listed invocation bare query body
    have routed : ∀ known ∈ routes, route known.method known.path = .ok known.endpoint := by decide
    simp only [standard, routed known listed]
    cases endpoint : known.endpoint <;> rw [endpoint] at bare <;> cases bare <;> rfl
  removes := by
    intro query path body named
    have routed : route "DELETE" "/api/diagnostics/file" = .ok .deleteFile := by decide
    simp only [standard, routed, dispatchAt, named]
  answers := fun _ _ _ _ => rfl
  succeeds := by
    rintro shape value response answered
    exact (Except.ok.inj answered) ▸ rfl
  refuses := fun _ _ _ _ => rfl
  insists := by
    rintro shape status detail response answered
    exact (Except.ok.inj answered) ▸ rfl
  finite := fun _ finite => if_pos finite
  strict := by
    intro value
    unfold plainNumber
    split
    · next finite => exact finite
    · rfl

/-! ## Runs that are sent in -/

/-- The body that tells of a run. -/
def RunKind.body (kind : RunKind) (fields : RunFields) : Value :=
  .object
    [("tool", .string fields.tool), ("command", .string fields.command),
      ("output", .string fields.output), (kind.targetField, .string fields.target)]

/-- The bytes of the body that tells of a run. -/
def RunKind.bytes (kind : RunKind) (fields : RunFields) : List UInt8 :=
  Text.Utf8.encode ((kind.body fields).print .inline).toList

/-- The fields of a run are read back from the object that they are sent in. -/
theorem fieldsOfObject_body (kind : RunKind) {fields : RunFields}
    (known : fields.command ∈ runCommands) :
    fieldsOfObject kind (kind.body fields) = .ok fields := by
  cases kind <;>
    simp [fieldsOfObject, RunKind.body, RunKind.targetField, readField, Value.get?, Value.entries,
      Keyed.get?, acceptString, acceptCommand, known]

/-- **A run that is sent in is read back** by the standard framework. -/
theorem fieldsOfBody_bytes (kind : RunKind) {fields : RunFields}
    (known : fields.command ∈ runCommands) :
    fieldsOfBody kind (kind.bytes fields) = .ok fields := by
  obtain ⟨rest, written⟩ : ∃ rest, ((kind.body fields).print .inline).toList =
      '{' :: '"' :: rest := by
    simp only [RunKind.body, Value.print, String.toList_ofList, write, writeEntries]
    exact ⟨_, rfl⟩
  have read : Text.Encoding.read? (kind.bytes fields) =
      some ((kind.body fields).print .inline).toList := by
    rw [RunKind.bytes, written]
    exact Text.Encoding.read?_encode (by decide) (by decide) rest
  have filled : kind.bytes fields ≠ [] := by
    rw [RunKind.bytes, written, Text.Utf8.encode_cons_ascii (by decide)]
    exact List.cons_ne_nil _ _
  have unmarked : withoutMark ((kind.body fields).print .inline).toList =
      ((kind.body fields).print .inline).toList := by
    rw [written]
    rfl
  have distinct : (kind.body fields).isDistinct := by
    cases kind <;>
      simp [RunKind.body, RunKind.targetField, Value.isDistinct, Value.entriesAreDistinct,
        Keyed.keys]
  have shallow : (kind.body fields).depth ≤ maxDepth := by
    simp [RunKind.body, Value.depth, Value.depthOfEntries, maxDepth]
  have parsed := parse_print .inline (rfl : (kind.body fields).isSpellable) distinct shallow
  rw [fieldsOfBody, if_neg filled, read]
  simp only [unmarked, fieldsOfText, parsed]
  exact fieldsOfObject_body kind known

/-! ## Shapes of what endpoints return -/

theorem Shape.fits_diagnostics (byFile : Keyed (List Diagnostic)) :
    diagnostics.fits (Diagnostic.objectOf byFile) := by
  simp [diagnostics, fits, Diagnostic.objectOf, Diagnostic.arrayOf, Diagnostic.toValue]

theorem Shape.fits_collection (collection : Collection) :
    Shape.collection.fits (Server.collectionValue collection) := by
  simp [Shape.collection, fits, fieldsFit, Server.collectionValue, fits_diagnostics]

/-- A failure has its declared shape, and so has none. -/
theorem Shape.fits_failure (failure : Option ToolFailure) :
    (orNull Shape.failure).fits ((failure.map ToolFailure.toValue).getD .null) := by
  have place : ∀ number : Option Int, (orNull whole).fits (optionalInt number) := by
    intro number
    cases number <;> rfl
  cases failure with
  | none => rfl
  | some failure =>
      have line := place failure.line
      have column := place failure.column
      simp [Shape.failure, fits, fieldsFit, ToolFailure.toValue] at line column ⊢
      exact ⟨line, column⟩

/-- The result of a run that is sent in has texts for its labels, and so the declared shape. -/
theorem Shape.fits_result {checker : Checker} {kind : RunKind} {fields : RunFields}
    {result : CheckResult} (answered : checker.result (fields.request kind) = .ok result) :
    Shape.result.fits result.toValue := by
  have labelled : result.tool = .given fields.tool ∧ result.command = .given fields.command ∧
      result.target = kind.target fields.target := by
    obtain ⟨parser, _, ⟨failure, _, rfl⟩ | ⟨_, rfl⟩⟩ := Checker.result_eq_ok_iff.mp answered
    · exact ⟨rfl, rfl, rfl⟩
    · exact ⟨rfl, rfl, rfl⟩
  obtain ⟨tool, command, target⟩ := labelled
  have path : text.fits (kind.target fields.target).toValue := by
    cases kind <;> rfl
  have failure := fits_failure result.failure
  simp [Shape.result, fits, fieldsFit, CheckResult.toValue, tool, command, target, Label.toValue,
    fits_diagnostics, path] at failure ⊢
  exact failure

end Api

/-! ## Results and collections that can be sent -/

/-- Whether the codes of diagnostics leave room for the four containers around them. -/
def Diagnostic.AreShallow (byFile : Keyed (List Diagnostic)) : Prop :=
  ∀ entry ∈ byFile, ∀ diagnostic ∈ entry.2, diagnostic.code.depth + 4 ≤ answerDepth

instance (byFile : Keyed (List Diagnostic)) : Decidable (Diagnostic.AreShallow byFile) :=
  inferInstanceAs (Decidable (∀ entry ∈ byFile, ∀ diagnostic ∈ entry.2, _))

/-- Shallow diagnostics can be copied. -/
theorem Diagnostic.AreShallow.areCopyable {byFile : Keyed (List Diagnostic)}
    (shallow : AreShallow byFile) : areCopyable byFile := by
  refine areCopyable_iff.mpr fun entry member diagnostic inside => ?_
  have room := shallow entry member diagnostic inside
  unfold answerDepth copyDepth at *
  omega

/-- Whether a result can be presented to a client. -/
structure CheckResult.IsPresentable (result : CheckResult) : Prop where
  shallow : Diagnostic.AreShallow result.diagnostics
  encodable : result.toValue.isEncodable
  short : result.IsShort

instance (result : CheckResult) : Decidable result.IsPresentable :=
  decidable_of_iff (Diagnostic.AreShallow result.diagnostics ∧ result.toValue.isEncodable ∧
      result.IsShort)
    ⟨fun ⟨shallow, encodable, short⟩ => ⟨shallow, encodable, short⟩,
      fun ⟨shallow, encodable, short⟩ => ⟨shallow, encodable, short⟩⟩

/-- Whether a collection can be presented to a client. -/
structure Collection.IsPresentable (collection : Collection) : Prop where
  shallow : Diagnostic.AreShallow collection.byFile
  encodable : (Api.Server.collectionValue collection).isEncodable
  short : Numeral.IsShort collection.total

instance (collection : Collection) : Decidable collection.IsPresentable :=
  decidable_of_iff (Diagnostic.AreShallow collection.byFile ∧
      (Api.Server.collectionValue collection).isEncodable ∧ Numeral.IsShort collection.total)
    ⟨fun ⟨shallow, encodable, short⟩ => ⟨shallow, encodable, short⟩,
      fun ⟨shallow, encodable, short⟩ => ⟨shallow, encodable, short⟩⟩

/-- Shallow diagnostics with short numbers can be written within the depth of answers. -/
theorem Diagnostic.isWritable_of_isLegible {byFile : Keyed (List Diagnostic)}
    (legible : ∀ entry ∈ byFile, ∀ diagnostic ∈ entry.2, diagnostic.IsLegible)
    (shallow : AreShallow byFile) :
    ∀ entry ∈ byFile, ∀ diagnostic ∈ entry.2, diagnostic.toValue.IsWritable (answerDepth - 3) := by
  intro entry member diagnostic inside
  have room := shallow entry member diagnostic inside
  refine @IsLegible.isWritable_toValue _ (legible entry member diagnostic inside) 120 ?_
  unfold answerDepth at room
  omega

/-- A result that can be presented can be sent. -/
theorem CheckResult.IsPresentable.isSendable {checker : Checker} {request : CheckRequest}
    {result : CheckResult} (presentable : result.IsPresentable)
    (answered : checker.result request = .ok result) : result.toValue.IsSendable := by
  have legible : ∀ entry ∈ result.diagnostics, ∀ diagnostic ∈ entry.2, diagnostic.IsLegible :=
    fun _ member _ inside => Checker.isLegible_of_result answered member inside
  have each := Diagnostic.isWritable_of_isLegible legible presentable.shallow
  have distinct := (Checker.wellFiled_of_result answered).distinct
  have writable : result.toValue.IsWritable answerDepth :=
    @CheckResult.isWritable_toValue result 120 presentable.short distinct each
  exact writable.isSendable presentable.encodable

/-- A collection that is reached by checks and can be presented can be sent. -/
theorem Collection.IsPresentable.isSendable {checker : Checker} {calls : List Call}
    (presentable : (checker.afterCalls calls).IsPresentable) :
    (Api.Server.collectionValue (checker.afterCalls calls)).IsSendable := by
  have filed := Checker.wellFiled_afterCalls checker calls
  have legible : ∀ entry ∈ (checker.afterCalls calls).byFile, ∀ diagnostic ∈ entry.2,
      diagnostic.IsLegible := by
    intro entry member diagnostic inside
    obtain ⟨request, result, answered, filed, there, within⟩ :=
      Checker.exists_result_of_mem_afterCalls member inside
    exact Checker.isLegible_of_result answered there within
  have each := Diagnostic.isWritable_of_isLegible legible presentable.shallow
  have files : (checker.afterCalls calls).files.length ≤ (checker.afterCalls calls).total := by
    rw [files, Keyed.keys, List.length_map]
    exact Keyed.length_le_total filed.filled
  have counted : Numeral.IsShort (checker.afterCalls calls).files.length :=
    presentable.short.mono (by omega)
  have diagnostics := Diagnostic.isWritable_objectOf filed.distinct each
  have writable : (Api.Server.collectionValue (checker.afterCalls calls)).IsWritable
      answerDepth := by
    simpa [Api.Server.collectionValue, answerDepth, Value.isWritable_object, Value.isWritable_int,
      Keyed.keys, counted, presentable.short] using diagnostics
  exact writable.isSendable presentable.encodable

/-! ## Sentences that can be sent -/

namespace Collection

/-- A collection can be encoded exactly if its files and their diagnostics can. -/
theorem isEncodable_collectionValue_iff {collection : Collection} :
    (Api.Server.collectionValue collection).isEncodable ↔
      ∀ entry ∈ collection.byFile,
        Text.isEncodable entry.1 ∧ (Diagnostic.arrayOf entry.2).isEncodable := by
  have names : Text.isEncodable "files" ∧ Text.isEncodable "total" ∧
      Text.isEncodable "diagnostics" := by decide
  simp only [Api.Server.collectionValue, Diagnostic.objectOf, Value.isEncodable,
    Value.entriesAreEncodable, names, Bool.true_and, Bool.and_true]
  rw [Value.entriesAreEncodable_iff, List.forall_mem_map]

/-- Without one of its files a collection can be presented all the more. -/
theorem IsPresentable.delete {collection : Collection} (presentable : collection.IsPresentable)
    (file : String) : (collection.delete file).2.IsPresentable where
  shallow entry member := presentable.shallow entry (List.mem_filter.mp member).1
  encodable := by
    have encodable := isEncodable_collectionValue_iff.mp presentable.encodable
    exact isEncodable_collectionValue_iff.mpr fun entry member =>
      encodable entry (List.mem_filter.mp member).1
  short := by
    have fewer : (collection.delete file).2.total ≤ collection.total :=
      Keyed.total_erase_le file collection.byFile
    exact presentable.short.mono (by omega)

end Collection

end LintReport
