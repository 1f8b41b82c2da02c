import LintReport.Proofs.Issue.Fields
import LintReport.Proofs.Report.Document

/-! # Reading an output cannot fail

A fault of a JSON text only decides how an output is read, and a coordinate that denotes
no number has a default. One step of reading has no such way out: a note is spelled out,
and a whole number with too many digits cannot be. `Findings.attempt` takes this failure
into account, and it never comes to it (`Findings.attempt_eq`), because such a number is
not read in the first place. -/

namespace LintReport

open Json

/-- Spells a value out; it fails at a value that holds a number with too many digits. -/
def Json.Value.spelled (value : Value) : Except Value String :=
  if value.isSpellable then .ok value.shown else .error value

/-- Reads the issue of an origin, spelling out its notes one after another. -/
def Origin.attempt (placement : Placement) : Origin → Except Value (Option Issue)
  | .line parts => .ok (some (parts.toIssue placement))
  | .value raw =>
      match Issue.ofValue? placement raw with
      | none => .ok none
      | some issue => do
          let notes ← (((raw.get? "notes").bind Value.items?).getD []).mapM Value.spelled
          return some { issue with notes }

/-- The findings of an output, when spelling out a note may fail. -/
def Findings.attempt (placement : Placement) (output : String) : Except Value Findings := do
  let found ← (Origin.ofOutput output).mapM (Origin.attempt placement)
  return { ofOutput placement output with issues := found.filterMap id }

theorem mapM_eq_ok {Input Output Failure : Type} {step : Input → Except Failure Output}
    {result : Input → Output} {inputs : List Input}
    (success : ∀ input ∈ inputs, step input = .ok (result input)) :
    inputs.mapM step = .ok (inputs.map result) := by
  induction inputs with
  | nil => rfl
  | cons input rest ih =>
      rw [List.mapM_cons, success input List.mem_cons_self,
        ih fun other member => success other (List.mem_cons_of_mem _ member)]
      rfl

namespace Json.Value

/-- An entry of what can be spelled out can be spelled out. -/
theorem isSpellable_of_get? {value inner : Value} {name : String} (spellable : value.isSpellable)
    (found : value.get? name = some inner) : inner.isSpellable := by
  cases value with
  | object entries =>
      exact entriesAreSpellable_iff.mp spellable _ (Keyed.mem_of_get? found)
  | _ => simp [get?, entries, Keyed.get?] at found

/-- An item of what can be spelled out can be spelled out. -/
theorem isSpellable_of_mem_items {value : Value} {items : List Value}
    (spellable : value.isSpellable) (found : value.items? = some items) :
    ∀ item ∈ items, item.isSpellable := by
  cases value with
  | array inner =>
      rw [items?, Option.some.injEq] at found
      exact areSpellable_iff.mp (found ▸ spellable)
  | _ => simp [items?] at found

end Json.Value

/-- The notes of a value without overlong numbers are spelled out. -/
theorem Origin.attempt_value {raw : Value} (spellable : raw.isSpellable) (placement : Placement) :
    (Origin.value raw).attempt placement = .ok (Issue.ofValue? placement raw) := by
  have spelled : (((raw.get? "notes").bind Value.items?).getD []).mapM Value.spelled =
      .ok (Issue.notesOf raw) := by
    refine mapM_eq_ok fun note inside => if_pos ?_
    cases listed : (raw.get? "notes").bind Value.items? with
    | none => simp [listed] at inside
    | some notes =>
        obtain ⟨value, there, items⟩ := Option.bind_eq_some_iff.mp listed
        rw [listed, Option.getD_some] at inside
        exact Value.isSpellable_of_mem_items (Value.isSpellable_of_get? spellable there) items
          note inside
  rw [attempt]
  cases reported : Issue.ofValue? placement raw with
  | none => rfl
  | some issue =>
      simp only [spelled, ← (Issue.isRead_of_ofValue? reported).notes]
      rfl

/-- Converting an origin of a report that was read does not fail. -/
theorem Origin.attempt_eq {placement : Placement} {output : String} {origin : Origin}
    (member : origin ∈ ofOutput output) :
    origin.attempt placement = .ok (origin.issue? placement) := by
  cases origin with
  | line parts => rfl
  | value raw =>
      obtain ⟨token, denotes⟩ := denotes_of_mem member
      exact attempt_value denotes.isSpellable placement

/-- **Reading an output cannot fail.** With the failure to spell out a note taken into
account, the findings are what they are without. -/
theorem Findings.attempt_eq (placement : Placement) (output : String) :
    attempt placement output = .ok (ofOutput placement output) := by
  have each : ∀ origin ∈ Origin.ofOutput output,
      origin.attempt placement = .ok (origin.issue? placement) :=
    fun origin member => Origin.attempt_eq member
  have read := mapM_eq_ok each
  have same : ((Origin.ofOutput output).map (Origin.issue? placement)).filterMap id =
      (ofOutput placement output).issues := by
    rw [issues_eq, List.filterMap_map]
    rfl
  rw [attempt, read]
  change Except.ok { ofOutput placement output with
    issues := ((Origin.ofOutput output).map (Origin.issue? placement)).filterMap id } = _
  rw [same]

end LintReport
