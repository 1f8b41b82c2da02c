import LintReport.Diagnostic
import LintReport.Proofs.Issue.Fields
import LintReport.Proofs.Report.Attempt

/-! # What is kept of a JSON issue

A JSON value reports an issue if it is an object with a message that says something
(`Issue.Says`) and, where issues belong to the files that they name, if it names one. What is kept
of it then is its message as it stands and, as further messages at the same place, its notes and
its help (`Issue.Adds`). `Diagnostic.keeps_shown` says so of the diagnostic that is shown for
it. -/

namespace LintReport

open Json Text

namespace Issue

open Value

variable {raw : Value}

/-! ## Messages -/

/-- Whether a value is an object with a message that says something. -/
structure Says (raw : Value) (message : String) : Prop where
  object : raw.isObject
  given : raw.get? "message" = some (.string message)
  filled : ∃ char ∈ message.toList, isBlank char = false

/-- A message is found exactly if the object says it. -/
theorem message?_eq_some_iff {message : String} :
    message? raw = some message ↔ Says raw message := by
  have filled : (!isBlankText message.toList) = true ↔
      ∃ char ∈ message.toList, isBlank char = false := by
    rw [isBlankText, Bool.not_eq_true', List.all_eq_false]
    simp only [Bool.not_eq_true]
  rw [message?, Option.filter_eq_some_iff, bind_string?_eq_some_iff, filled]
  constructor
  · rintro ⟨given, filled⟩
    exact ⟨isObject_of_get? given, given, filled⟩
  · intro told
    exact ⟨told.given, told.filled⟩

/-! ## Further messages -/

/-- Whether these are the notes of an issue; what is no array has none. -/
inductive Notes (raw : Value) : List Value → Prop
  | listed {notes : List Value} (given : raw.get? "notes" = some (.array notes)) : Notes raw notes
  | unlisted (other : ∀ notes, raw.get? "notes" ≠ some (.array notes)) : Notes raw []

/-- Whether this is the help of an issue, if it has any. -/
inductive Helps (raw : Value) : List String → Prop
  | given {help : String} (filled : IsFilled (raw.get? "help") help) : Helps raw [help]
  | nothing (missing : ∀ help, ¬ IsFilled (raw.get? "help") help) : Helps raw []

/-- Whether these are the messages that are shown along with that of an issue. -/
inductive Adds (raw : Value) : List String → Prop
  | shown {notes : List Value} {help : List String} (noted : Notes raw notes)
      (helped : Helps raw help) :
      Adds raw (notes.map (fun note => "Note: " ++ note.shown) ++ help.map ("Help: " ++ ·))

/-- The notes of an object are shown one by one. -/
theorem exists_notes (raw : Value) :
    ∃ notes, Notes raw notes ∧ notesOf raw = notes.map shown := by
  rw [notesOf]
  cases listed : (raw.get? "notes").bind items? with
  | some notes => exact ⟨notes, .listed (bind_items?_eq_some_iff.mp listed), rfl⟩
  | none =>
      refine ⟨[], .unlisted fun notes given => ?_, rfl⟩
      rw [bind_items?_eq_some_iff.mpr given] at listed
      cases listed

/-- The help of an object is at most one text that is not empty. -/
theorem exists_help (raw : Value) :
    ∃ help, Helps raw help ∧
      (((raw.get? "help").bind filledString?).filter (· ≠ "")).toList = help := by
  cases found : (raw.get? "help").bind filledString? with
  | some help =>
      have filled := bind_filledString?_eq_some_iff.mp found
      have kept : (some help).filter (· ≠ "") = some help :=
        Option.filter_eq_some_iff.mpr ⟨rfl, decide_eq_true filled.2⟩
      exact ⟨[help], .given filled, by rw [kept, Option.toList_some]⟩
  | none => exact ⟨[], .nothing (bind_filledString?_eq_none_iff.mp found), rfl⟩

/-! ## Files -/

/-- Whether an issue belongs to a file. -/
inductive BelongsTo (raw : Value) : Placement → String → Prop
  | pinned (file : String) : BelongsTo raw (.pinned file) file
  | under {root reported : String} (named : Names raw reported) :
      BelongsTo raw (.under root) (SourcePath.resolve reported root)

/-- An issue is placed in a file exactly if it belongs there. -/
theorem file?_eq_some_iff {placement : Placement} {file : String} :
    placement.file? (reportedFile? raw) = some file ↔ BelongsTo raw placement file := by
  cases placement with
  | pinned given =>
      rw [Placement.file?, Option.some.injEq]
      constructor
      · rintro rfl
        exact .pinned given
      · intro belongs
        cases belongs
        rfl
  | under root =>
      rw [Placement.file?, Option.map_eq_some_iff]
      simp only [reportedFile?_eq_some_iff]
      constructor
      · rintro ⟨reported, named, rfl⟩
        exact .under named
      · intro belongs
        cases belongs with
        | under named => exact ⟨_, named, rfl⟩

/-! ## Reading an issue -/

/-- An object reports an issue exactly if it has a message and a file. -/
theorem isSome_ofValue?_iff {placement : Placement} :
    (ofValue? placement raw).isSome ↔
      (∃ message, Says raw message) ∧ ∃ file, BelongsTo raw placement file := by
  simp only [isSome_ofValue?, Bool.and_eq_true, Option.isSome_iff_exists, message?_eq_some_iff,
    file?_eq_some_iff]

/-- The further messages of an issue are the notes and then the help of its object. -/
theorem adds_furtherMessages {placement : Placement} {issue : Issue}
    (read : IsRead placement raw issue) : Adds raw issue.furtherMessages := by
  obtain ⟨notes, noted, shown⟩ := exists_notes raw
  obtain ⟨help, helped, same⟩ := exists_help raw
  rw [furtherMessages, read.notes, read.help, shown, List.map_map, Option.toList_map, same]
  exact .shown noted helped

end Issue

/-! ## Diagnostics -/

namespace Diagnostic

open Issue

/-- Whether a diagnostic shows an issue with these messages along with its own, and is written
so. -/
structure Shows (raw : Value) (messages : List String) (diagnostic : Diagnostic) : Prop where
  message : Says raw diagnostic.message
  related : diagnostic.related = messages.map fun message =>
    ⟨diagnostic.file, diagnostic.span, message⟩
  written : diagnostic.toValue.get? "related_information" =
    some (.array (messages.map fun message => .object
      [("file", .string diagnostic.file), ("range", diagnostic.span.toValue),
        ("message", .string message)]))
  /-- It is handed out as it is written, as long as its code is not too deep to be copied. -/
  copied : ∀ value, diagnostic.copied = .ok value ↔
    diagnostic.code.depth ≤ copyDepth ∧ value = diagnostic.toValue

/-- **An issue is kept for its message and its file**, and then its diagnostic shows what it says.
The notes of a value that a JSON text denotes can always be spelled out. -/
theorem keeps_shown (raw : Value) :
    (∀ depth token, Denotes depth token raw → ∀ placement,
      (Origin.value raw).attempt placement = .ok (ofValue? placement raw)) ∧
    (∀ file, (ofValue? (.pinned file) raw).isSome ↔ ∃ message, Says raw message) ∧
    (∀ root, (ofValue? (.under root) raw).isSome ↔
      (∃ message, Says raw message) ∧ ∃ reported, Names raw reported) ∧
    ∀ placement issue, ofValue? placement raw = some issue → ∀ source, ∃ messages,
      Adds raw messages ∧ BelongsTo raw placement (ofIssue issue source).file ∧
        (ofIssue issue source).Shows raw messages := by
  refine ⟨?_, ?_, ?_, ?_⟩
  · intro depth token denotes placement
    exact Origin.attempt_value denotes.isSpellable placement
  · intro file
    rw [isSome_ofValue?_iff]
    exact and_iff_left ⟨file, .pinned file⟩
  · intro root
    rw [isSome_ofValue?_iff]
    refine and_congr_right fun _ => ⟨?_, ?_⟩
    · rintro ⟨file, belongs⟩
      cases belongs with
      | under named => exact ⟨_, named⟩
    · rintro ⟨reported, named⟩
      exact ⟨_, .under named⟩
  · intro placement issue reported source
    have read := isRead_of_ofValue? reported
    refine ⟨issue.furtherMessages, adds_furtherMessages read, file?_eq_some_iff.mp read.file,
      message?_eq_some_iff.mp read.message, rfl, ?_, fun value => copied_eq_ok_iff⟩
    have written : (ofIssue issue source).toValue.get? "related_information" =
        some (.array ((ofIssue issue source).related.map RelatedInformation.toValue)) := rfl
    rw [written, ofIssue, List.map_map]
    rfl

/-- Notes of any kind, and a message with blanks around it. -/
theorem keeps_shown_notes :
    let raw : Value := .object [("message", .string " m "), ("file", .string "b.php"),
      ("notes", .array [.int 1, .null, .array [.string "a"]]), ("help", .string "h")]
    (∃ token, Denotes maxDepth token raw ∧
      (Origin.value raw).attempt (.under "/w") = .ok (ofValue? (.under "/w") raw)) ∧
    ∃ issue, ofValue? (.under "/w") raw = some issue ∧
      issue.furtherMessages = ["Note: 1", "Note: None", "Note: ['a']", "Help: h"] ∧
      ∃ messages, Adds raw messages ∧ BelongsTo raw (.under "/w") (ofIssue issue "mago").file ∧
        (ofIssue issue "mago").Shows raw messages := by
  intro raw
  have written : Denotes maxDepth (write .inline 0 raw) raw :=
    denotes_write .inline (Value.isWritable_iff.mpr ⟨by decide, by decide, by decide⟩)
  obtain ⟨attempted, _, _, shown⟩ := keeps_shown raw
  exact ⟨⟨_, written, attempted _ _ written (.under "/w")⟩, _, rfl, by decide,
    shown (.under "/w") _ rfl "mago"⟩

end Diagnostic

end LintReport
