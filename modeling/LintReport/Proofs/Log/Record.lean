import LintReport.Log.Record
import LintReport.Proofs.Json.Ascii
import LintReport.Proofs.Json.Parts
import LintReport.Proofs.Log.Timestamp

/-! # Lines of the log

Whatever a record tells, its line has visible characters only, so no text in it can end the line
or begin another one, and reading the line gives back what was told: the level, the logger, the
message, and exactly those of the other entries that the record has (`Record.line_faithful`). -/

namespace LintReport.Log

open Json

/-! ## Entries that may be missing -/

/-- The entries for fields of which some have no value. -/
def presentEntries (fields : List (String × Option Value)) : Keyed Value :=
  fields.flatMap fun field => optionalEntry field.1 field.2

/-- An entry is present exactly if its field has a value. -/
theorem mem_presentEntries {fields : List (String × Option Value)} {name : String}
    {value : Value} :
    (name, value) ∈ presentEntries fields ↔ (name, some value) ∈ fields := by
  simp only [presentEntries, optionalEntry, List.mem_flatMap, Option.mem_toList,
    Option.map_eq_some_iff, Prod.mk.injEq]
  constructor
  · rintro ⟨⟨_, _⟩, member, _, rfl, rfl, rfl⟩
    exact member
  · exact fun member => ⟨_, member, value, rfl, rfl, rfl⟩

/-- The entries keep the order of the fields. -/
theorem keys_presentEntries_sublist (fields : List (String × Option Value)) :
    List.Sublist (presentEntries fields).keys (fields.map Prod.fst) := by
  induction fields with
  | nil => exact List.Sublist.refl _
  | cons field fields ih =>
      obtain ⟨name, value⟩ := field
      cases value with
      | none => exact ih.cons name
      | some value => exact ih.cons_cons name

/-- Fields with distinct names have their values under these names, or nothing. -/
theorem get?_presentEntries {fields : List (String × Option Value)}
    (distinct : (fields.map Prod.fst).Nodup) {name : String} {value : Option Value}
    (member : (name, value) ∈ fields) :
    (presentEntries fields).get? name = value := by
  have keys := (keys_presentEntries_sublist fields).nodup distinct
  cases value with
  | some value => exact Keyed.get?_of_mem keys (mem_presentEntries.mpr member)
  | none =>
      rw [Keyed.get?_eq_none_iff]
      intro present
      obtain ⟨⟨_, value⟩, inside, rfl⟩ := List.mem_map.mp present
      have same := List.inj_on_of_nodup_map distinct member (mem_presentEntries.mp inside) rfl
      cases same

/-! ## What a line tells -/

/-- The values that a record's context attaches. -/
def Context.values (context : Context) : List Value :=
  context.tool.toList ++ context.command.toList ++ context.target.toList

/-- The fields of a record's line, with the time and the message as texts. -/
def Record.fields (record : Record) (time message : String) : List (String × Option Value) :=
  [("ts", some (.string time)), ("level", some (.string record.level.name)),
    ("logger", some (.string record.logger)), ("msg", some (.string message)),
    ("tool", record.context.tool), ("command", record.context.command),
    ("target", record.context.target),
    ("exc", record.trouble.map fun trouble => .string trouble.text)]

/-- The names of the fields of a line. -/
def fieldNames : List String :=
  ["ts", "level", "logger", "msg", "tool", "command", "target", "exc"]

/-- Whether a value tells all of a record, whose message is filled in, and nothing else. -/
structure IsTold (record : Record) (message : String) (told : Value) : Prop where
  object : told.isObject
  distinct : told.entries.keys.Nodup
  time : ∃ time, timestamp record.created = .ok time ∧ told.get? "ts" = some (.string time)
  level : told.get? "level" = some (.string record.level.name)
  logger : told.get? "logger" = some (.string record.logger)
  message : told.get? "msg" = some (.string message)
  tool : told.get? "tool" = record.context.tool
  command : told.get? "command" = record.context.command
  target : told.get? "target" = record.context.target
  trouble : told.get? "exc" = record.trouble.map fun trouble => .string trouble.text
  only : ∀ name ∈ told.entries.keys, name ∈ fieldNames

namespace Record

variable {record : Record} {time message : String}

theorem nodup_fields : ((record.fields time message).map Prod.fst).Nodup := by
  change fieldNames.Nodup
  decide

/-- A record that can be dated and told is the object of its fields. -/
theorem toValue_eq (known : timestamp record.created = .ok time)
    (filled : record.message = .ok message) :
    record.toValue = .ok (.object (presentEntries (record.fields time message))) := by
  rw [toValue, known, filled]
  simp [details, presentEntries, fields, optionalEntry]

/-- Each field is found under its name, if it has a value. -/
theorem get?_fields {name : String} {value : Option Value}
    (member : (name, value) ∈ record.fields time message) :
    (Value.object (presentEntries (record.fields time message))).get? name = value :=
  get?_presentEntries nodup_fields member

/-- The object tells all that a record says. -/
theorem isTold (known : timestamp record.created = .ok time) :
    IsTold record message (.object (presentEntries (record.fields time message))) where
  object := rfl
  distinct := (keys_presentEntries_sublist _).nodup nodup_fields
  time := ⟨time, known, get?_fields (by simp [fields])⟩
  level := get?_fields (by simp [fields])
  logger := get?_fields (by simp [fields])
  message := get?_fields (by simp [fields])
  tool := get?_fields (by simp [fields])
  command := get?_fields (by simp [fields])
  target := get?_fields (by simp [fields])
  trouble := get?_fields (by simp [fields])
  only := fun _ member => (keys_presentEntries_sublist _).mem member

/-- What a line tells can be written if the attached values can. -/
theorem isWritable_fields {depth : Nat}
    (attached : ∀ value ∈ record.context.values, value.IsWritable depth) :
    (Value.object (presentEntries (record.fields time message))).IsWritable (depth + 1) := by
  refine Value.isWritable_object.mpr ⟨(keys_presentEntries_sublist _).nodup nodup_fields, ?_⟩
  rintro ⟨name, value⟩ member
  have text (string : String) : (Value.string string).IsWritable depth := by
    rw [Value.isWritable_iff]
    exact ⟨rfl, rfl, Nat.zero_le _⟩
  have inside := mem_presentEntries.mp member
  simp only [fields, List.mem_cons, Prod.mk.injEq, List.not_mem_nil, or_false,
    Option.some.injEq] at inside
  rcases inside with ⟨-, rfl⟩ | ⟨-, rfl⟩ | ⟨-, rfl⟩ | ⟨-, rfl⟩ | ⟨-, tool⟩ | ⟨-, command⟩ |
    ⟨-, target⟩ | ⟨-, told⟩
  · exact text time
  · exact text record.level.name
  · exact text record.logger
  · exact text message
  · exact attached value (by simp [Context.values, ← tool])
  · exact attached value (by simp [Context.values, ← command])
  · exact attached value (by simp [Context.values, ← target])
  · obtain ⟨trouble, _, rfl⟩ := Option.map_eq_some_iff.mp told.symm
    exact text trouble.text

/-- Whether a record can be told: its message is filled in, its time has a timestamp, and the
values attached to it can be written beside the rest. -/
structure IsTellable (record : Record) : Prop where
  filled : ∃ message, record.message = .ok message
  dated : IsDated record.created
  attached : ∀ value ∈ record.context.values,
    value.isSpellable ∧ value.isDistinct ∧ value.depth < maxDepth

/-- A record that can be told is told by the text of its fields, which can be read back. -/
theorem IsTellable.exists_fields (tellable : record.IsTellable)
    (filled : record.message = .ok message) :
    ∃ time, timestamp record.created = .ok time ∧
      (Value.object (presentEntries (record.fields time message))).IsWritable maxDepth ∧
      record.line =
        .ok ((Value.object (presentEntries (record.fields time message))).print .inline) := by
  obtain ⟨time, known⟩ := exists_timestamp_iff.mpr tellable.dated
  obtain ⟨depth, whole⟩ : ∃ depth, maxDepth = depth + 1 := ⟨maxDepth - 1, rfl⟩
  have inner : ∀ value ∈ record.context.values, value.IsWritable depth := by
    intro value member
    obtain ⟨spellable, distinct, shallow⟩ := tellable.attached value member
    exact Value.isWritable_iff.mpr ⟨spellable, distinct, by omega⟩
  have writable : (Value.object (presentEntries (record.fields time message))).IsWritable
      maxDepth := whole ▸ isWritable_fields inner
  refine ⟨time, known, writable, ?_⟩
  simp only [line, toValue_eq known filled, Value.dump_of_isWritable .inline writable]

theorem IsTellable.exists_line (tellable : record.IsTellable) : ∃ line, record.line = .ok line := by
  obtain ⟨message, filled⟩ := tellable.filled
  obtain ⟨_, _, _, written⟩ := tellable.exists_fields filled
  exact ⟨_, written⟩

/-- Whatever is attached to a record, a line that tells it has visible characters only. -/
theorem isVisible_of_mem_line {line : String} (written : record.line = .ok line) {char : Char}
    (member : char ∈ line.toList) : 0x20 ≤ char.toNat ∧ char.toNat ≤ 0x7E := by
  unfold Record.line at written
  split at written
  · cases written
  · split at written
    · next value _ _ text dumped =>
        obtain rfl := Except.ok.inj written
        rw [Value.eq_print_of_dump dumped] at member
        have visible := isVisible_of_mem_print value char member
        rwa [isVisible, Bool.and_eq_true, decide_eq_true_eq, decide_eq_true_eq] at visible
    · cases written

/-- **Lines of the log**: whatever a record tells, a line for it has visible characters only. There
is one if the values that are attached can be written, and reading it gives back what was told. -/
theorem line_faithful {record : Record} {message : String} (filled : record.message = .ok message)
    (dated : IsDated record.created) :
    (∀ line, record.line = .ok line →
      ∀ char ∈ line.toList, 0x20 ≤ char.toNat ∧ char.toNat ≤ 0x7E) ∧
    ((∀ value ∈ record.context.values,
        value.isSpellable ∧ value.isDistinct ∧ value.depth < maxDepth) →
      ∃ line told, record.line = .ok line ∧ Json.parse line.toList = .ok told ∧
        IsTold record message told) := by
  refine ⟨fun line written char => isVisible_of_mem_line written, fun attached => ?_⟩
  have tellable : record.IsTellable := ⟨⟨message, filled⟩, dated, attached⟩
  obtain ⟨time, known, writable, written⟩ := tellable.exists_fields filled
  obtain ⟨spellable, distinct, shallow⟩ := Value.isWritable_iff.mp writable
  exact ⟨_, _, written, parse_print .inline spellable distinct shallow, isTold known⟩

/-- An output that looks like a line of the log, with an array attached and an error. -/
theorem line_faithful_forged :
    let forged := "\"\n\x7b\"level\": \"INFO\"\x7d\\\r\x1b😀"
    let record : Record :=
      { logger := "checks\n", level := Level.debug, template := "Raw output:\n%s"
        arguments := [.string forged], created := 1772366400123456
        context := { tool := some (.array [.string "\u2028", .float (.zero true)]) }
        trouble := some { kind := "ValueError", message := "bad\nline" } }
    ∃ line told, record.line = .ok line ∧
      (∀ char ∈ line.toList, 0x20 ≤ char.toNat ∧ char.toNat ≤ 0x7E) ∧
      Json.parse line.toList = .ok told ∧ IsTold record ("Raw output:\n" ++ forged) told := by
  intro forged record
  have filled : record.message = .ok ("Raw output:\n" ++ forged) := by decide +kernel
  have dated : IsDated record.created := isDated_of_between (by decide) (by decide)
  obtain ⟨visible, faithful⟩ := line_faithful filled dated
  obtain ⟨line, told, written, read, same⟩ := faithful (by decide)
  exact ⟨line, told, written, visible line written, read, same⟩

end Record

end LintReport.Log
