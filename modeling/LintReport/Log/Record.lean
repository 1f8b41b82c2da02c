import LintReport.Json.Printer
import LintReport.Log.Level
import LintReport.Log.Template
import LintReport.Log.Timestamp

/-! # Log records

One event that is told in the log, and the line that tells it: a JSON object on one
line of ASCII, so that no text in it can end the line (`Record.line`). -/

namespace LintReport.Log

open Json

/-- An error that a record tells of. -/
structure Trouble where
  kind : String
  message : String
  deriving DecidableEq, Repr

/-- The text of an error: its kind, and its message unless that is empty. -/
def Trouble.text (trouble : Trouble) : String :=
  if trouble.message = "" then trouble.kind else trouble.kind ++ ": " ++ trouble.message

/-- What a record says about the check that it belongs to. -/
structure Context where
  tool : Option Value := none
  command : Option Value := none
  target : Option Value := none
  deriving DecidableEq

/-- One event. The time is given in microseconds since the epoch. -/
structure Record where
  logger : String
  level : Level
  template : String
  arguments : List Value := []
  created : Int := 0
  context : Context := {}
  trouble : Option Trouble := none
  deriving DecidableEq

/-- Why a record cannot be told. -/
inductive RecordFault where
  | template (fault : TemplateFault)
  | time (fault : TimeFault)
  /-- What it says cannot be written out. -/
  | unwritable
  deriving DecidableEq, Repr

/-- The entry of an object for a value that may be missing. -/
def optionalEntry (name : String) (value : Option Value) : List (String × Value) :=
  (value.map fun value => (name, value)).toList

namespace Record

/-- The message with its arguments filled in. -/
def message (record : Record) : Except TemplateFault String :=
  fill record.template record.arguments

/-- What the line says after its time. -/
def details (record : Record) (message : String) : List (String × Value) :=
  [("level", .string record.level.name),
      ("logger", .string record.logger),
      ("msg", .string message)] ++
    optionalEntry "tool" record.context.tool ++
    optionalEntry "command" record.context.command ++
    optionalEntry "target" record.context.target ++
    optionalEntry "exc" (record.trouble.map fun trouble => .string trouble.text)

/-- What the line says, as a JSON object. A fault of the time is found before one of the
message. -/
def toValue (record : Record) : Except RecordFault Value :=
  match timestamp record.created, record.message with
  | .ok time, .ok message => .ok (.object (("ts", .string time) :: record.details message))
  | .error fault, _ => .error (.time fault)
  | _, .error fault => .error (.template fault)

/-- The line that tells a record. -/
def line (record : Record) : Except RecordFault String :=
  match record.toValue with
  | .error fault => .error fault
  | .ok value =>
      match value.dump .inline with
      | some line => .ok line
      | none => .error .unwritable

end Record

end LintReport.Log
