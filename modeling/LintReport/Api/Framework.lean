import LintReport.Check

/-! # Endpoints and frameworks

What the service declares: the routes of its endpoints, what each endpoint is called with,
and the shape of what it returns. Everything between a request and the call of an endpoint,
and between what the endpoint returns and the response, is the work of a framework
(`Framework`), which may be any. -/

namespace LintReport.Api

open Json

/-- What a client sends. -/
structure Request where
  method : String
  path : String
  query : Keyed String := []
  body : List UInt8 := []
  deriving DecidableEq, Repr

/-- What a client gets back. -/
structure Response where
  status : Nat
  body : Value
  deriving DecidableEq

/-! ## Endpoints -/

/-- What a run that is sent in was made on. -/
inductive RunKind where
  | file
  | project
  deriving DecidableEq, Repr

/-- What the service can do. -/
inductive Endpoint where
  | health
  | listParsers
  | parse (kind : RunKind)
  | showDiagnostics
  | clearDiagnostics
  | deleteFile
  deriving DecidableEq, Repr

/-- A path, a method and the endpoint that answers them. -/
structure Route where
  path : String
  method : String
  endpoint : Endpoint
  deriving DecidableEq, Repr

/-- The routes of the service. -/
def routes : List Route :=
  [⟨"/health", "GET", .health⟩, ⟨"/api/parsers", "GET", .listParsers⟩,
    ⟨"/api/parse/file", "POST", .parse .file⟩, ⟨"/api/parse/project", "POST", .parse .project⟩,
    ⟨"/api/diagnostics", "GET", .showDiagnostics⟩,
    ⟨"/api/diagnostics", "DELETE", .clearDiagnostics⟩,
    ⟨"/api/diagnostics/file", "DELETE", .deleteFile⟩]

/-- What a run that is sent in tells of itself. -/
structure RunFields where
  tool : String
  command : String
  output : String
  target : String
  deriving DecidableEq, Repr

/-- The target that a run has been given. -/
def RunKind.target : RunKind → String → CheckTarget
  | .file, path => .file path
  | .project, root => .workspace (some (.given root))

/-- The check that a run asks for. -/
def RunFields.request (fields : RunFields) (kind : RunKind) : CheckRequest :=
  { tool := .given fields.tool
    command := .given fields.command
    target := kind.target fields.target
    output := fields.output }

/-- An endpoint and what it is called with. -/
inductive Invocation where
  | health
  | listParsers
  | parse (kind : RunKind) (fields : RunFields)
  | showDiagnostics
  | clearDiagnostics
  | deleteFile (path : String)
  deriving DecidableEq, Repr

/-- The call of an endpoint that takes nothing from the request. -/
def Endpoint.bareCall? : Endpoint → Option Invocation
  | .health => some .health
  | .listParsers => some .listParsers
  | .showDiagnostics => some .showDiagnostics
  | .clearDiagnostics => some .clearDiagnostics
  | _ => none

/-! ## Shapes -/

/-- What is declared of a value that an endpoint returns. -/
inductive Shape where
  | anything
  | text
  | whole
  | orNull (shape : Shape)
  | list (items : Shape)
  | mapping (values : Shape)
  | record (fields : List (String × Shape))

mutual

/-- Whether a value has a shape. A record has its fields in their order and no others. -/
def Shape.fits : Shape → Value → Bool
  | .anything, _ => true
  | .text, .string _ => true
  | .whole, .int _ => true
  | .orNull shape, value => value = .null || shape.fits value
  | .list shape, .array items => items.all shape.fits
  | .mapping shape, .object entries => entries.all fun entry => shape.fits entry.2
  | .record fields, .object entries => Shape.fieldsFit fields entries
  | _, _ => false

/-- Whether entries are those of the fields of a record. -/
def Shape.fieldsFit : List (String × Shape) → List (String × Value) → Bool
  | [], [] => true
  | (name, shape) :: fields, (given, value) :: entries =>
      name = given && shape.fits value && Shape.fieldsFit fields entries
  | _, _ => false

end

namespace Shape

/-- Diagnostics by file; nothing is declared of the parts of a diagnostic. -/
def diagnostics : Shape := .mapping (.list (.mapping .anything))

/-- A failure of the tool. -/
def failure : Shape :=
  .record [("kind", .text), ("line", .orNull .whole), ("column", .orNull .whole),
    ("error_lines", .list .text)]

/-- The result of a check. -/
def result : Shape :=
  .record [("tool", .text), ("command", .text), ("target", .text), ("outcome", .text),
    ("summary", .text), ("total", .whole), ("files", .whole), ("skipped_lines", .whole),
    ("failure", .orNull failure), ("diagnostics", diagnostics)]

/-- The diagnostics that are held. -/
def collection : Shape :=
  .record [("files", .whole), ("total", .whole), ("diagnostics", diagnostics)]

end Shape

/-- The shape of what a call returns. -/
def Invocation.shape : Invocation → Shape
  | .health => .mapping .text
  | .listParsers => .list .text
  | .parse _ _ => .result
  | .showDiagnostics => .collection
  | .clearDiagnostics => .mapping .text
  | .deleteFile _ => .mapping .text

/-! ## Frameworks -/

/-- What comes of the call of an endpoint. -/
inductive Reply where
  /-- A value to be answered with. -/
  | returned (value : Value)
  /-- A refusal with a status and one sentence. -/
  | refused (status : Nat) (detail : String)
  deriving DecidableEq

/-- How a request breaks down. -/
inductive Breakdown where
  /-- The place in the configuration file that the output gives has too many digits. -/
  | unreadablePlace (problem : Numeral.TooManyDigits)
  /-- A diagnostic cannot be copied. -/
  | uncopied (fault : CopyFault)
  /-- The framework has no response. -/
  | unanswered (message : String)
  deriving DecidableEq, Repr

/-- The sentence for a breakdown. -/
def Breakdown.message : Breakdown → String
  | .unreadablePlace problem => problem.message
  | .uncopied fault => fault.message
  | .unanswered message => message

/-- What a framework makes of a request: it calls an endpoint, or it answers by itself. -/
inductive Dispatch where
  | call (invocation : Invocation)
  | answer (outcome : Except Breakdown Response)

/-- What the service is served by. -/
structure Framework where
  /-- Finds the endpoint for a request, and reads what it is called with. -/
  dispatch : Request → Dispatch
  /-- Writes the response for what an endpoint of a declared shape comes back with. -/
  respond : Shape → Reply → Except Breakdown Response

end LintReport.Api
