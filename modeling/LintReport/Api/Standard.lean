import LintReport.Api.Framework
import LintReport.Json.Reader
import LintReport.Text.Encoding

/-! # A framework

One framework to serve with (`Framework.standard`). A known path with a method that it does
not have is told apart from an unknown path. The body of a run is a JSON object in one of the
encodings of JSON; its fields are checked one after another, and everything that is wrong with
them is told at once. Plain JSON has no word for the infinities and for not-a-number: what an
endpoint returns is answered with `null` in their place. -/

namespace LintReport.Api

open Json

/-! ## Routing -/

/-- Why no endpoint answers. -/
inductive RouteFault where
  | notFound
  | methodNotAllowed
  deriving DecidableEq, Repr

/-- The path that routes are compared with: an unknown path counts without the slashes
that it ends with. -/
def routePath (path : String) : String :=
  if routes.any fun route => route.path = path then path
  else String.ofList (path.toList.reverse.dropWhile (· = '/')).reverse

/-- The endpoint that answers a method at a path. -/
def route (method path : String) : Except RouteFault Endpoint :=
  match routes.filter fun route => route.path = routePath path with
  | [] => .error .notFound
  | known =>
      match known.find? fun route => route.method = method with
      | some found => .ok found.endpoint
      | none => .error .methodNotAllowed

/-! ## Bodies -/

/-- What can be wrong with a part of a request. -/
inductive ProblemKind where
  | missing
  | notAString
  | notAChoice
  | notAnObject
  | malformedJson
  deriving DecidableEq, Repr

/-- The word for a kind of problem. -/
def ProblemKind.name : ProblemKind → String
  | .missing => "missing"
  | .notAString => "string_type"
  | .notAChoice => "literal_error"
  | .notAnObject => "model_attributes_type"
  | .malformedJson => "json_invalid"

/-- A step on the way to a part of a request. -/
inductive Segment where
  | name (name : String)
  | offset (offset : Nat)
  deriving DecidableEq, Repr

/-- A step as a JSON value. -/
def Segment.toValue : Segment → Value
  | .name text => .string text
  | .offset number => .int number

/-- Something that is wrong with a part of a request, and what stood there. -/
structure Problem where
  kind : ProblemKind
  location : List Segment
  input : Value
  deriving DecidableEq

/-- A problem as a JSON object. -/
def Problem.toValue (problem : Problem) : Value :=
  .object
    [("type", .string problem.kind.name), ("loc", .array (problem.location.map Segment.toValue)),
      ("input", problem.input)]

/-- Why a body is not accepted. -/
inductive BodyFault where
  /-- Some parts of it are wrong. -/
  | invalid (problems : List Problem)
  /-- It cannot be read at all. -/
  | unreadable
  deriving DecidableEq

/-- The field of a body, with what it is when it is missing and which kind of problem a
value is. -/
def readField (body : Value) (name : String) (default? : Option String)
    (accept : Value → Except ProblemKind String) : Except Problem String :=
  match body.get? name, default? with
  | none, some text => .ok text
  | none, none => .error ⟨.missing, [.name "body", .name name], body⟩
  | some value, _ =>
      match accept value with
      | .ok text => .ok text
      | .error kind => .error ⟨kind, [.name "body", .name name], value⟩

/-- Accepts any string. -/
def acceptString : Value → Except ProblemKind String
  | .string text => .ok text
  | _ => .error .notAString

/-- Accepts the commands that there are. -/
def acceptCommand : Value → Except ProblemKind String
  | .string text => if runCommands.contains text then .ok text else .error .notAChoice
  | _ => .error .notAChoice

/-- The problem of a field, if it has one. -/
def problem? (field : Except Problem String) : Option Problem :=
  match field with
  | .ok _ => none
  | .error problem => some problem

/-- The field that gives the target of a run. -/
def RunKind.targetField : RunKind → String
  | .file => "file_path"
  | .project => "workspace_root"

/-- The fields of a run that an object has. -/
def fieldsOfObject (kind : RunKind) (body : Value) : Except BodyFault RunFields :=
  let tool := readField body "tool" (some "mago") acceptString
  let command := readField body "command" (some "lint") acceptCommand
  let output := readField body "output" none acceptString
  let target := readField body kind.targetField none acceptString
  match tool, command, output, target with
  | .ok tool, .ok command, .ok output, .ok target => .ok { tool, command, output, target }
  | _, _, _, _ => .error (.invalid ([tool, command, output, target].filterMap problem?))

/-- The text of a body without the mark of its encoding. -/
def withoutMark (body : List Char) : List Char :=
  match body with
  | '\uFEFF' :: rest => rest
  | _ => body

/-- The fields of a run that the text of a body gives. -/
def fieldsOfText (kind : RunKind) (text : List Char) : Except BodyFault RunFields :=
  match Json.parse text with
  | .error (.misread _ rest) =>
      let offset := (Place.ofRest text rest).offset
      .error (.invalid [⟨.malformedJson, [.name "body", .offset offset], .object []⟩])
  | .error _ => .error .unreadable
  | .ok value =>
      if value.isObject then fieldsOfObject kind value
      else .error (.invalid [⟨.notAnObject, [.name "body"], value⟩])

/-- The fields of a run that a body gives. -/
def fieldsOfBody (kind : RunKind) (body : List UInt8) : Except BodyFault RunFields :=
  if body = [] then .error (.invalid [⟨.missing, [.name "body"], .null⟩])
  else match Text.Encoding.read? body with
    | some text => fieldsOfText kind (withoutMark text)
    | none => .error .unreadable

/-! ## Responses -/

/-- The response with one sentence. -/
def detailed (status : Nat) (detail : String) : Response :=
  { status, body := .object [("detail", .string detail)] }

/-- The response that tells what is wrong with a request. It repeats what was wrong, and there
is none when plain JSON cannot write that. -/
def invalidResponse (problems : List Problem) : Except Breakdown Response :=
  let body := Value.object [("detail", .array (problems.map Problem.toValue))]
  if body.isStrict then .ok { status := 422, body }
  else .error (.unanswered "Out of range float values are not JSON compliant")

/-- What plain JSON writes for a number. -/
def plainNumber (value : Binary64) : Value :=
  if value.isFinite then .float value else .null

namespace Framework

/-- What becomes of a request at an endpoint. -/
def dispatchAt (request : Request) : Endpoint → Dispatch
  | .health => .call .health
  | .listParsers => .call .listParsers
  | .parse kind =>
      match fieldsOfBody kind request.body with
      | .ok fields => .call (.parse kind fields)
      | .error (.invalid problems) => .answer (invalidResponse problems)
      | .error .unreadable => .answer (.ok (detailed 400 "There was an error parsing the body"))
  | .showDiagnostics => .call .showDiagnostics
  | .clearDiagnostics => .call .clearDiagnostics
  | .deleteFile =>
      match request.query.get? "path" with
      | some path => .call (.deleteFile path)
      | none => .answer (invalidResponse [⟨.missing, [.name "query", .name "path"], .null⟩])

/-- A framework that answers whatever endpoints come back with. -/
def standard : Framework where
  dispatch request :=
    match route request.method request.path with
    | .ok endpoint => dispatchAt request endpoint
    | .error .notFound => .answer (.ok (detailed 404 "Not Found"))
    | .error .methodNotAllowed => .answer (.ok (detailed 405 "Method Not Allowed"))
  respond _
    | .returned value => .ok { status := 200, body := value.withNumbers plainNumber }
    | .refused status detail => .ok (detailed status detail)

end Framework

end LintReport.Api
