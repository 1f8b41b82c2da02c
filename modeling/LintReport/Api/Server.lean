import LintReport.Api.Framework

/-! # The service

Answering requests one after another, with one collection that lasts between them. What an
endpoint does to the collection is done before its answer is written (`Server.handle`). -/

namespace LintReport.Api

open Json

/-- What comes of a call: its reply, unless it breaks down, and the collection after it. -/
structure Served where
  reply : Except Breakdown Reply
  collection : Collection

/-- What comes of a request: its response, unless it breaks down, and the collection after
it. -/
structure Exchange where
  response : Except Breakdown Response
  collection : Collection

namespace Server

/-- An object with one text. -/
def textObject (name text : String) : Value :=
  .object [(name, .string text)]

/-- A collection as a JSON object. -/
def collectionValue (collection : Collection) : Value :=
  .object
    [("files", .int collection.files.length), ("total", .int collection.total),
      ("diagnostics", Diagnostic.objectOf collection.byFile)]

/-- The reply that shows a collection. -/
def showReply (collection : Collection) : Except Breakdown Reply :=
  if Diagnostic.areCopyable collection.byFile then .ok (.returned (collectionValue collection))
  else .error (.uncopied .tooDeep)

/-- The reply for what a check comes out as. -/
def runReply : Except CheckError CheckResult → Except Breakdown Reply
  | .error (.unknownTool tool) => .ok (.refused 404 (CheckError.unknownTool tool).message)
  | .error (.outputTooLarge length limit) =>
      .ok (.refused 413 (CheckError.outputTooLarge length limit).message)
  | .error (.unreadablePlace problem) => .error (.unreadablePlace problem)
  | .ok result =>
      match result.copied with
      | .ok value => .ok (.returned value)
      | .error fault => .error (.uncopied fault)

/-- What comes of the call for the removal of a file. -/
def deleteFile (collection : Collection) (path : String) : Served :=
  match collection.delete path with
  | (true, collection) =>
      { reply := .ok (.returned (textObject "status" "deleted")), collection }
  | (false, _) => { reply := .ok (.refused 404 "No diagnostics for file"), collection }

/-- What an endpoint does. -/
def serve (checker : Checker) (collection : Collection) : Invocation → Served
  | .health =>
      { reply := .ok (.returned (.object
          [("status", .string "healthy"), ("version", .string checker.settings.version)]))
        collection }
  | .listParsers =>
      { reply := .ok (.returned (.array (checker.registry.tools.map Value.string))), collection }
  | .parse kind fields =>
      let step := checker.check collection (fields.request kind)
      { reply := runReply step.answer, collection := step.collection }
  | .showDiagnostics => { reply := showReply collection, collection }
  | .clearDiagnostics =>
      { reply := .ok (.returned (textObject "status" "cleared")), collection := .empty }
  | .deleteFile path => deleteFile collection path

/-- Answers a request. -/
def handle (framework : Framework) (checker : Checker) (collection : Collection)
    (request : Request) : Exchange :=
  match framework.dispatch request with
  | .answer response => { response, collection }
  | .call invocation =>
      let served := serve checker collection invocation
      { response := served.reply.bind (framework.respond invocation.shape)
        collection := served.collection }

end Server

end LintReport.Api
