import ImpHost.Html.Basic
import ImpHost.Json.Basic
import ImpHost.Problem

/-!
Requests and responses.
-/

namespace ImpHost.Http

/-- A request. -/
structure Request where
  method : String
  /-- The path as it was sent, without the query. -/
  path : String
  /-- What stands after the question mark of the address. -/
  query : String
  /-- The type of the body; empty if none was sent. -/
  contentType : String
  body : Text

/-- The path and the query of an address. A fragment is part of neither. -/
def splitTarget (target : String) : String × String :=
  let address := target.toList.takeWhile (· != '#')
  (String.ofList (address.takeWhile (· != '?')),
    String.ofList ((address.dropWhile (· != '?')).drop 1))

/-- The body of a response. -/
inductive Body where
  | empty
  | json (v : Json)
  | html (h : Html)
  | plain (s : String)

/-- The text of a body. -/
def Body.text : Body → String
  | .empty => ""
  | .json v => v.render
  | .html h => h.source
  | .plain s => s

/-- The type that a response gives for its body. -/
def Body.contentType : Body → String
  | .empty => ""
  | .json _ => "application/json"
  | .html _ => "text/html; charset=utf-8"
  | .plain _ => "text/plain; charset=utf-8"

/-- A response. -/
structure Response where
  status : Nat
  contentType : String
  /-- Where a redirection leads. -/
  location? : Option String
  body : Body

namespace Response

/-- A response with a body. -/
def of (status : Nat) (body : Body) : Response :=
  ⟨status, body.contentType, none, body⟩

/-- A successful response with JSON. -/
def ok (v : Json) : Response :=
  of 200 (.json v)

/-- A page. -/
def page (h : Html) : Response :=
  of 200 (.html h)

/-- A redirection. -/
def redirect (status : Nat) (location : String) : Response :=
  ⟨status, "", some location, .empty⟩

/-- The same response without its body. -/
def withoutBody (r : Response) : Response :=
  { r with body := .empty }

/-- The status that belongs to a sort of problems. -/
def statusOf : Code → Nat
  | .invalidArgument => 400
  | .failedPrecondition => 400
  | .notFound => 404
  | .alreadyExists => 409
  | .resourceExhausted => 429
  | .canceled => 499
  | .internal => 500

/-- The name of a sort of problems in responses. -/
def statusName : Code → String
  | .invalidArgument => "INVALID_ARGUMENT"
  | .failedPrecondition => "FAILED_PRECONDITION"
  | .notFound => "NOT_FOUND"
  | .alreadyExists => "ALREADY_EXISTS"
  | .resourceExhausted => "RESOURCE_EXHAUSTED"
  | .canceled => "CANCELLED"
  | .internal => "INTERNAL"

/-- A problem as an object. -/
def errorObject (code : Code) (message : String) : Json :=
  .object [("code", .int (statusOf code)), ("message", .string message),
    ("status", .string (statusName code))]

/-- The response for a problem, with further fields after it. -/
def failure (code : Code) (message : String) (more : List (String × Json)) : Response :=
  of (statusOf code) (.json (.object (("error", errorObject code message) :: more)))

/-- The response for a malformed request. -/
def invalid (message : String) : Response :=
  failure .invalidArgument message []

/-- The response for a problem. -/
def ofProblem (p : Problem) : Response :=
  failure p.code p.message []

end Response

end ImpHost.Http
