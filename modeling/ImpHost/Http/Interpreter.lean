import ImpHost.Http.Programs
import ImpHost.Program.Printer
import ImpHost.Token.Lexer

/-!
Requests that run or inspect source directly.
-/

namespace ImpHost

/-- How many times a second a run can be expected to ask for its deadline. -/
def Service.asksPerSecond : Nat := 1000000

/-- A token as responses show it. -/
def Token.summary (t : Token) : Json :=
  .object [("type", .string t.kind.label), ("value", .string t.text), ("pos", .int t.pos)]

namespace Http

/-- The seconds that a run may take. -/
def runSeconds : Nat := 30

/-- What a request to run source says. -/
structure RunRequest where
  source : Text
  /-- The store, as it was sent. -/
  store? : Option Json

namespace RunRequest

/-- Applies a field of an object. -/
def applyField (q : RunRequest) (key : String) (v : Json) : Option RunRequest :=
  if Json.names "source" key then (v.textOver q.source).map fun t => { q with source := t }
  else if Json.names "store" key then some { q with store? := some v }
  else some q

/-- Applies a field of a form, in which no store can be sent. -/
def applyForm (q : RunRequest) (key : String) (v : Text) : Option RunRequest :=
  if Json.names "source" key then some { q with source := v }
  else if Json.names "store" key then none
  else some q

/-- What a request to run source says; none if it cannot be read. -/
def read? (r : Request) : Option RunRequest :=
  readRecord r ⟨∅, none⟩ applyField applyForm

end RunRequest

/-- The payload of a problem that has a diagnostic. -/
def payloadField (p : Problem) : List (String × Json) :=
  match p.diagnostic? with
  | some d => [("payload", d.toJson)]
  | none => []

/-- The response to a run. -/
def runResponse : Except Problem (Engine × Engine.Status) → Response
  | .error why => .failure why.code why.message (payloadField why)
  | .ok (engine, status) =>
    let outcome : List (String × Json) :=
      [("steps", .int engine.steps), ("store", (engine.snapshot?.getD ∅).toJson)]
    match status.problem? with
    | some why => .failure why.code why.message (payloadField why ++ outcome)
    | none => .ok (.object outcome)

/-- Runs source from a store. -/
def run : Handler := fun s r _ =>
  match RunRequest.read? r with
  | none => (s, unreadable)
  | some q =>
    if (trimSpace q.source.chars).isEmpty then (s, .invalid "source is required")
    else
      match Memory.ofValue (q.store?.getD .null) with
      | .error why => (s, .invalid ("invalid store: " ++ why.message))
      | .ok start =>
        (s, runResponse (s.runWithin (runSeconds * Service.asksPerSecond) q.source start))

/-- The source in the record of a request; none if it cannot be read. -/
def readSource? (r : Request) : Option Text :=
  readRecord r (∅ : Text)
    (fun a key v => if Json.names "source" key then v.textOver a else some a)
    (fun a key v => if Json.names "source" key then some v else some a)

/-- The response to source that is no program. -/
def parseFailure (d : Diagnostic) : Response :=
  .failure .invalidArgument d.text [("payload", d.toJson)]

/-- Shows the tokens of source and the source in its standard layout. -/
def parse : Handler := fun s r _ =>
  match readSource? r with
  | none => (s, unreadable)
  | some source =>
    match Token.lex source.chars with
    | .error why => (s, parseFailure why.report)
    | .ok tokens =>
      match Command.ofTokens tokens with
      | .error why => (s, parseFailure why.report)
      | .ok c =>
        (s, .ok (.object [("formatted", .string c.formatIndent),
          ("tokens", .array (tokens.map Token.summary))]))

end Http

end ImpHost
