import ImpHost.Http.Programs

/-!
Requests on executions: starting, reading and cancelling them.
-/

namespace ImpHost

/-- An execution as responses show it. The store and the steps of a running one replace what is
recorded. -/
def Execution.summary (e : Execution) (live? : Option (Option Memory × Nat)) : Json :=
  .object (Json.unlessEmpty "argument" e.argument
    ++ (match live? with
      | some (m?, _) => [("currentStore", (m?.map Memory.toJson).getD .null)]
      | none => [])
    ++ (if e.ended.isSet then [("endTime", .string e.ended.stamp)] else [])
    ++ (match e.failure? with
      | some f =>
        [("error", .object [("context", .string f.context), ("payload", .string f.payload)])]
      | none => [])
    ++ [("name", .string e.name)]
    ++ Json.unlessEmpty "result" e.result
    ++ [("startTime", .string e.started.stamp), ("state", .string e.state.name),
      ("steps", .int ((live?.map fun l => (l.2 : Int)).getD e.steps)),
      ("workflowRevisionId", .string e.revision)])

/-- The store and the steps of an active execution that runs. -/
def Service.progress? (s : Service) (e : Execution) : Option (Option Memory × Nat) :=
  if e.state = .active then s.live? e.name else none

namespace Http

/-- The execution that a path names. -/
def executionOf : List String → String
  | project :: location :: program :: id :: _ =>
    Resource.execution (Resource.program (Resource.place project location) program) id
  | _ => ""

/-- The argument in the record of a request; none if it cannot be read. -/
def readArgument? (r : Request) : Option Text :=
  readRecord r (∅ : Text)
    (fun a key v => if Json.names "argument" key then v.textOver a else some a)
    (fun a key v => if Json.names "argument" key then some v else some a)

/-- Starts an execution. A request without a body has no argument. -/
def createExecution : Handler := fun s r ps =>
  match (readArgument? r).or (if r.body.isEmpty then some ∅ else none) with
  | none => (s, unreadable)
  | some argument =>
    match s.execute (programOf ps) argument with
    | (s, .ok e) => (s, .ok (e.summary none))
    | (s, .error why) => (s, .ofProblem why)

/-- Shows an execution. -/
def getExecution : Handler := fun s _ ps =>
  match s.registry.execution (executionOf ps) with
  | .ok e => (s, .ok (e.summary (s.progress? e)))
  | .error why => (s, .ofProblem why)

/-- Shows the executions of a program. -/
def listExecutions : Handler := fun s _ ps =>
  let executions := s.registry.executionsOf (programOf ps)
  (s, .ok (.object [("executions", .array (executions.map fun e => e.summary none))]))

/-- Cancels an execution. -/
def cancelExecution : Handler := fun s _ ps =>
  match s.cancel (executionOf ps) with
  | (s, .ok e) => (s, .ok (e.summary none))
  | (s, .error why) => (s, .ofProblem why)

end Http

end ImpHost
