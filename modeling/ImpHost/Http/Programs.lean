import ImpHost.Http.Form
import ImpHost.Http.Route
import ImpHost.Service.Basic

/-!
Requests on programs: deploying, reading, replacing and removing them.
-/

namespace ImpHost

/-- A deployed program as responses show it. -/
def Deployment.summary (p : Deployment) : Json :=
  let labels := (p.labels.getD ∅)
  .object ([("createTime", .string p.created.stamp), ("description", .bytes p.description)]
    ++ (if labels.entries.isEmpty then [] else [("labels", .object (Labels.fields labels))])
    ++ [("name", .string p.name), ("revisionId", .string p.revision),
      ("sourceContents", .bytes p.source), ("state", .string p.state.name),
      ("updateTime", .string p.updated.stamp)])

namespace Http

/-- What a handler leaves behind and answers. -/
abbrev Handler := Service → Request → List String → Service × Response

/-- The response to a request whose record cannot be read. -/
def unreadable : Response :=
  .invalid "invalid request body: malformed record"

/-- Reads the record of a request: the fields of an object or of a form are applied in turn. -/
def readRecord {α : Type} (r : Request) (start : α) (applyField : α → String → Json → Option α)
    (applyForm : α → String → Text → Option α) : Option α :=
  match r.sent? with
  | some (.object v) => Json.record applyField start v
  | some (.form fields) => fields.foldlM (fun a f => applyForm a f.1.lossy f.2) start
  | none => none

/-- What a request says of a program. -/
structure ProgramRequest where
  source : Text
  description : Text
  labels : Option Labels

namespace ProgramRequest

/-- Applies a field of an object. -/
def applyField (q : ProgramRequest) (key : String) (v : Json) : Option ProgramRequest :=
  if Json.names "sourceContents" key then
    (v.textOver q.source).map fun t => { q with source := t }
  else if Json.names "description" key then
    (v.textOver q.description).map fun t => { q with description := t }
  else if Json.names "labels" key then
    (Labels.replacing q.labels v).map fun l => { q with labels := l }
  else some q

/-- Applies a field of a form, in which labels cannot be sent. -/
def applyForm (q : ProgramRequest) (key : String) (v : Text) : Option ProgramRequest :=
  if Json.names "sourceContents" key then some { q with source := v }
  else if Json.names "description" key then some { q with description := v }
  else if Json.names "labels" key then none
  else some q

/-- What a request says of a program; none if it cannot be read. -/
def read? (r : Request) : Option ProgramRequest :=
  readRecord r ⟨∅, ∅, none⟩ applyField applyForm

end ProgramRequest

/-- The place that a path names. -/
def placeOf : List String → String
  | project :: location :: _ => Resource.place project location
  | _ => ""

/-- The program that a path names. -/
def programOf : List String → String
  | project :: location :: id :: _ => Resource.program (Resource.place project location) id
  | _ => ""

/-- The identifier of the program that a path names. -/
def programIdOf : List String → String
  | _ :: _ :: id :: _ => id
  | _ => ""

/-- Deploys a program. -/
def createProgram : Handler := fun s r ps =>
  let id := r.queryValue "workflowId"
  if id.isEmpty then (s, .invalid "workflowId query parameter is required")
  else
    match ProgramRequest.read? r with
    | none => (s, unreadable)
    | some q =>
      if q.source.isEmpty then (s, .invalid "sourceContents is required")
      else
        match s.deploy (placeOf ps) id q.source q.description q.labels with
        | (s, .ok p) => (s, .ok p.summary)
        | (s, .error why) =>
          (s, if why.code = .invalidArgument then .invalid ("invalid program: " ++ why.message)
            else .ofProblem why)

/-- Shows a program. -/
def getProgram : Handler := fun s _ ps =>
  match s.registry.program (programOf ps) with
  | .ok p => (s, .ok p.summary)
  | .error why => (s, .ofProblem why)

/-- Shows the programs of a place. -/
def listPrograms : Handler := fun s _ ps =>
  let programs := s.registry.programsBelow (placeOf ps)
  (s, .ok (.object [("workflows", .array (programs.map Deployment.summary))]))

/-- Replaces the contents of a program. -/
def updateProgram : Handler := fun s r ps =>
  match ProgramRequest.read? r with
  | none => (s, unreadable)
  | some q =>
    match s.update (programOf ps) q.source q.description q.labels with
    | (s, .ok p) =>
      (s, .ok (.object [("done", .bool true),
        ("name", .string (Resource.operation "update" (programIdOf ps))), ("response", p.summary)]))
    | (s, .error why) => (s, .ofProblem why)

/-- Removes a program. -/
def deleteProgram : Handler := fun s _ ps =>
  match s.delete (programOf ps) with
  | (s, .ok _) =>
    (s, .ok (.object [("done", .bool true),
      ("name", .string (Resource.operation "delete" (programIdOf ps)))]))
  | (s, .error why) => (s, .ofProblem why)

end Http

end ImpHost
