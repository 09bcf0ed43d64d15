import ImpHost.Service.Basic

/-!
Remote calls on programs and executions. Messages have no difference between an absent text and an
empty one, nor between absent labels and none.
-/

namespace ImpHost.Rpc

/-- What a call says of a program. -/
structure ProgramMessage where
  name : String
  description : Text
  source : Text
  labels : Labels

/-- The labels that a message gives; none if it has no labels. -/
def ProgramMessage.labels? (m : ProgramMessage) : Option Labels :=
  if m.labels.entries.isEmpty then none else some m.labels

/-- Calls. -/
inductive Call where
  | createProgram (parent : String) (id : Text) (program? : Option ProgramMessage)
  | updateProgram (program? : Option ProgramMessage)
  | deleteProgram (name : String)
  | getProgram (name : String)
  | listPrograms (parent : String)
  | getOperation (name : String)
  | createExecution (program : String) (argument : Text)
  | getExecution (name : String)
  | listExecutions (program : String)
  | cancelExecution (name : String)

/-- Why a call fails. -/
structure Status where
  code : Code
  message : String
deriving DecidableEq

/-- The status of a problem. -/
def Status.ofProblem (p : Problem) : Status :=
  ⟨p.code, p.message⟩

/-- Answers. -/
inductive Reply where
  | program (p : Deployment)
  | programs (l : List Deployment)
  /-- An operation that is done, and the program that it left. -/
  | operation (name : String) (program? : Option Deployment)
  /-- An execution, and its steps while it runs. -/
  | execution (e : Execution) (steps? : Option Nat)
  | executions (l : List Execution)

/-- The name of a state of a program in messages. -/
def programStateName : DeploymentState → String
  | .active => DeploymentState.active.name
  | .other _ => "STATE_UNSPECIFIED"

/-- The name of a state of an execution in messages. -/
def executionStateName : ExecutionState → String
  | .other _ => "STATE_UNSPECIFIED"
  | s => s.name

/-- What a call leaves behind and answers. -/
abbrev Outcome := Service × Except Status Reply

/-- An answer made from what an operation of the service answers. -/
def reply {α : Type} (f : α → Reply) : Service × Except Problem α → Outcome
  | (s, .ok a) => (s, .ok (f a))
  | (s, .error why) => (s, .error (.ofProblem why))

/-- The refusal of a call that lacks something. -/
def missing (s : Service) (what : String) : Outcome :=
  (s, .error ⟨.invalidArgument, what ++ " is required"⟩)

/-- Deploys a program. -/
def createProgram (s : Service) (parent : String) (id : Text) (program? : Option ProgramMessage) :
    Outcome :=
  if id.isEmpty then missing s "workflow_id"
  else
    match program? with
    | none => missing s "workflow"
    | some m =>
      if m.source.isEmpty then missing s "source_contents"
      else
        match s.deploy parent id m.source m.description m.labels? with
        | (s, .ok p) => (s, .ok (.operation (Resource.operation "create" id.lossy) (some p)))
        | (s, .error why) =>
          (s, .error (if why.code = .invalidArgument
            then ⟨.invalidArgument, "invalid program: " ++ why.message⟩ else .ofProblem why))

/-- Replaces the contents of a program. -/
def updateProgram (s : Service) (program? : Option ProgramMessage) : Outcome :=
  match program? with
  | none => missing s "workflow"
  | some m =>
    reply (fun p => .operation (Resource.operation "update" (Resource.id m.name)) (some p))
      (s.update m.name m.source m.description m.labels?)

/-- Shows an execution, with its steps while it runs. -/
def getExecution (s : Service) (name : String) : Outcome :=
  match s.registry.execution name with
  | .error why => (s, .error (.ofProblem why))
  | .ok e =>
    let steps? := if e.state = .active then (s.live? name).map Prod.snd else none
    (s, .ok (.execution e steps?))

/-- Answers a call. -/
def answer (s : Service) : Call → Outcome
  | .createProgram parent id program? => createProgram s parent id program?
  | .updateProgram program? => updateProgram s program?
  | .deleteProgram name =>
    reply (fun _ => .operation (Resource.operation "delete" (Resource.id name)) none) (s.delete name)
  | .getProgram name => reply .program (s, s.registry.program name)
  | .listPrograms parent => (s, .ok (.programs (s.registry.programsBelow parent)))
  | .getOperation name =>
    (s, .error ⟨.notFound, "operation " ++ Text.quoteString name
      ++ " not found (all operations complete immediately)"⟩)
  | .createExecution program argument =>
    reply (fun e => .execution e none) (s.execute program argument)
  | .getExecution name => getExecution s name
  | .listExecutions program => (s, .ok (.executions (s.registry.executionsOf program)))
  | .cancelExecution name => reply (fun e => .execution e none) (s.cancel name)

end ImpHost.Rpc
