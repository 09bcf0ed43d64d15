import ImpHost.Resource
import ImpHost.Table
import ImpHost.Text.Basic
import ImpHost.Time.Instant

/-!
The records that a registry keeps: deployed programs and their executions. Names and texts are as
their makers gave them; stores and failures are kept as the JSON text that was recorded.
-/

namespace ImpHost

/-- Labels of a deployed program. -/
abbrev Labels := Table String

/-- The state of a deployed program. -/
inductive DeploymentState where
  | active
  /-- A state that only a stored record can have. -/
  | other (name : String)
deriving DecidableEq

namespace DeploymentState

/-- The name of a state. -/
def name : DeploymentState → String
  | .active => "ACTIVE"
  | .other name => name

/-- The state with a name. -/
def ofName (name : String) : DeploymentState :=
  if name = DeploymentState.active.name then .active else .other name

end DeploymentState

/-- A deployed program. -/
structure Deployment where
  name : String
  description : Text
  state : DeploymentState
  revision : String
  created : Instant
  updated : Instant
  /-- The deployed text: bare source or a manifest. -/
  source : Text
  labels : Option Labels
deriving DecidableEq

/-- The identifier of a deployed program. -/
def Deployment.id (p : Deployment) : String :=
  Resource.id p.name

/-- How far an execution is. -/
inductive ExecutionState where
  | active
  | succeeded
  | failed
  | cancelled
  /-- A state that only a stored record can have. -/
  | other (name : String)
deriving DecidableEq

namespace ExecutionState

/-- The name of a state. -/
def name : ExecutionState → String
  | .active => "ACTIVE"
  | .succeeded => "SUCCEEDED"
  | .failed => "FAILED"
  | .cancelled => "CANCELLED"
  | .other name => name

/-- The states in which the registry puts executions. -/
def proper : List ExecutionState := [.active, .succeeded, .failed, .cancelled]

/-- The state with a name. -/
def ofName (name : String) : ExecutionState :=
  (proper.find? fun s => s.name == name).getD (.other name)

end ExecutionState

/-- What is recorded of a failure. -/
structure ExecutionFailure where
  /-- The failure as JSON. -/
  payload : String
  /-- The store at the time of the failure as JSON; empty if there is none. -/
  context : String
deriving DecidableEq

/-- An execution of a deployed program. -/
structure Execution where
  name : String
  state : ExecutionState
  /-- The store from which it started as JSON; empty if no argument was given. -/
  argument : String
  /-- The store with which it succeeded as JSON. -/
  result : String
  failure? : Option ExecutionFailure
  started : Instant
  ended : Instant
  /-- The revision of the program that it runs. -/
  revision : String
  steps : Int
deriving DecidableEq

namespace Execution

/-- The identifier of an execution. -/
def id (e : Execution) : String :=
  Resource.id e.name

/-- The program to which an execution belongs. -/
def program (e : Execution) : String :=
  Resource.programOf e.name

/-- Executions from the newest to the oldest; those of one moment by their names. -/
def newerFirst (e f : Execution) : Bool :=
  if e.started = f.started then !decide (f.name < e.name)
  else decide (f.started.nanos < e.started.nanos)

/-- The end of an execution, at the moment `now`. Only an active execution ends. -/
def settle (e : Execution) (now : Instant) (end_ : Execution → Execution) : Execution :=
  if e.state = .active then { end_ e with ended := now } else e

end Execution

end ImpHost
