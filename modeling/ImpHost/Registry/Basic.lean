import ImpHost.Memory.Json
import ImpHost.Diagnostic.Json
import ImpHost.Registry.Codec
import ImpHost.Registry.Database

/-!
The registry of deployed programs and their executions. It is held in memory, and each change is
first written to the database, if there is one. An operation returns the registry after it also when
it fails, because an update that the database refuses has still taken a revision number.
-/

namespace ImpHost

/-- The deployed programs and their executions. -/
structure Registry where
  programs : Table Deployment
  executions : Table Execution
  /-- The number of the last revision. -/
  revisions : Nat
  database? : Option Database
deriving DecidableEq

namespace Registry

/-- The registry without records and without a database. -/
def empty : Registry :=
  ⟨∅, ∅, 0, none⟩

/-- The text of a revision number, of at least six digits. -/
def revisionText (n : Nat) : String :=
  Instant.padded 6 n ++ "-000"

/-- What an operation leaves behind and answers. -/
abbrev Outcome (α : Type) := Registry × Except Problem α

/-! ## Writing through -/

/-- Writes the record of the program `name` to the database and then to memory. -/
def putProgram (r : Registry) (name : String) (p : Deployment) : Except DatabaseError Registry :=
  match r.database? with
  | none => .ok { r with programs := r.programs.set name p }
  | some db =>
    match db.putProgram name p.encode with
    | .ok db => .ok { r with programs := r.programs.set name p, database? := some db }
    | .error why => .error why

/-- Removes the record of a program from the database and then from memory. -/
def eraseProgram (r : Registry) (name : String) : Except DatabaseError Registry :=
  match r.database? with
  | none => .ok { r with programs := r.programs.erase name }
  | some db =>
    match db.eraseProgram name with
    | .ok db => .ok { r with programs := r.programs.erase name, database? := some db }
    | .error why => .error why

/-- Writes the record of the execution `name` to the database and then to memory. -/
def putExecution (r : Registry) (name : String) (e : Execution) :
    Except DatabaseError Registry :=
  match r.database? with
  | none => .ok { r with executions := r.executions.set name e }
  | some db =>
    match db.putExecution name e.encode with
    | .ok db => .ok { r with executions := r.executions.set name e, database? := some db }
    | .error why => .error why

/-! ## Problems -/

/-- The program does not exist. -/
def programNotFound (name : String) : Problem :=
  .refused .notFound ("program '" ++ name ++ "' not found")

/-- The program exists already. -/
def programExists (name : String) : Problem :=
  .refused .alreadyExists ("program '" ++ name ++ "' already exists")

/-- The execution does not exist. -/
def executionNotFound (name : String) : Problem :=
  .refused .notFound ("execution '" ++ name ++ "' not found")

/-- The execution has ended. -/
def executionNotActive (name : String) (state : ExecutionState) : Problem :=
  .refused .notActive ("execution '" ++ name ++ "' is not active (state: " ++ state.name ++ ")")

/-- The database refused the write of a program. -/
def programNotPersisted (why : DatabaseError) : Problem :=
  .plain ("persisting program: " ++ why.text)

/-- The database refused the removal of a program. -/
def programNotDeleted (why : DatabaseError) : Problem :=
  .plain ("deleting program: " ++ why.text)

/-- The database refused the write of an execution. -/
def executionNotPersisted (why : DatabaseError) : Problem :=
  .plain ("persisting execution: " ++ why.text)

/-! ## Programs -/

/-- Deploys a new program below `parent`. -/
def createProgram (r : Registry) (now : Instant) (parent id : String) (source description : Text)
    (labels : Option Labels) : Outcome Deployment :=
  let name := Resource.program parent id
  if (r.programs.get? name).isSome then (r, .error (programExists name))
  else
    let p : Deployment :=
      { name, description, state := .active, revision := revisionText (r.revisions + 1)
        created := now, updated := now, source, labels }
    match r.putProgram name p with
    | .ok r => ({ r with revisions := r.revisions + 1 }, .ok p)
    | .error why => (r, .error (programNotPersisted why))

/-- The program `name`. -/
def program (r : Registry) (name : String) : Except Problem Deployment :=
  match r.programs.get? name with
  | some p => .ok p
  | none => .error (programNotFound name)

/-- The programs below a parent, by name. -/
def programsBelow (r : Registry) (parent : String) : List Deployment :=
  ((r.programs.entries.filter fun e => Resource.isBelow (Resource.programsOf parent) e.1).map
    Prod.snd).mergeSort fun p q => !decide (q.name < p.name)

/-- A program with new contents. An empty text and absent labels leave what there is. -/
def revised (p : Deployment) (now : Instant) (number : Nat) (source description : Text)
    (labels : Option Labels) : Deployment :=
  { p with
    source := if source.isEmpty then p.source else source
    description := if description.isEmpty then p.description else description
    labels := labels.or p.labels
    revision := revisionText number
    updated := now }

/-- Replaces the contents of a program. -/
def updateProgram (r : Registry) (now : Instant) (name : String) (source description : Text)
    (labels : Option Labels) : Outcome Deployment :=
  match r.programs.get? name with
  | none => (r, .error (programNotFound name))
  | some old =>
    let p := revised old now (r.revisions + 1) source description labels
    let r := { r with revisions := r.revisions + 1 }
    match r.putProgram name p with
    | .ok r => (r, .ok p)
    | .error why => (r, .error (programNotPersisted why))

/-- Removes a program. Its executions stay. -/
def deleteProgram (r : Registry) (name : String) : Outcome Unit :=
  if (r.programs.get? name).isNone then (r, .error (programNotFound name))
  else
    match r.eraseProgram name with
    | .ok r => (r, .ok ())
    | .error why => (r, .error (programNotDeleted why))

/-! ## Executions -/

/-- Records a new active execution of a program, with the identifier `id`. -/
def createExecution (r : Registry) (now : Instant) (id program : String)
    (argument? : Option Memory) : Outcome Execution :=
  match r.programs.get? program with
  | none => (r, .error (programNotFound program))
  | some p =>
    let name := Resource.execution program id
    let argument := (argument?.map fun m => m.toJson.render).getD ""
    let e : Execution :=
      { name, state := .active, argument, result := "", failure? := none, started := now
        ended := .unset, revision := p.revision, steps := 0 }
    match r.putExecution name e with
    | .ok r => (r, .ok e)
    | .error why => (r, .error (executionNotPersisted why))

/-- The execution `name`. -/
def execution (r : Registry) (name : String) : Except Problem Execution :=
  match r.executions.get? name with
  | some e => .ok e
  | none => .error (executionNotFound name)

/-- The executions of a program, the newest first. -/
def executionsOf (r : Registry) (program : String) : List Execution :=
  ((r.executions.entries.filter fun e =>
    Resource.isBelow (Resource.executionsOf program) e.1).map Prod.snd).mergeSort
      Execution.newerFirst

/-- The newest executions of all programs: all of them, unless `limit` is positive. -/
def recentExecutions (r : Registry) (limit : Int) : List Execution :=
  let all := r.executions.values.mergeSort Execution.newerFirst
  if 0 < limit then all.take limit.toNat else all

/-- Records the end of an execution and its steps. An execution that is not active any more takes
the steps only. -/
def finish (r : Registry) (now : Instant) (name : String) (steps : Int)
    (end_ : Execution → Execution) : Outcome Unit :=
  match r.executions.get? name with
  | none => (r, .error (executionNotFound name))
  | some e =>
    match r.putExecution name (({ e with steps }).settle now end_) with
    | .ok r => (r, .ok ())
    | .error why => (r, .error (executionNotPersisted why))

/-- Records that an execution succeeded with a store. -/
def completeExecution (r : Registry) (now : Instant) (name : String) (result : Memory)
    (steps : Int) : Outcome Unit :=
  r.finish now name steps fun e => { e with state := .succeeded, result := result.toJson.render }

/-- The record of a failure: its diagnostic, or its message if it has none. -/
def payload (p : Problem) : String :=
  match p.diagnostic? with
  | some d => d.payload
  | none => (Json.object [("message", .string p.message)]).render

/-- Records that an execution failed, with the store that it left. -/
def failExecution (r : Registry) (now : Instant) (name : String) (why : Problem)
    (left? : Option Memory) (steps : Int) : Outcome Unit :=
  let context := (left?.map fun m => m.toJson.render).getD ""
  r.finish now name steps fun e =>
    { e with state := .failed, failure? := some ⟨payload why, context⟩ }

/-- Records that an active execution was cancelled. -/
def cancelExecution (r : Registry) (now : Instant) (name : String) : Outcome Unit :=
  match r.executions.get? name with
  | none => (r, .error (executionNotFound name))
  | some e =>
    if e.state = .active then
      match r.putExecution name { e with state := .cancelled, ended := now } with
      | .ok r => (r, .ok ())
      | .error why => (r, .error (executionNotPersisted why))
    else (r, .error (executionNotActive name e.state))

end Registry

end ImpHost
