import ImpHost.Engine
import ImpHost.Manifest.Basic
import ImpHost.Registry.Basic

/-!
The service: it deploys programs into a registry and runs their executions. It keeps the parsed form
of programs together with the revision that was parsed, so that a form of another revision is never
taken for the current one, and it keeps an engine for each execution that runs.

The service has a clock of its own, which moves on with each reading, and it numbers the executions.
Each operation is made of steps that are functions of their own; between any two of them other
operations may take theirs.
-/

namespace ImpHost

/-- A parsed program and the revision that was parsed. -/
structure ParsedRevision where
  revision : String
  manifest : Manifest

/-- A service. -/
structure Service where
  registry : Registry
  /-- The step budget of each run; zero or less is none. -/
  budget : Int
  /-- The parsed programs by their names. -/
  parsed : Table ParsedRevision
  /-- The engines of running executions by their names. -/
  engines : Table Engine
  /-- How many execution identifiers were given out. -/
  issued : Nat
  /-- The last reading of the clock. -/
  clock : Instant

namespace Service

/-- The service over a registry, of which nothing runs yet. -/
def new (registry : Registry) (budget : Int) (clock : Instant) : Service :=
  ⟨registry, budget, ∅, ∅, 0, clock⟩

/-- What an operation leaves behind and answers. -/
abbrev Outcome (α : Type) := Service × Except Problem α

/-! ## Steps -/

/-- Reads the clock, which is later with each reading. -/
def tick (s : Service) : Service :=
  { s with clock := ⟨s.clock.nanos + 1⟩ }

/-- Takes a step of the registry, at the next moment. -/
def onRegistry {α : Type} (s : Service) (step : Registry → Instant → Registry.Outcome α) :
    Outcome α :=
  let s := s.tick
  let (registry, out) := step s.registry s.clock
  ({ s with registry }, out)

/-- Keeps the parsed form of a program's revision. -/
def cache (s : Service) (p : Deployment) (m : Manifest) : Service :=
  { s with parsed := s.parsed.set p.name ⟨p.revision, m⟩ }

/-- Forgets the parsed form of a program. -/
def uncache (s : Service) (name : String) : Service :=
  { s with parsed := s.parsed.erase name }

/-- The parsed form of a program's revision, if it is kept. -/
def cached? (s : Service) (p : Deployment) : Option Manifest :=
  match s.parsed.get? p.name with
  | some kept => if kept.revision = p.revision then some kept.manifest else none
  | none => none

/-- The identifier of the `n`-th execution. -/
def executionId (n : Nat) : String :=
  "00000000-0000-4000-8000-" ++ String.ofList (Text.hexDigits 12 n)

/-- Records a new execution under the next identifier. A refused request takes none. -/
def issue (s : Service) (program : String) (argument? : Option Memory) : Outcome Execution :=
  let number := s.issued + 1
  let taken := if (s.registry.programs.get? program).isSome then number else s.issued
  ({ s with issued := taken }).onRegistry fun r now =>
    r.createExecution now (executionId number) program argument?

/-- Puts an engine to work for an execution. -/
def register (s : Service) (name : String) (engine : Engine) : Service :=
  { s with engines := s.engines.set name engine }

/-- Releases the engine of an execution. -/
def release (s : Service) (name : String) : Service :=
  { s with engines := s.engines.erase name }

/-- Marks the engine of an execution as cancelled, if it has one. -/
def cancelEngine (s : Service) (name : String) : Service :=
  match s.engines.get? name with
  | some engine => s.register name engine.cancel
  | none => s

/-- Records how the run of an execution ended. A record that the database refuses is lost. -/
def recordEnd (s : Service) (name : String) (engine : Engine) (status : Engine.Status) : Service :=
  let left := engine.snapshot?.getD ∅
  match status.problem? with
  | some why =>
    (s.onRegistry fun r now => r.failExecution now name why (some left) engine.steps).1
  | none => (s.onRegistry fun r now => r.completeExecution now name left engine.steps).1

/-! ## Programs -/

/-- Deploys a new program below `parent`. A description that is not given is taken from the
manifest. -/
def deploy (s : Service) (parent : String) (id source description : Text)
    (labels : Option Labels) : Outcome Deployment :=
  match Resource.checkProgramId id with
  | .error why => (s, .error why)
  | .ok _ =>
    match Manifest.ofText id source with
    | .error why => (s, .error why.problem)
    | .ok m =>
      let description := if description.isEmpty then m.description else description
      match s.onRegistry fun r now =>
          r.createProgram now parent id.lossy source description labels with
      | (s, .ok p) => (s.cache p m, .ok p)
      | (s, .error why) => (s, .error why)

/-- Replaces the contents of a program. An empty text and absent labels leave what there is. -/
def update (s : Service) (name : String) (source description : Text) (labels : Option Labels) :
    Outcome Deployment :=
  let revise (s : Service) : Outcome Deployment :=
    s.onRegistry fun r now => r.updateProgram now name source description labels
  if source.isEmpty then revise s
  else
    match Manifest.ofText name source with
    | .error why => (s, .error why.problem)
    | .ok m =>
      match revise s with
      | (s, .ok p) => (s.cache p m, .ok p)
      | (s, .error why) => (s, .error why)

/-- Removes a program. -/
def delete (s : Service) (name : String) : Outcome Unit :=
  match s.onRegistry fun r _ => r.deleteProgram name with
  | (s, .ok _) => (s.uncache name, .ok ())
  | (s, .error why) => (s, .error why)

/-- The parsed form of a deployed program. -/
def program (s : Service) (name : String) : Outcome Manifest :=
  match s.registry.program name with
  | .error why => (s, .error why)
  | .ok p =>
    match s.cached? p with
    | some m => (s, .ok m)
    | none =>
      match Manifest.ofText p.id p.source with
      | .error why => (s, .error (why.problem.whileDoing "failed to parse program"))
      | .ok m => (s.cache p m, .ok m)

/-! ## Executions -/

/-- Starts an execution of a program. The argument is a JSON object, or empty; an empty argument is
not recorded. -/
def execute (s : Service) (program : String) (argument : Text) : Outcome Execution :=
  match s.program program with
  | (s, .error why) => (s, .error why)
  | (s, .ok m) =>
    match m.initialStore argument with
    | .error why => (s, .error why)
    | .ok start =>
      match s.issue program (if argument.isEmpty then none else some start) with
      | (s, .error why) => (s, .error why)
      | (s, .ok e) =>
        (s.register e.name ((Engine.new m.program s.budget).begin start), .ok e)

/-- Takes up the run of an execution for at most `fuel` steps. At its end the outcome is recorded
and the engine released. -/
def advance (s : Service) (fuel : Nat) (name : String) : Service :=
  match s.engines.get? name with
  | none => s
  | some engine =>
    match engine.advance .background fuel with
    | (engine, .running) => s.register name engine
    | (engine, status) => (s.recordEnd name engine status).release name

/-- Takes up the run of every execution for at most `fuel` steps. -/
def advanceAll (s : Service) (fuel : Nat) : Service :=
  s.engines.keys.foldl (fun s name => s.advance fuel name) s

/-- Cancels an active execution and stops its engine. -/
def cancel (s : Service) (name : String) : Outcome Execution :=
  match s.onRegistry fun r now => r.cancelExecution now name with
  | (s, .error why) => (s, .error why)
  | (s, .ok _) =>
    let s := s.cancelEngine name
    (s, s.registry.execution name)

/-- The store and the steps of a running execution. -/
def live? (s : Service) (name : String) : Option (Option Memory × Nat) :=
  (s.engines.get? name).map fun engine => (engine.snapshot?, engine.steps)

/-- An execution, and whether it is over: it has an outcome and its engine is released. -/
def standing (s : Service) (name : String) : Except Problem (Execution × Bool) :=
  match s.registry.execution name with
  | .error why => .error why
  | .ok e => .ok (e, e.state != .active && (s.engines.get? name).isNone)

/-- Cancels every running execution and records how they end. A cancelled engine stops at its next
step. -/
def shutdown (s : Service) : Service :=
  let s := s.engines.keys.foldl (fun s name => s.cancelEngine name) s
  s.advanceAll 1

/-! ## Runs of bare source -/

/-- An engine at the start of a run of bare source, under the budget of the service. -/
def sourceEngine (s : Service) (source : Text) (start : Memory) : Except Problem Engine :=
  match Manifest.ofSource ∅ source with
  | .error why => .error (.ofDiagnostic why.report)
  | .ok m => .ok ((Engine.new m.program s.budget).begin ((∅ : Memory).merge start))

/-- Runs bare source until it ends or, asked for the `limit`-th time, its deadline is over. -/
def runWithin (s : Service) (limit : Nat) (source : Text) (start : Memory) :
    Except Problem (Engine × Engine.Status) :=
  (s.sourceEngine source start).map (Engine.advance (.endsAt limit .deadline) limit)

end Service

end ImpHost
