import Mathlib.Logic.Function.Basic
import Mathlib.Logic.Relation
import ImpHost.Proofs.Table
import ImpHost.Service.Basic

/-!
The operations of a service, taken apart where others may come between.

Clients make any number of calls at the same time. A call holds a lock of the registry, of the
service or of an engine only while it works on what the lock guards, so what is indivisible is one
such section, and between two sections of a call any other call and any background run may take
theirs. `Call` says how far a call has come and `CallStep` what its next section does; `Run` and
`RunStep` say the same of the background run of an execution. The sections are the steps of
`Service`, in the order in which its operations take them.

A `World` is a service with everything that is going on in it, and `Reaches` relates a world to
those that any order of sections leads to.
-/

namespace ImpHost

namespace Service

/-- Marks every engine as cancelled, as a shutdown does before it waits. -/
def cancelEngines (s : Service) : Service :=
  s.engines.keys.foldl (fun s name => s.cancelEngine name) s

theorem shutdown_eq (s : Service) : s.shutdown = s.cancelEngines.advanceAll 1 := rfl

theorem cancelEngine_eq (s : Service) (name : String) :
    ∃ engines, s.cancelEngine name = { s with engines } := by
  unfold cancelEngine
  split
  · exact ⟨_, rfl⟩
  · exact ⟨s.engines, rfl⟩

/-- Marking engines changes nothing but the engines. -/
theorem cancelEngines_eq (s : Service) : ∃ engines, s.cancelEngines = { s with engines } := by
  have each (names : List String) (s : Service) :
      ∃ engines, names.foldl (fun s name => s.cancelEngine name) s = { s with engines } := by
    induction names generalizing s with
    | nil => exact ⟨s.engines, rfl⟩
    | cons name names ih =>
      obtain ⟨_, first⟩ := s.cancelEngine_eq name
      obtain ⟨engines, rest⟩ := ih (s.cancelEngine name)
      refine ⟨engines, ?_⟩
      rw [List.foldl_cons, rest, first]
  exact each s.engines.keys s

theorem registry_cancelEngine (s : Service) (name : String) :
    (s.cancelEngine name).registry = s.registry := by
  unfold cancelEngine
  split <;> rfl

theorem isSome_cancelEngine (s : Service) (name other : String) :
    ((s.cancelEngine name).engines.get? other).isSome = (s.engines.get? other).isSome := by
  unfold cancelEngine
  split
  · next engine own =>
    rw [register, Table.get?_set]
    split
    · next same => rw [same, own]; rfl
    · rfl
  · rfl

/-- Marking engines leaves the registry alone and releases none of them. -/
theorem foldl_cancelEngine (names : List String) (s : Service) :
    (names.foldl (fun s name => s.cancelEngine name) s).registry = s.registry ∧
      ∀ other, ((names.foldl (fun s name => s.cancelEngine name) s).engines.get? other).isSome =
        (s.engines.get? other).isSome := by
  induction names generalizing s with
  | nil => exact ⟨rfl, fun _ => rfl⟩
  | cons name names ih =>
    obtain ⟨registry, engines⟩ := ih (s.cancelEngine name)
    refine ⟨registry.trans (registry_cancelEngine s name), fun other => ?_⟩
    exact (engines other).trans (isSome_cancelEngine s name other)

theorem marked_cancelEngine {s : Service} {name other : String} {engine : Engine}
    (marked : other = name ∨ ∀ e, s.engines.get? other = some e → e.meter.cancelled = true)
    (own : (s.cancelEngine name).engines.get? other = some engine) :
    engine.meter.cancelled = true := by
  unfold cancelEngine at own
  split at own
  · next e isEngine =>
    rw [register, Table.get?_set] at own
    split at own
    · cases own
      rfl
    · next apart => exact marked.resolve_left apart _ own
  · next gone =>
    rcases marked with rfl | marked
    · cases gone.symm.trans own
    · exact marked _ own

theorem marked_foldl {names : List String} {s : Service} {other : String} {engine : Engine}
    (marked : other ∈ names ∨ ∀ e, s.engines.get? other = some e → e.meter.cancelled = true)
    (own : (names.foldl (fun s name => s.cancelEngine name) s).engines.get? other =
      some engine) : engine.meter.cancelled = true := by
  induction names generalizing s with
  | nil => exact marked.resolve_left List.not_mem_nil _ own
  | cons name names ih =>
    refine ih ?_ own
    rcases marked with member | marked
    · rcases List.mem_cons.1 member with same | member
      · exact .inr fun _ => marked_cancelEngine (.inl same)
      · exact .inl member
    · exact .inr fun _ => marked_cancelEngine (.inr marked)

/-- Every engine is marked. -/
theorem marked_cancelEngines {s : Service} {name : String} {engine : Engine}
    (own : s.cancelEngines.engines.get? name = some engine) : engine.meter.cancelled = true := by
  refine marked_foldl ?_ own
  cases before : s.engines.get? name with
  | none => exact .inr nofun
  | some e => exact .inl ((s.engines.isSome_get?_iff name).1 (by rw [before]; rfl))

end Service

/-! ## Calls of clients -/

/-- What a client wants the parsed form of a program for. -/
inductive Goal where
  /-- For itself. -/
  | read (program : String)
  /-- To start an execution. -/
  | start (program : String) (argument : Text)

/-- The program that is wanted. -/
def Goal.program : Goal → String
  | .read program => program
  | .start program _ => program

/-- How far a call has come. -/
inductive Call where
  /-- It was not made yet. -/
  | idle
  /-- The program is recorded and its parsed form is to be kept. -/
  | caching (p : Deployment) (m : Manifest)
  /-- The program is removed and its parsed form is to be forgotten. -/
  | uncaching (name : String)
  /-- The program is found and its parsed form is to be looked up. -/
  | looking (goal : Goal) (p : Deployment)
  /-- The program was parsed anew and its parsed form is to be kept. -/
  | keeping (goal : Goal) (p : Deployment) (m : Manifest)
  /-- A parsed program was answered. -/
  | served (p : Deployment) (m : Manifest)
  /-- An execution of the parsed program is to be recorded. -/
  | starting (program : String) (argument : Text) (m : Manifest)
  /-- The execution is recorded and its engine is to be registered. -/
  | created (e : Execution) (m : Manifest) (start : Memory)
  /-- The engine is registered and the run is to be launched. -/
  | registered (e : Execution) (start : Memory)
  /-- The execution was started and answered. -/
  | executed (e : Execution)
  /-- The execution is recorded as cancelled and its engine is to be looked up. -/
  | accepted (name : String)
  /-- The engine was found and is to be marked. -/
  | found (name : String)
  /-- The record of the cancelled execution is to be read. -/
  | signalled (name : String)
  /-- The cancellation was answered. -/
  | cancelled (name : String) (answer : Except Problem Execution)
  /-- Every engine is marked and the runs are waited for. -/
  | waiting
  /-- The shutdown is over. -/
  | down
  /-- It was answered in some other way. -/
  | returned

/-- What a call does with the answer of a section: it goes on, or it returns the problem. -/
def Call.after {α : Type} (answer : Except Problem α) (next : α → Call) : Call :=
  match answer with
  | .ok a => next a
  | .error _ => .returned

/-- What a call does with a parsed program. -/
def Goal.next (p : Deployment) (m : Manifest) : Goal → Call
  | .read _ => .served p m
  | .start program argument => .starting program argument m

/-- One section of a call. A call that waits for runs to end and one that launches a run depend on
more than the service, so their sections are in `World.Step`. -/
inductive CallStep (s : Service) : Call → Service → Call → Prop
  /-- A request is refused before it comes to a section. -/
  | refuse : CallStep s .idle s .returned
  | deploy {s' : Service} {answer : Except Problem Deployment} {m : Manifest} (parent : String)
      (id source description : Text) (labels : Option Labels)
      (valid : Resource.checkProgramId id = .ok ()) (parsed : Manifest.ofText id source = .ok m)
      (locked : (s.onRegistry fun r now => r.createProgram now parent id.lossy source
        (if description.isEmpty then m.description else description) labels) = (s', answer)) :
    CallStep s .idle s' (.after answer (.caching · m))
  | update {s' : Service} {answer : Except Problem Deployment} {m : Manifest} (name : String)
      (source description : Text) (labels : Option Labels) (given : source.isEmpty = false)
      (parsed : Manifest.ofText name source = .ok m)
      (locked : (s.onRegistry fun r now => r.updateProgram now name source description labels) =
        (s', answer)) :
    CallStep s .idle s' (.after answer (.caching · m))
  /-- An update without a source leaves the parsed form alone. -/
  | relabel {s' : Service} {answer : Except Problem Deployment} (name : String)
      (source description : Text) (labels : Option Labels) (absent : source.isEmpty = true)
      (locked : (s.onRegistry fun r now => r.updateProgram now name source description labels) =
        (s', answer)) :
    CallStep s .idle s' .returned
  | delete {s' : Service} {answer : Except Problem Unit} (name : String)
      (locked : (s.onRegistry fun r _ => r.deleteProgram name) = (s', answer)) :
    CallStep s .idle s' (.after answer fun _ => .uncaching name)
  | cache {p : Deployment} {m : Manifest} : CallStep s (.caching p m) (s.cache p m) .returned
  | uncache {name : String} : CallStep s (.uncaching name) (s.uncache name) .returned
  | look (goal : Goal) :
    CallStep s .idle s (.after (s.registry.program goal.program) (.looking goal))
  | hit {goal : Goal} {p : Deployment} {m : Manifest} (kept : s.cached? p = some m) :
    CallStep s (.looking goal p) s (goal.next p m)
  | miss {goal : Goal} {p : Deployment} {m : Manifest} (missing : s.cached? p = none)
      (parsed : Manifest.ofText p.id p.source = .ok m) :
    CallStep s (.looking goal p) s (.keeping goal p m)
  | unreadable {goal : Goal} {p : Deployment} (missing : s.cached? p = none)
      (unparsed : ∀ m, Manifest.ofText p.id p.source ≠ .ok m) :
    CallStep s (.looking goal p) s .returned
  | keep {goal : Goal} {p : Deployment} {m : Manifest} :
    CallStep s (.keeping goal p m) (s.cache p m) (goal.next p m)
  | misfit {program : String} {argument : Text} {m : Manifest}
      (unfit : ∀ start, m.initialStore argument ≠ .ok start) :
    CallStep s (.starting program argument m) s .returned
  /-- An execution is recorded under a name that no execution has, whatever the numbering. -/
  | create {program : String} {argument : Text} {m : Manifest} {start : Memory} {s' : Service}
      {answer : Except Problem Execution} (id : String) (issued : Nat)
      (fit : m.initialStore argument = .ok start)
      (fresh : s.registry.executions.get? (Resource.execution program id) = none)
      (locked : ({ s with issued }.onRegistry fun r now => r.createExecution now id program
        (if argument.isEmpty then none else some start)) = (s', answer)) :
    CallStep s (.starting program argument m) s' (.after answer (.created · m start))
  | register {e : Execution} {m : Manifest} {start : Memory} :
    CallStep s (.created e m start) (s.register e.name (.new m.program s.budget))
      (.registered e start)
  | cancel {s' : Service} {answer : Except Problem Unit} (name : String)
      (locked : (s.onRegistry fun r now => r.cancelExecution now name) = (s', answer)) :
    CallStep s .idle s' (.after answer fun _ => .accepted name)
  | find {name : String} (running : (s.engines.get? name).isSome) :
    CallStep s (.accepted name) s (.found name)
  | lose {name : String} (gone : s.engines.get? name = none) :
    CallStep s (.accepted name) s (.signalled name)
  | signal {name : String} : CallStep s (.found name) (s.cancelEngine name) (.signalled name)
  | answer {name : String} :
    CallStep s (.signalled name) s (.cancelled name (s.registry.execution name))
  | shutdown : CallStep s .idle s.cancelEngines .waiting

/-! ## Background runs -/

/-- How far the background run of an execution has come. -/
inductive Run where
  /-- It was not launched. -/
  | none
  /-- It is to begin from the store. -/
  | launched (start : Memory)
  /-- Its engine runs the program. -/
  | running
  /-- Its engine has returned, and how the run ended is to be recorded. -/
  | finished (status : Engine.Status)
  /-- The end is recorded and the engine is to be released. -/
  | recorded
  /-- The engine is released. -/
  | released
  /-- It is over, and nobody waits for it any more. -/
  | ended

/-- One section of the background run of the execution `name`. The engine works on its own between
two questions of the program, so each step of the program is a section. -/
inductive RunStep (s : Service) (name : String) : Run → Service → Run → Prop
  | begin {start : Memory} {engine : Engine} (own : s.engines.get? name = some engine) :
    RunStep s name (.launched start) (s.register name (engine.begin start)) .running
  | step {engine engine' : Engine} (own : s.engines.get? name = some engine)
      (more : engine.advance .background 1 = (engine', .running)) :
    RunStep s name .running (s.register name engine') .running
  | finish {engine engine' : Engine} {status : Engine.Status}
      (own : s.engines.get? name = some engine)
      (last : engine.advance .background 1 = (engine', status)) (isOver : status ≠ .running) :
    RunStep s name .running (s.register name engine') (.finished status)
  | record {status : Engine.Status} {engine : Engine}
      (own : s.engines.get? name = some engine) :
    RunStep s name (.finished status) (s.recordEnd name engine status) .recorded
  | release : RunStep s name .recorded (s.release name) .released
  | exit : RunStep s name .released s .ended

/-! ## Worlds -/

/-- A service with the calls of its clients and the background runs of its executions. -/
structure World where
  service : Service
  calls : Nat → Call
  runs : String → Run

namespace World

/-- A service at which nothing goes on. -/
def rest (s : Service) : World :=
  ⟨s, fun _ => .idle, fun _ => .none⟩

/-- The record of an execution. -/
def record (w : World) (name : String) : Option Execution :=
  w.service.registry.executions.get? name

/-- The engine of an execution. -/
def engine (w : World) (name : String) : Option Engine :=
  w.service.engines.get? name

/-- One section of one call or of one background run. -/
inductive Step : World → World → Prop
  | call {w : World} {s : Service} {next : Call} (c : Nat)
      (step : CallStep w.service (w.calls c) s next) :
    Step w ⟨s, Function.update w.calls c next, w.runs⟩
  /-- The run is counted among those that a shutdown waits for, and starts. -/
  | launch {w : World} {e : Execution} {start : Memory} (c : Nat)
      (ready : w.calls c = .registered e start) :
    Step w ⟨w.service, Function.update w.calls c (.executed e),
      Function.update w.runs e.name (.launched start)⟩
  /-- A shutdown has waited until no run is under way. -/
  | wait {w : World} (c : Nat) (waits : w.calls c = .waiting)
      (quiet : ∀ name, w.runs name = .none ∨ w.runs name = .ended) :
    Step w ⟨w.service, Function.update w.calls c .down, w.runs⟩
  | run {w : World} {s : Service} {next : Run} (name : String)
      (step : RunStep w.service name (w.runs name) s next) :
    Step w ⟨s, w.calls, Function.update w.runs name next⟩

/-- Any order of sections leads from one world to the other. -/
def Reaches : World → World → Prop :=
  Relation.ReflTransGen Step

end World

end ImpHost
