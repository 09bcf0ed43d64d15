import ImpHost.Problem
import ImpHost.Program.Machine

/-!
Engines: hosts that bound a run of one program by a step budget, by the context in which it runs
and by an explicit cancellation. Before each step the context is asked first, then the cancellation
mark, and then the step is counted against the budget.
-/

namespace ImpHost

/-- Why a context is over. -/
inductive ContextEnd where
  | cancelled
  | deadline
deriving DecidableEq

/-- The wording of a context's end. -/
def ContextEnd.text : ContextEnd → String
  | .cancelled => "context canceled"
  | .deadline => "context deadline exceeded"

/-- A context: what it answers when it is asked for the `n`-th time, counted from one. -/
abbrev Context := Nat → Option ContextEnd

/-- The context that never ends. -/
def Context.background : Context :=
  fun _ => none

/-- The context that is over for `why` from the `n`-th time on that it is asked. -/
def Context.endsAt (n : Nat) (why : ContextEnd) : Context :=
  fun i => if n ≤ i then some why else none

/-- Why an engine stops a run. -/
inductive Interruption where
  | context (why : ContextEnd)
  | cancelled
  | limit (budget : Int)
deriving DecidableEq

/-- The diagnostic of an interruption. -/
def Interruption.report : Interruption → Diagnostic
  | .context why => .cancelled ("execution stopped: " ++ why.text)
  | .cancelled => .cancelled "execution cancelled"
  | .limit budget =>
    .limit ("execution exceeded maximum step limit of " ++ toString budget)

/-- The problem that a failure of a program tells. -/
def EvalError.problem (e : EvalError) : Problem :=
  match e.report? with
  | some d => .ofDiagnostic d
  | none => .plain e.message

/-- The problem that a failed run tells. -/
def Failure.problem : Failure Interruption → Problem
  | .host e => .ofDiagnostic e.report
  | .program e => e.problem

/-- What an engine keeps count of during a run. -/
structure Meter where
  /-- The steps counted so far. -/
  steps : Nat
  /-- How often the context was asked. -/
  asked : Nat
  /-- Whether the engine was cancelled. -/
  cancelled : Bool
deriving DecidableEq

/-- The engine's say before a step. A budget of zero or less is none. -/
def Meter.tick (budget : Int) (context : Context) : Hook Meter Interruption :=
  fun s _ =>
    let s := { s with asked := s.asked + 1 }
    match context s.asked with
    | some why => (s, some (.context why))
    | none =>
      if s.cancelled then (s, some .cancelled)
      else
        let s := { s with steps := s.steps + 1 }
        if 0 < budget ∧ budget < s.steps then (s, some (.limit budget)) else (s, none)

/-- An engine for one program. -/
structure Engine where
  program : Command
  budget : Int
  meter : Meter
  /-- The current or the last run; none before the first. -/
  machine : Option Machine
deriving DecidableEq

namespace Engine

/-- The step budget where none is given. -/
def defaultBudget : Int := 1000000

/-- An engine that has not run yet. -/
def new (program : Command) (budget : Int) : Engine :=
  ⟨program, budget, ⟨0, 0, false⟩, none⟩

/-- Marks the engine as cancelled, for good. -/
def cancel (e : Engine) : Engine :=
  { e with meter := { e.meter with cancelled := true } }

/-- The steps of the current or the last run. -/
def steps (e : Engine) : Nat :=
  e.meter.steps

/-- The store of the current or the last run. -/
def snapshot? (e : Engine) : Option Memory :=
  e.machine.map Machine.memory

/-- Begins a run: counting starts from zero. -/
def begin (e : Engine) (m : Memory) : Engine :=
  { e with meter := ⟨0, 0, e.meter.cancelled⟩, machine := some (.start e.program m) }

/-- Whether a run goes on, and how it ended if it does not. -/
inductive Status where
  | running
  | succeeded
  | failed (why : Failure Interruption)
deriving DecidableEq

/-- The problem with which a run ended, if it did. -/
def Status.problem? : Status → Option Problem
  | .failed why => some why.problem
  | _ => none

/-- Takes up the run for at most `fuel` steps. -/
def advance (context : Context) (fuel : Nat) (e : Engine) : Engine × Status :=
  match e.machine with
  | none => (e, .succeeded)
  | some machine =>
    match machine.run (Meter.tick e.budget context) fuel e.meter with
    | .done meter m => ({ e with meter, machine := some ⟨[], m⟩ }, .succeeded)
    | .failed why meter m => ({ e with meter, machine := some ⟨[], m⟩ }, .failed why)
    | .running meter machine => ({ e with meter, machine := some machine }, .running)

/-- Runs the program from the store `m` for at most `fuel` steps. With a budget `n > 0` a fuel of
`n + 1` ends every run. -/
def execute (context : Context) (fuel : Nat) (e : Engine) (m : Memory) : Engine × Status :=
  (e.begin m).advance context fuel

end Engine

end ImpHost
