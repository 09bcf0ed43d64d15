import ImpHost.Program.Eval

/-!
Running programs. A machine holds the commands that are still to be run and the store. One step
takes the first command: it acts on the store or puts the commands that it is made of in its place.
A loop whose condition holds puts its body and then itself, so that its condition is tested again.

Before each step the host is asked; it keeps a state of its own and may stop the run. `Machine.run`
makes as many steps as its fuel allows and can be taken up again where it ended.
-/

namespace ImpHost

/-- A program in the middle of a run. -/
structure Machine where
  pending : List Command
  memory : Memory
deriving DecidableEq

/-- One step of a run: the first command `c` with the commands `k` after it. On failure the store
stays as it is. -/
def Command.step (c : Command) (k : List Command) (m : Memory) : Except EvalError Machine :=
  match c with
  | .skip => .ok ⟨k, m⟩
  | .assign x e => do
    let v ← e.eval m
    return ⟨k, m.set x v⟩
  | .seq a b => .ok ⟨a :: b :: k, m⟩
  | .ite e a b => do
    let v ← e.eval m
    return ⟨(if v then a else b) :: k, m⟩
  | .whileDo e a => do
    let v ← e.eval m
    return ⟨if v then a :: .whileDo e a :: k else k, m⟩
  | .hole => .error (.hole .command)

/-- What a host says before a step: its next state, and why it stops the run if it does. -/
abbrev Hook (σ ε : Type) := σ → Command → σ × Option ε

/-- Why a run failed: the host stopped it, or the program failed. -/
inductive Failure (ε : Type) where
  | host (e : ε)
  | program (e : EvalError)
deriving DecidableEq

/-- How far a run got. -/
inductive Outcome (σ ε : Type) where
  /-- Every command was run. -/
  | done (host : σ) (memory : Memory)
  /-- The run failed; the store has all writes before the failure. -/
  | failed (why : Failure ε) (host : σ) (memory : Memory)
  /-- The fuel is used up. -/
  | running (host : σ) (machine : Machine)

namespace Outcome

/-- The host's state at the end. -/
def host {σ ε : Type} : Outcome σ ε → σ
  | .done s _ => s
  | .failed _ s _ => s
  | .running s _ => s

/-- The store at the end. -/
def memory {σ ε : Type} : Outcome σ ε → Memory
  | .done _ m => m
  | .failed _ _ m => m
  | .running _ machine => machine.memory

end Outcome

namespace Machine

/-- The start of a run of `c`. -/
def start (c : Command) (m : Memory) : Machine :=
  ⟨[c], m⟩

/-- Runs for at most `fuel` steps. -/
def run {σ ε : Type} (hook : Hook σ ε) : (fuel : Nat) → σ → Machine → Outcome σ ε
  | _, s, ⟨[], m⟩ => .done s m
  | 0, s, machine => .running s machine
  | fuel + 1, s, ⟨c :: k, m⟩ =>
    match hook s c with
    | (s, some e) => .failed (.host e) s m
    | (s, none) =>
      match c.step k m with
      | .ok machine => run hook fuel s machine
      | .error e => .failed (.program e) s m

/-- The host that never stops a run. -/
def freely : Hook Unit Empty :=
  fun _ _ => ((), none)

end Machine

end ImpHost
