import ImpHost.Engine
import ImpHost.Proofs.Program.Run

/-!
Slices of a run.

A run of an engine may be left and taken up again, and slices add up (`Engine.advance_add`). Between
two slices an engine may be marked as cancelled, and no slice takes the mark away
(`Engine.cancelled_advance`). In a slice of one step the engine is asked once: it stops the run if
its context is over or if it is marked (`Engine.advance_one_of_stop`), and otherwise goes on as in a
context that never ends (`Engine.advance_one_of_pass`).
-/

namespace ImpHost

/-! ## Slices of a run -/

namespace Engine

variable {e : Engine} {context : Context} {a b : Nat}

/-- A run that goes on after a slice has a command to run next. -/
theorem exists_of_advance_running (running : (e.advance context a).2 = .running) :
    ∃ machine meter c k m, e.machine = some machine ∧
      machine.run (Meter.tick e.budget context) a e.meter = .running meter ⟨c :: k, m⟩ ∧
      (e.advance context a).1 = { e with meter, machine := some ⟨c :: k, m⟩ } := by
  unfold advance at running ⊢
  cases isMachine : e.machine with
  | none =>
    rw [isMachine] at running
    cases running
  | some machine =>
    simp only [isMachine] at running ⊢
    cases run : machine.run (Meter.tick e.budget context) a e.meter with
    | done | failed =>
      rw [run] at running
      cases running
    | running meter next =>
      obtain ⟨pending, m⟩ := next
      obtain ⟨c, k, rfl⟩ := Machine.pending_of_running run
      exact ⟨machine, meter, c, k, m, rfl, run, rfl⟩

/-- A run that was left is taken up where it was. -/
theorem advance_add (running : (e.advance context a).2 = .running) :
    e.advance context (a + b) = (e.advance context a).1.advance context b := by
  unfold advance at running ⊢
  cases isMachine : e.machine with
  | none =>
    rw [isMachine] at running
    cases running
  | some machine =>
    simp only [isMachine, Machine.run_add] at running ⊢
    cases run : machine.run (Meter.tick e.budget context) a e.meter with
    | done | failed =>
      rw [run] at running
      cases running
    | running => rfl

theorem advance_of_over (isOver : (e.advance context a).2 ≠ .running) :
    e.advance context (a + b) = e.advance context a := by
  unfold advance at isOver ⊢
  cases isMachine : e.machine with
  | none => rfl
  | some machine =>
    simp only [isMachine, Machine.run_add] at isOver ⊢
    cases run : machine.run (Meter.tick e.budget context) a e.meter with
    | done | failed => rfl
    | running =>
      rw [run] at isOver
      exact (isOver rfl).elim

/-- A run has one end. -/
theorem advance_eq_of_over (here : (e.advance context a).2 ≠ .running)
    (there : (e.advance context b).2 ≠ .running) :
    e.advance context a = e.advance context b := by
  rw [← advance_of_over (b := b) here, ← advance_of_over (b := a) there, Nat.add_comm]

end Engine

/-! ## What an engine keeps -/

theorem Engine.program_advance (e : Engine) (context : Context) (fuel : Nat) :
    (e.advance context fuel).1.program = e.program ∧
      (e.advance context fuel).1.budget = e.budget := by
  unfold advance
  split
  · exact ⟨rfl, rfl⟩
  · split <;> exact ⟨rfl, rfl⟩

theorem Meter.cancelled_tick (budget : Int) (context : Context) (s : Meter) (c : Command) :
    (tick budget context s c).1.cancelled = s.cancelled := by
  unfold tick
  dsimp only
  split
  · rfl
  · split
    · rfl
    · split <;> rfl

theorem Meter.cancelled_run (budget : Int) (context : Context) (fuel : Nat) (s : Meter)
    (machine : Machine) :
    (machine.run (tick budget context) fuel s).host.cancelled = s.cancelled := by
  induction fuel generalizing s machine with
  | zero =>
    obtain ⟨pending, m⟩ := machine
    cases pending <;> rfl
  | succ fuel ih =>
    obtain ⟨pending, m⟩ := machine
    cases pending with
    | nil => rfl
    | cons c k =>
      have kept := cancelled_tick budget context s c
      rw [Machine.run]
      split
      · next told =>
        rw [told] at kept
        exact kept
      · next told =>
        rw [told] at kept
        split
        · exact (ih _ _).trans kept
        · exact kept

theorem Engine.cancelled_advance (context : Context) (fuel : Nat) (engine : Engine) :
    (engine.advance context fuel).1.meter.cancelled = engine.meter.cancelled := by
  unfold advance
  cases engine.machine with
  | none => rfl
  | some machine =>
    have kept := Meter.cancelled_run engine.budget context fuel engine.meter machine
    dsimp only
    split
    all_goals
      next run =>
        rw [run] at kept
        exact kept

/-! ## Slices of one step -/

/-- Why an engine stops a run that has to stop: its context is over, or else it was cancelled. -/
def Interruption.ofContext : Option ContextEnd → Interruption
  | some why => .context why
  | none => .cancelled

/-- One step is the same with two hosts that answer its question alike. -/
theorem Machine.run_one_congr {σ ε : Type} {hook hook' : Hook σ ε} {s : σ} {c : Command}
    {k : List Command} {m : Memory} (told : hook s c = hook' s c) :
    run hook 1 s ⟨c :: k, m⟩ = run hook' 1 s ⟨c :: k, m⟩ := by
  rw [run, run, told]
  split
  · rfl
  · split
    · next machine _ =>
      obtain ⟨pending, m⟩ := machine
      cases pending <;> rfl
    · rfl

namespace Engine

variable {e : Engine} {context : Context} {c : Command} {k : List Command} {m : Memory}

/-- The engine stops the run at a question if its context is over by then or if it is marked. The
context is asked first, and the step is not counted. -/
theorem advance_one_of_stop (here : e.machine = some ⟨c :: k, m⟩)
    (stop : context (e.meter.asked + 1) ≠ none ∨ e.meter.cancelled = true) :
    e.advance context 1 =
      ({ e with meter := { e.meter with asked := e.meter.asked + 1 }, machine := some ⟨[], m⟩ },
        .failed (.host (.ofContext (context (e.meter.asked + 1))))) := by
  have told : Meter.tick e.budget context e.meter c =
      ({ e.meter with asked := e.meter.asked + 1 },
        some (.ofContext (context (e.meter.asked + 1)))) := by
    cases found : context (e.meter.asked + 1) with
    | some why => simp only [Meter.tick, found, Interruption.ofContext]
    | none =>
      have marked : e.meter.cancelled = true := stop.resolve_left fun ends => ends found
      simp only [Meter.tick, found, marked, if_true, Interruption.ofContext]
  simp only [advance, here, Machine.run, told]

/-- An engine whose context is not over by the next question goes on as in a context that never
ends. -/
theorem advance_one_of_pass (here : e.machine = some ⟨c :: k, m⟩)
    (pass : context (e.meter.asked + 1) = none) :
    e.advance context 1 = e.advance .background 1 := by
  have told : Meter.tick e.budget context e.meter c =
      Meter.tick e.budget .background e.meter c := by
    simp only [Meter.tick, pass, Context.background]
  simp only [advance, here, Machine.run_one_congr told]

/-- An engine that was marked does not make another step. -/
theorem advance_cancelled (cancelled : e.meter.cancelled = true) :
    (e.advance .background 1).2 ≠ .running := by
  cases here : e.machine with
  | none =>
    rw [advance, here]
    nofun
  | some machine =>
    obtain ⟨pending, m⟩ := machine
    cases pending with
    | nil =>
      rw [advance, here]
      nofun
    | cons c k =>
      rw [advance_one_of_stop here (.inr cancelled)]
      nofun

end Engine

end ImpHost
