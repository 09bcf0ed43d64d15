import Mathlib.Algebra.GroupWithZero.Nat
import ImpHost.Proofs.Engine.Budget
import ImpHost.Proofs.Engine.Slices
import ImpHost.Proofs.Manifest
import ImpHost.Proofs.Registry.Operations
import ImpHost.Proofs.Resource
import ImpHost.Proofs.Service.Sequential

/-!
Runs in the background and runs on the spot.

An execution of a deployed program runs in slices of any length, with its engine kept by the service
in between, and its end is read from a record. A run of bare source has one engine and returns it.
Both are runs of one engine: slices add up (`Engine.advance_add`), and a record tells what the
engine has at its end (`Service.execution_advance`). So for one text and one argument the two agree
at every moment, and with a run that has no host unless the budget cuts them off
(`Service.runs_agree`).
-/

namespace ImpHost

/-! ## Runs without a host -/

/-- How a run has gone that no host can stop. -/
def Engine.Status.ofFree : Outcome Unit Empty → Engine.Status
  | .done _ _ => .succeeded
  | .failed (.program why) _ _ => .failed (.program why)
  | .running _ _ => .running

/-- A run that its budget does not cut off goes as the run without a host. -/
theorem Meter.run_freely (budget : Int) {s : Meter} (active : s.cancelled = false) (fuel : Nat)
    (machine : Machine) :
    let o := machine.run (tick budget .background) fuel s
    let free := machine.run Machine.freely fuel ()
    (∃ s' m, o = .failed (.host (.limit budget)) s' m) ∨
      Engine.statusOf o = .ofFree free ∧ o.memory = free.memory := by
  induction fuel generalizing s machine with
  | zero =>
    obtain ⟨pending, m⟩ := machine
    cases pending <;> exact .inr ⟨rfl, rfl⟩
  | succ fuel ih =>
    obtain ⟨pending, m⟩ := machine
    cases pending with
    | nil => exact .inr ⟨rfl, rfl⟩
    | cons c k =>
      rcases run_cons budget active fuel c k m with
        ⟨_, run⟩ | ⟨_, e, step, run⟩ | ⟨_, machine, step, run⟩
      · exact .inl ⟨_, _, run⟩
      · have free : Machine.run Machine.freely (fuel + 1) () ⟨c :: k, m⟩ =
            .failed (.program e) () m := by
          rw [Machine.run, Machine.freely]
          dsimp only
          rw [step]
        dsimp only
        rw [run, free]
        exact .inr ⟨rfl, rfl⟩
      · have free : Machine.run Machine.freely (fuel + 1) () ⟨c :: k, m⟩ =
            machine.run Machine.freely fuel () := by
          rw [Machine.run, Machine.freely]
          dsimp only
          rw [step]
        dsimp only
        rw [run, free]
        exact ih (s := s.count 1) active machine

/-! ## Records of runs -/

/-- The record tells how the run has gone that has left the store `left` after so many steps. -/
def Execution.Tells (e : Execution) (left : Memory) (steps : Nat) : Engine.Status → Prop
  | .running => e.state = .active
  | .succeeded =>
    e.state = .succeeded ∧ e.result = left.toJson.render ∧ e.failure? = none ∧ e.steps = steps
  | .failed why =>
    e.state = .failed ∧ e.result = "" ∧ e.steps = steps ∧
      e.failure? = some ⟨Registry.payload why.problem, left.toJson.render⟩

/-- The record is as it was made when the execution was started. -/
structure Execution.New (e : Execution) : Prop where
  state : e.state = .active
  result : e.result = ""
  failure : e.failure? = none

namespace Service

variable {s : Service} {name : String} {e : Execution} {engine : Engine} {status : Engine.Status}
  {fuel n : Nat}

theorem recordEnd_tells (recorded : s.registry.executions.get? e.name = some e) (new : e.New)
    (accepts : s.registry.Accepts e.name) (isOver : status ≠ .running) :
    ∃ e', (s.recordEnd e.name engine status).registry.executions.get? e.name = some e' ∧
      e'.argument = e.argument ∧ e'.Tells (engine.snapshot?.getD ∅) engine.steps status := by
  have settled (steps : Int) (now : Instant) (end_ : Execution → Execution) :
      ({ e with steps }).settle now end_ = { end_ { e with steps } with ended := now } :=
    if_pos new.state
  cases status with
  | running => exact (isOver rfl).elim
  | succeeded =>
    refine ⟨{ e with
      state := .succeeded, result := (engine.snapshot?.getD ∅).toJson.render
      steps := engine.steps, ended := s.tick.clock }, ?_, rfl, rfl, rfl, new.failure, rfl⟩
    simp only [recordEnd, Engine.Status.problem?, onRegistry, Registry.completeExecution]
    rw [Registry.finish_of_accepts (r := s.tick.registry) recorded accepts, settled]
    exact Table.get?_set_self ..
  | failed why =>
    refine ⟨{ e with
      state := .failed
      failure? := some ⟨Registry.payload why.problem, (engine.snapshot?.getD ∅).toJson.render⟩
      steps := engine.steps, ended := s.tick.clock }, ?_, rfl, rfl, new.result, rfl, rfl⟩
    simp only [recordEnd, Engine.Status.problem?, onRegistry, Registry.failExecution]
    rw [Registry.finish_of_accepts (r := s.tick.registry) recorded accepts, settled]
    exact Table.get?_set_self ..

/-- The service is where the run of `engine` is after `n` steps: it keeps the engine and the record
is as it was made, or the engine is released and the record tells how the run ended. -/
inductive Follows (s : Service) (e : Execution) (engine : Engine) (n : Nat) : Prop
  | running (status : (engine.advance .background n).2 = .running)
      (own : s.engines.get? e.name = some (engine.advance .background n).1)
      (recorded : s.registry.executions.get? e.name = some e)
      (accepts : s.registry.Accepts e.name)
  | ended (status : (engine.advance .background n).2 ≠ .running)
      (gone : s.engines.get? e.name = none) (e' : Execution)
      (recorded : s.registry.executions.get? e.name = some e')
      (tells : e'.Tells ((engine.advance .background n).1.snapshot?.getD ∅)
        (engine.advance .background n).1.steps (engine.advance .background n).2)

theorem advance_eq (own : s.engines.get? name = some engine) :
    s.advance fuel name = if (engine.advance .background fuel).2 = .running
      then s.register name (engine.advance .background fuel).1
      else (s.recordEnd name (engine.advance .background fuel).1
        (engine.advance .background fuel).2).release name := by
  unfold advance
  rw [own]
  dsimp only
  generalize engine.advance .background fuel = out
  obtain ⟨engine', status⟩ := out
  cases status <;> rfl

theorem Follows.advance (new : e.New) (follows : s.Follows e engine n) (fuel : Nat) :
    (s.advance fuel e.name).Follows e engine (n + fuel) := by
  cases follows with
  | running status own recorded accepts =>
    have more := Engine.advance_add (b := fuel) status
    rw [advance_eq own, ← more]
    split
    · next running =>
      exact .running running (Table.get?_set_self ..) recorded accepts
    · next isOver =>
      obtain ⟨e', recorded', _, tells⟩ := recordEnd_tells recorded new accepts isOver
      exact .ended isOver (Table.get?_erase_self ..) e' recorded' tells
  | ended status gone e' recorded tells =>
    have same : s.advance fuel e.name = s := by
      unfold Service.advance
      rw [gone]
    have more := Engine.advance_of_over (b := fuel) status
    rw [← more] at status tells
    rw [same]
    exact .ended status gone e' recorded tells

theorem Follows.slices (new : e.New) (slices : List Nat) (follows : s.Follows e engine n) :
    (slices.foldl (fun s fuel => s.advance fuel e.name) s).Follows e engine (n + slices.sum) := by
  induction slices generalizing s n with
  | nil => exact follows
  | cons fuel slices ih =>
    rw [List.sum_cons, ← Nat.add_assoc]
    exact ih (follows.advance new fuel)

/-- The run is live as long as it is not over, and the record tells how it has gone. -/
theorem Follows.tells (new : e.New) (follows : s.Follows e engine n) :
    let run := engine.advance .background n
    ((s.live? e.name).isSome ↔ run.2 = .running) ∧
      ∃ e', s.registry.execution e.name = .ok e' ∧
        e'.Tells (run.1.snapshot?.getD ∅) run.1.steps run.2 := by
  dsimp only
  cases follows with
  | running status own recorded _ =>
    refine ⟨⟨fun _ => status, fun _ => by rw [live?, own]; rfl⟩, e, ?_, ?_⟩
    · rw [Registry.execution, recorded]
    · rw [status]
      exact new.state
  | ended status gone e' recorded tells =>
    refine ⟨⟨fun live => ?_, fun running => (status running).elim⟩, e', ?_, tells⟩
    · rw [live?, gone] at live
      cases live
    · rw [Registry.execution, recorded]

/-! ## Starting a run -/

theorem onRegistry_eq {α : Type} {f : Registry → Instant → Registry.Outcome α} {r : Registry}
    {answer : Except Problem α} (done : f s.registry s.tick.clock = (r, answer)) :
    s.onRegistry f = ({ s.tick with registry := r }, answer) := by
  have done : f s.tick.registry s.tick.clock = (r, answer) := done
  simp only [onRegistry, done]

theorem program_of_cached {p : Deployment} {m : Manifest}
    (held : s.registry.programs.get? name = some p) (kept : s.cached? p = some m) :
    s.program name = (s, .ok m) := by
  simp only [program, Registry.program, held, kept]

/-- The service after a record of a program was written and its parsed form kept. -/
def written (s : Service) (name : String) (p : Deployment) (m : Manifest) : Service :=
  { s.tick with registry := s.registry.changed (.program name p) }.cache p m

/-- A program under a name that is free is written as it is given, with the description of its
manifest if none is given. -/
theorem deploy_eq_written {parent : String} {id source : Text} {m : Manifest}
    (valid : Resource.checkProgramId id = .ok ()) (read : Manifest.ofText id source = .ok m)
    (free : s.registry.programs.get? (Resource.program parent id.lossy) = none)
    (accepts : s.registry.Accepts (Resource.program parent id.lossy)) (description : Text)
    (labels : Option Labels) :
    ∃ p : Deployment,
      s.deploy parent id source description labels = (s.written p.name p m, .ok p) ∧
      p.name = Resource.program parent id.lossy ∧ p.source = source ∧
      p.description = if description.isEmpty then m.description else description := by
  let given := if description.isEmpty then m.description else description
  let p : Deployment :=
    { name := Resource.program parent id.lossy, description := given, state := .active
      revision := Registry.revisionText (s.registry.revisions + 1), created := s.tick.clock
      updated := s.tick.clock, source, labels }
  have created : s.registry.createProgram s.tick.clock parent id.lossy source given labels =
      (s.registry.changed (.program p.name p), .ok p) := by
    simp only [Registry.createProgram, free, Option.isSome_none, Bool.false_eq_true, if_false,
      Registry.putProgram_of_accepts accepts]
    rfl
  refine ⟨p, ?_, rfl, rfl, rfl⟩
  simp only [deploy, valid, read]
  rw [onRegistry_eq created]
  rfl

/-- A program is deployed under a name that is free, and its parsed form is kept. -/
theorem deploy_of_free {parent : String} {id source : Text} {m : Manifest}
    (valid : Resource.checkProgramId id = .ok ()) (read : Manifest.ofText id source = .ok m)
    (free : s.registry.programs.get? (Resource.program parent id.lossy) = none)
    (accepts : s.registry.Accepts (Resource.program parent id.lossy)) (description : Text)
    (labels : Option Labels) :
    ∃ s' p, s.deploy parent id source description labels = (s', .ok p) ∧
      p.name = Resource.program parent id.lossy ∧ s'.budget = s.budget ∧ s'.issued = s.issued ∧
      s'.registry.programs.get? p.name = some p ∧ s'.program p.name = (s', .ok m) ∧
      ∀ key, s.registry.Accepts key → s'.registry.Accepts key := by
  obtain ⟨p, deployed, name, -⟩ := deploy_eq_written valid read free accepts description labels
  have held : (s.written p.name p m).registry.programs.get? p.name = some p :=
    Table.get?_set_self ..
  have kept : (s.written p.name p m).cached? p = some m := by
    simp only [cached?, written, cache, Table.get?_set_self, if_true]
  exact ⟨s.written p.name p m, p, deployed, name, rfl, rfl, held, program_of_cached held kept,
    fun key accepts => Registry.Accepts.withProgram accepts _ _⟩

/-- An execution of a program is recorded, and its engine is at the start of the run. -/
theorem execute_of_program {s' : Service} {p : Deployment} {m : Manifest} {argument : Text}
    {start : Memory} (found : s.program name = (s', .ok m))
    (held : s.registry.programs.get? name = some p) (fit : m.initialStore argument = .ok start)
    (accepts : s.registry.Accepts (Resource.execution name (executionId (s.issued + 1)))) :
    ∃ s'' e, s.execute name argument = (s'', .ok e) ∧ e.New ∧
      s''.engines.get? e.name = some ((Engine.new m.program s'.budget).begin start) ∧
      s''.registry.executions.get? e.name = some e ∧ s''.registry.Accepts e.name := by
  obtain ⟨registry, issued⟩ := s.program_fst name
  rw [found] at registry issued
  dsimp only at registry issued
  rw [← registry] at held accepts
  rw [← issued] at accepts
  let argument? := if argument.isEmpty then none else some start
  let e : Execution :=
    { name := Resource.execution name (executionId (s'.issued + 1)), state := .active
      argument := (argument?.map fun m : Memory => m.toJson.render).getD "", result := ""
      failure? := none, started := s'.tick.clock, ended := .unset, revision := p.revision
      steps := 0 }
  let s₁ : Service := { s' with issued := s'.issued + 1 }
  have created : s'.registry.createExecution s₁.tick.clock (executionId (s'.issued + 1)) name
      argument? = (s'.registry.withExecution e.name e, .ok e) := by
    simp only [Registry.createExecution, held, Registry.putExecution_of_accepts accepts]
    rfl
  let s₂ : Service := { s₁.tick with registry := s'.registry.withExecution e.name e }
  have issued : s'.issue name argument? = (s₂, .ok e) := by
    simp only [issue, held, Option.isSome_some, if_true]
    exact onRegistry_eq (s := s₁) created
  refine ⟨s₂.register e.name ((Engine.new m.program s'.budget).begin start), e, ?_,
    ⟨rfl, rfl, rfl⟩, Table.get?_set_self .., Table.get?_set_self ..,
    Registry.Accepts.withExecution accepts _ _⟩
  simp only [execute, found, fit]
  rw [issued]
  rfl

end Service

/-! ## Agreement -/

/-- The run of an execution of a bare source and the run of the source on the spot are over after
the same number of steps, however the first one is cut into slices. The record of the execution then
tells what the other run returns. Unless the budget cuts them off, both go as the program goes
without a host. -/
theorem Service.runs_agree (s other : Service) (parent : String)
    (id source description argument : Text) (labels : Option Labels) (program : Command)
    (m₀ : Memory) (valid : Resource.checkProgramId id = .ok ())
    (bare : Manifest.isManifest source = false) (parsed : Command.parse source = .ok program)
    (given : Memory.ofJson argument = .ok m₀) (sameBudget : other.budget = s.budget)
    (free : s.registry.programs.get? (Resource.program parent id.lossy) = none)
    (accepts : s.registry.Accepts (Resource.program parent id.lossy))
    (acceptsRun : s.registry.Accepts
      (Resource.execution (Resource.program parent id.lossy) (executionId (s.issued + 1)))) :
    ∃ s₁ p s₂ e engine, s.deploy parent id source description labels = (s₁, .ok p) ∧
      s₁.execute p.name argument = (s₂, .ok e) ∧ other.sourceEngine source m₀ = .ok engine ∧
      (∀ slices : List Nat,
        let after := slices.foldl (fun s fuel => s.advance fuel e.name) s₂
        let run := engine.advance .background slices.sum
        ((after.live? e.name).isSome ↔ run.2 = .running) ∧
        ∃ e', after.registry.execution e.name = .ok e' ∧
          e'.Tells (run.1.snapshot?.getD ∅) run.1.steps run.2) ∧
      ∀ fuel,
        let run := engine.advance .background fuel
        let free := (Machine.start program m₀).run Machine.freely fuel ()
        run.2 = .failed (.host (.limit s.budget)) ∨
          run.2 = .ofFree free ∧ run.1.snapshot? = some free.memory := by
  have read := Manifest.ofText_of_parse id bare parsed
  obtain ⟨s₁, p, deployed, name, budget, issued, held, found, kept⟩ :=
    deploy_of_free valid read free accepts description labels
  have fit : (Manifest.mk id ∅ ∅ source program).initialStore argument = .ok m₀ := by
    rw [Manifest.initialStore, given]
    exact congrArg Except.ok (Table.empty_merge m₀)
  rw [← name] at acceptsRun
  rw [← issued] at acceptsRun
  obtain ⟨s₂, e, executed, new, own, recorded, acceptsEnd⟩ :=
    execute_of_program found held fit (kept _ acceptsRun)
  let engine := (Engine.new program s.budget).begin m₀
  have sourceEngine : other.sourceEngine source m₀ = .ok engine := by
    rw [Service.sourceEngine, Manifest.ofSource_of_parse ∅ parsed, sameBudget]
    dsimp only
    rw [Table.empty_merge]
  rw [budget] at own
  have begun : s₂.Follows e engine 0 := .running rfl own recorded acceptsEnd
  refine ⟨s₁, p, s₂, e, engine, deployed, executed, sourceEngine, fun slices => ?_, fun fuel => ?_⟩
  · have follows := begun.slices new slices
    rw [Nat.zero_add] at follows
    exact follows.tells new
  · obtain ⟨_, snapshot, status⟩ :=
      Engine.execute_eq .background fuel (Engine.new program s.budget) m₀
    rcases Meter.run_freely s.budget (s := ⟨0, 0, false⟩) rfl fuel (.start program m₀) with
      ⟨s', m, cut⟩ | ⟨same, memory⟩
    · refine .inl (status.trans ?_)
      exact congrArg Engine.statusOf cut
    · exact .inr ⟨status.trans same, snapshot.trans (congrArg some memory)⟩

/-- The execution of `x := y` from a store with `y`, in three slices. -/
theorem Service.runs_agree_assignment :
    let left : Memory := Table.ofList [("y", .int 7), ("x", .int 7)]
    ∃ s₁ p s₂ e engine e',
      (Service.new .empty 1 ⟨0⟩).deploy "l" "p" "x := y" ∅ none = (s₁, .ok p) ∧
      s₁.execute p.name "\x7b\"y\":7\x7d" = (s₂, .ok e) ∧
      (Service.new .empty 1 ⟨9⟩).sourceEngine "x := y" (Table.set ∅ "y" (.int 7)) = .ok engine ∧
      (engine.advance .background 3).2 = .succeeded ∧
      ([0, 1, 2].foldl (fun s fuel => s.advance fuel e.name) s₂).registry.execution e.name =
        .ok e' ∧
      e'.state = .succeeded ∧ e'.result = left.toJson.render ∧ e'.steps = 1 := by
  intro left
  let program : Command := .assign "x" (.var "y")
  have isX : Token.IsName "x" :=
    Token.isName_iff.2 ⟨'x', [], by decide, by decide, by simp, by decide⟩
  have isY : Token.IsName "y" :=
    Token.isName_iff.2 ⟨'y', [], by decide, by decide, by simp, by decide⟩
  have parsed : Command.parse "x := y" = .ok program :=
    Command.parse_of_readFrom (by decide) (Command.readFrom_format (c := program) ⟨isX, isY⟩)
  have read : (Memory.ofJson "\x7b\"y\":7\x7d").toOption = some (Table.set ∅ "y" (.int 7)) := by
    rw [Memory.ofJson, Text.chars_ofString]
    decide +kernel
  have given : Memory.ofJson "\x7b\"y\":7\x7d" = .ok (Table.set ∅ "y" (.int 7)) := by
    cases isRead : Memory.ofJson "\x7b\"y\":7\x7d" with
    | ok m =>
      rw [isRead] at read
      exact congrArg Except.ok (Option.some.inj read)
    | error why =>
      rw [isRead] at read
      cases read
  have valid : Resource.checkProgramId "p" = .ok () :=
    Resource.checkProgramId_ofString (by decide) (by decide)
  obtain ⟨s₁, p, s₂, e, engine, deployed, executed, sourceEngine, agrees, _⟩ :=
    runs_agree (.new .empty 1 ⟨0⟩) (.new .empty 1 ⟨9⟩) "l" "p" "x := y" ∅ _ none program _ valid
      (by decide +kernel) parsed given rfl rfl nofun nofun
  have isEngine : engine = (Engine.new program 1).begin (Table.set ∅ "y" (.int 7)) := by
    rw [Service.sourceEngine, Manifest.ofSource_of_parse ∅ parsed] at sourceEngine
    cases sourceEngine
    rfl
  have status : (engine.advance .background [0, 1, 2].sum).2 = .succeeded := by
    rw [isEngine]
    decide
  obtain ⟨_, e', recorded, tells⟩ := agrees [0, 1, 2]
  rw [status] at tells
  obtain ⟨state, result, _, steps⟩ := tells
  refine ⟨s₁, p, s₂, e, engine, e', deployed, executed, sourceEngine, status, recorded, state,
    result.trans ?_, steps.trans ?_⟩
  · rw [isEngine]
    rfl
  · rw [isEngine]
    rfl

end ImpHost
