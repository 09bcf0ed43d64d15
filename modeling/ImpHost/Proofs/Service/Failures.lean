import ImpHost.Proofs.Diagnostic
import ImpHost.Proofs.Service.Histories

/-!
Executions fail with what their engines return.

A failure stays in the record in which it once stands, and it comes there in one section only: the
run of the execution records what its engine has returned (`World.Step.failure_cases`). An engine
returns once, because one call at most starts an execution (`World.Once`). So a failure that is
found at any moment of a history is that of the one moment at which the engine has returned.

Main statement: `failures_are_read_back`.
-/

namespace ImpHost

/-! ## Failures that are recorded -/

/-- The operation that records the end of a run. -/
def Engine.Status.recording (name : String) (engine : Engine) (status : Status) : Operation :=
  let left := engine.snapshot?.getD ∅
  match status.problem? with
  | some why => .failExecution name why (some left) engine.steps
  | none => .completeExecution name left engine.steps

theorem Service.registry_recordEnd (s : Service) (name : String) (engine : Engine)
    (status : Engine.Status) :
    (s.recordEnd name engine status).registry =
      ((status.recording name engine).run s.registry s.tick.clock).1 := by
  unfold recordEnd Engine.Status.recording
  cases status.problem? with
  | none => exact (Registry.Outcome.verdict_fst _).symm
  | some why => exact (Registry.Outcome.verdict_fst _).symm

namespace Registry

variable {r : Registry} {now : Instant} {name target : String} {engine : Engine}
  {status : Engine.Status} {e : Execution}

/-- What is recorded of the end of a run: a failure only if the run has failed. -/
theorem change_of_recording {change : Change}
    (due : (status.recording name engine).Due r now change) :
    ∃ old end_, r.executions.get? name = some old ∧
      change = .execution name (({ old with steps := engine.steps }).settle now end_) ∧
      ∀ e, (end_ e).state = .failed → ∃ why context, status = .failed why ∧
        (end_ e).failure? = some ⟨payload why.problem, context⟩ := by
  unfold Engine.Status.recording at due
  cases status with
  | failed why =>
    dsimp only [Engine.Status.problem?] at due
    cases due with
    | failExecution old => exact ⟨_, _, old, rfl, fun _ _ => ⟨why, _, rfl, rfl⟩⟩
  | running | succeeded =>
    dsimp only [Engine.Status.problem?] at due
    cases due with
    | completeExecution old => exact ⟨_, _, old, rfl, fun _ failed => by cases failed⟩

/-- A failure that is found after the end of a run was recorded was there before, or is the one with
which the run has ended. -/
theorem failure_of_recording
    (found : ((status.recording target engine).run r now).1.executions.get? name = some e)
    (failed : e.state = .failed) :
    (∃ old, r.executions.get? name = some old ∧ old.state = .failed ∧
      e.failure? = old.failure?) ∨
    target = name ∧ ∃ why context, status = .failed why ∧
      e.failure? = some ⟨payload why.problem, context⟩ := by
  have course := (status.recording target engine).run_cases r now
  generalize (status.recording target engine).run r now = out at course found
  cases course with
  | refused | unwritten => exact .inl ⟨e, found, failed, rfl⟩
  | made due _ =>
    obtain ⟨old, end_, recorded, rfl, ends⟩ := change_of_recording due
    rw [changed, withExecution, Table.get?_set] at found
    split at found
    · next same =>
      cases found
      unfold Execution.settle at failed ⊢
      split at failed
      · next active =>
        rw [if_pos active]
        exact .inr ⟨same.symm, ends _ failed⟩
      · next isOver =>
        rw [if_neg isOver]
        exact .inl ⟨old, same ▸ recorded, failed, rfl⟩
    · exact .inl ⟨e, found, failed, rfl⟩

end Registry

namespace World

variable {w w' : World} {s : Service} {name : String} {e : Execution} {status : Engine.Status}

/-- In this section the engine of the execution returns. -/
structure Returns (w w' : World) (name : String) (status : Engine.Status) : Prop where
  step : Step w w'
  before : w.runs name = .running
  engine : ∃ engine engine', w.engine name = some engine ∧
    engine.advance .background 1 = (engine', status) ∧ status ≠ .running
  after : w'.runs name = .finished status

/-- A call leaves the failures of executions as they are. -/
theorem failure_of_call {c : Nat} {next : Call} (step : CallStep w.service (w.calls c) s next)
    (found : s.registry.executions.get? name = some e) (failed : e.state = .failed) :
    w.record name = some e := by
  have move := Step.move_of_call name step
  generalize after : life ⟨s, Function.update w.calls c next, w.runs⟩ name = l at move
  have record : l.record = some e := after ▸ found
  have run : l.run = w.runs name := after ▸ rfl
  cases move with
  | other | register | launch | work | release | exit => exact record
  | create c e' fresh active =>
    cases record
    cases active.symm.trans failed
  | record finished => cases run.trans finished
  | cancel c old e' recorded active cancelled =>
    cases record
    cases cancelled.symm.trans failed

/-- A failure that is recorded was there before, or the run of the execution records what its engine
has returned. -/
theorem Step.failure_cases (step : Step w w') (found : w'.record name = some e)
    (failed : e.state = .failed) :
    (∃ old, w.record name = some old ∧ old.state = .failed ∧ e.failure? = old.failure?) ∨
    ∃ why context, w.runs name = .finished (.failed why) ∧
      e.failure? = some ⟨Registry.payload why.problem, context⟩ := by
  cases step with
  | call c step => exact .inl ⟨e, failure_of_call step found failed, failed, rfl⟩
  | launch | wait => exact .inl ⟨e, found, failed, rfl⟩
  | run target step =>
    generalize here : w.runs target = run at step
    cases step with
    | begin | step | finish | release | exit => exact .inl ⟨e, found, failed, rfl⟩
    | @record status engine own =>
      have recorded : (w.service.recordEnd target engine status).registry.executions.get? name =
        some e := found
      rw [Service.registry_recordEnd] at recorded
      rcases Registry.failure_of_recording recorded failed with
        before | ⟨rfl, why, context, rfl, isFailure⟩
      · exact .inl before
      · exact .inr ⟨why, context, here, isFailure⟩

/-- A run is finished once its engine has returned. -/
theorem Step.finished_cases (step : Step w w') (finished : w'.runs name = .finished status) :
    w.runs name = .finished status ∨ Returns w w' name status := by
  have whole := step
  cases step with
  | call | wait => exact .inl finished
  | launch c ready =>
    dsimp only at finished
    rw [Function.update_apply] at finished
    split at finished
    · cases finished
    · exact .inl finished
  | run target step =>
    dsimp only at finished
    have after := finished
    rw [Function.update_apply] at finished
    split at finished
    · next same =>
      subst same
      subst finished
      generalize here : w.runs name = run at step
      cases step with
      | finish own last isOver => exact .inr ⟨whole, here, ⟨_, _, own, last, isOver⟩, after⟩
    · exact .inl finished

/-! ## An engine returns once -/

/-- One call at most starts the execution, and before that there is no run of it. -/
structure Once (l : Life) : Prop where
  one : ∀ c c' stage stage', l.stage c = some stage → l.stage c' = some stage' → c = c'
  unrecorded : l.record = none → (∀ c, l.stage c = none) ∧ l.run = .none
  unlaunched : ∀ c stage, l.stage c = some stage → stage ≠ .executed → l.run = .none

/-- The call that goes on with the execution is the one that starts it. -/
theorem Once.eq_of_update {l : Life} (once : Once l) {c i : Nat} {stage next stage' : Stage}
    (here : l.stage c = some stage)
    (starts : Function.update l.stage c (some next) i = some stage') : i = c := by
  rw [Function.update_apply] at starts
  split at starts
  · assumption
  · exact once.one i c stage' stage starts here

/-- An execution that is started or run is recorded. -/
theorem Once.not_unrecorded {l : Life} (once : Once l) {c : Nat} {stage : Stage}
    (here : l.stage c = some stage) : l.record ≠ none := by
  intro absent
  cases ((once.unrecorded absent).1 c).symm.trans here

/-- What runs was launched, and is recorded. -/
theorem Once.of_run {l : Life} (once : Once l) (runs : l.run ≠ .none)
    (record : Option Execution) (kept : record = none → l.record = none) (engine : Option Engine)
    (run : Run) : Once { l with record, engine, run } :=
  ⟨once.one, fun absent => (runs (once.unrecorded (kept absent)).2).elim,
    fun c stage here early => (runs (once.unlaunched c stage here early)).elim⟩

theorem Once.move {l l' : Life} (once : Once l) (move : l.Move l') : Once l' := by
  cases move with
  | other => exact ⟨once.one, once.unrecorded, once.unlaunched⟩
  | create c e fresh active =>
    obtain ⟨nobody, unrun⟩ := once.unrecorded fresh
    have starts {i : Nat} {stage : Stage}
        (starts : Function.update l.stage c (some .created) i = some stage) : i = c := by
      rw [Function.update_apply] at starts
      split at starts
      · assumption
      · cases (nobody i).symm.trans starts
    exact ⟨fun _ _ _ _ first second => (starts first).trans (starts second).symm, nofun,
      fun _ _ _ _ => unrun⟩
  | register c engine ready =>
    refine ⟨fun _ _ _ _ first second => ?_, fun absent => ?_, fun _ _ _ _ => ?_⟩
    · exact (once.eq_of_update ready first).trans (once.eq_of_update ready second).symm
    · exact (once.not_unrecorded ready absent).elim
    · exact once.unlaunched c _ ready (by decide)
  | launch c start ready =>
    refine ⟨fun _ _ _ _ first second => ?_, fun absent => ?_, fun i stage starts early => ?_⟩
    · exact (once.eq_of_update ready first).trans (once.eq_of_update ready second).symm
    · exact (once.not_unrecorded ready absent).elim
    · cases once.eq_of_update ready starts
      cases (Function.update_self ..).symm.trans starts
      exact (early rfl).elim
  | work engine run before after =>
    refine once.of_run (fun unrun => ?_) _ id _ _
    rw [unrun] at before
    exact before
  | @record _ _ _ e' finished =>
    exact once.of_run (by rw [finished]; nofun) (some e') nofun _ _
  | release recorded => exact once.of_run (by rw [recorded]; nofun) _ id _ _
  | exit released => exact once.of_run (by rw [released]; nofun) _ id _ _
  | cancel c e e' recorded active =>
    exact ⟨once.one, nofun, once.unlaunched⟩

/-- A section of a run takes no record away. -/
theorem unrecorded_of_run {target : String} {run next : Run}
    (step : RunStep w.service target run s next)
    (absent : s.registry.executions.get? name = none) : w.record name = none := by
  cases step with
  | begin | step | finish | release | exit => exact absent
  | @record status engine own =>
    rw [Service.registry_recordEnd] at absent
    have course := (status.recording target engine).run_cases w.service.registry
      w.service.tick.clock
    generalize (status.recording target engine).run w.service.registry _ = out at course absent
    cases course with
    | refused | unwritten => exact absent
    | made due _ =>
      obtain ⟨old, end_, recorded, rfl, -⟩ := Registry.change_of_recording due
      rw [Registry.changed, Registry.withExecution, Table.get?_set] at absent
      split at absent
      · cases absent
      · exact absent

/-- There is no section of a run that was not launched. -/
theorem launched_of_run {run next : Run} (step : RunStep w.service name run s next) :
    run ≠ .none := by
  cases step <;> nofun

/-- Each section leaves at most one call that starts the execution. -/
theorem Once.step (once : Once (w.life name)) (step : Step w w') : Once (w'.life name) := by
  cases step with
  | call c step => exact once.move (Step.move_of_call name step)
  | launch c ready => exact once.move (move_of_launch name ready)
  | wait c waits quiet =>
    exact once.move (move_of_apart waits rfl rfl ⟨rfl, id⟩ ⟨rfl, id⟩)
  | @run s next target step =>
    have kept : s.registry.executions.get? name = none → w.record name = none :=
      unrecorded_of_run step
    by_cases mine : name = target
    · subst mine
      exact once.of_run (launched_of_run step) _ kept _ _
    · have isRun : Function.update w.runs target next name = w.runs name :=
        Function.update_of_ne mine ..
      rw [life_run rfl rfl isRun]
      exact ⟨once.one, fun absent => once.unrecorded (kept absent), once.unlaunched⟩


/-- The engine of the run has returned. -/
def HasReturned : Run → Prop
  | .finished _ => True
  | run => run.Settled

/-- An engine that has returned does not run again. -/
theorem HasReturned.step (returned : HasReturned (w.runs name)) (once : Once (w.life name))
    (step : Step w w') : HasReturned (w'.runs name) := by
  cases step with
  | call | wait => exact returned
  | @launch e start c ready =>
    dsimp only
    rw [Function.update_apply]
    split
    · next mine =>
      have stage : (w.life name).stage c = some .registered := by
        change (w.calls c).stage? name = _
        rw [ready]
        exact if_pos mine.symm
      have unrun : w.runs name = .none := once.unlaunched c _ stage (by decide)
      rw [unrun] at returned
      exact returned.elim
    · exact returned
  | run target step =>
    dsimp only
    rw [Function.update_apply]
    split
    · next mine =>
      subst mine
      generalize w.runs name = run at step returned
      cases step with
      | begin | step | finish => exact returned.elim
      | record | release | exit => trivial
    · exact returned

/-! ## Histories -/

section

variable {σ : Nat → World} {i j n : Nat}

theorem History.once (history : History (rest s) σ) (name : String) (n : Nat) :
    Once ((σ n).life name) := by
  induction n with
  | zero =>
    rw [history.init]
    exact ⟨nofun, fun _ => ⟨fun _ => rfl, rfl⟩, fun _ _ _ _ => rfl⟩
  | succ n ih =>
    rcases history.next n with same | step
    · rwa [same]
    · exact ih.step step

theorem History.hasReturned_of_le (history : History (rest s) σ) (later : i ≤ n)
    (returned : HasReturned ((σ i).runs name)) : HasReturned ((σ n).runs name) := by
  induction later with
  | refl => exact returned
  | @step n _ ih =>
    rcases history.next n with same | step
    · rwa [same]
    · exact ih.step (history.once name n) step

/-- The engine of an execution returns in one section at most. -/
theorem History.eq_of_returns (history : History (rest s) σ) {status status' : Engine.Status}
    (first : Returns (σ i) (σ (i + 1)) name status)
    (second : Returns (σ j) (σ (j + 1)) name status') : j = i := by
  have notLater {i j : Nat} {status status' : Engine.Status}
      (first : Returns (σ i) (σ (i + 1)) name status)
      (second : Returns (σ j) (σ (j + 1)) name status') : ¬ i < j := by
    intro later
    have returned : HasReturned ((σ (i + 1)).runs name) := by
      rw [first.after]
      trivial
    have returned := history.hasReturned_of_le later returned
    rw [second.before] at returned
    exact returned
  exact Nat.le_antisymm (Nat.le_of_not_lt (notLater first second))
    (Nat.le_of_not_lt (notLater second first))

/-- A run is finished because its engine has returned. -/
theorem History.returns_of_finished (history : History (rest s) σ)
    (finished : (σ n).runs name = .finished status) :
    ∃ i < n, Returns (σ i) (σ (i + 1)) name status := by
  induction n with
  | zero =>
    rw [history.init] at finished
    cases finished
  | succ n ih =>
    have earlier (finished : (σ n).runs name = .finished status) :
        ∃ i < n + 1, Returns (σ i) (σ (i + 1)) name status := by
      obtain ⟨i, before, returns⟩ := ih finished
      exact ⟨i, Nat.lt_succ_of_lt before, returns⟩
    rcases history.next n with same | step
    · rw [same] at finished
      exact earlier finished
    · rcases step.finished_cases finished with before | returns
      · exact earlier before
      · exact ⟨n, Nat.lt_succ_self n, returns⟩

/-- A failure that is recorded in a history is what an engine has returned in it. -/
theorem History.returns_of_failed (history : History (rest s) σ)
    (unfailed : ∀ e, s.registry.executions.get? name = some e → e.state ≠ .failed)
    (found : (σ n).record name = some e) (failed : e.state = .failed) :
    ∃ i < n, ∃ why context, Returns (σ i) (σ (i + 1)) name (.failed why) ∧
      e.failure? = some ⟨Registry.payload why.problem, context⟩ := by
  induction n generalizing e with
  | zero =>
    rw [history.init] at found
    exact (unfailed e found failed).elim
  | succ n ih =>
    have earlier {old : Execution} (found : (σ n).record name = some old)
        (failed : old.state = .failed) (kept : e.failure? = old.failure?) :
        ∃ i < n + 1, ∃ why context, Returns (σ i) (σ (i + 1)) name (.failed why) ∧
          e.failure? = some ⟨Registry.payload why.problem, context⟩ := by
      obtain ⟨i, before, why, context, returns, failure⟩ := ih found failed
      exact ⟨i, Nat.lt_succ_of_lt before, why, context, returns, kept.trans failure⟩
    rcases history.next n with same | step
    · rw [same] at found
      exact earlier found failed rfl
    · rcases step.failure_cases found failed with
        ⟨old, before, wasFailed, kept⟩ | ⟨why, context, finished, failure⟩
      · exact earlier before wasFailed kept
      · obtain ⟨i, before, returns⟩ := history.returns_of_finished finished
        exact ⟨i, Nat.lt_succ_of_lt before, why, context, returns, failure⟩

end

end World

/-- A diagnostic of any kind and at any position comes back from its payload. An execution that was
recorded as failed while the service served has failed with what its engine has returned, once, and
if that is a diagnostic it is read from the record. -/
theorem failures_are_read_back :
    (∀ d : Diagnostic, d.kind ≠ "" → Value.minInt ≤ d.pos → d.pos ≤ Value.maxInt →
      Diagnostic.ofPayload d.payload = .ok d) ∧
    ∀ (s : Service) (σ : Nat → World), World.History (World.rest s) σ →
      ∀ (n : Nat) (name : String) (e : Execution),
        (∀ e₀, s.registry.executions.get? name = some e₀ → e₀.state ≠ .failed) →
        (σ n).record name = some e → e.state = .failed →
        ∃ i < n, ∃ why failure, World.Returns (σ i) (σ (i + 1)) name (.failed why) ∧
          (∀ j status, World.Returns (σ j) (σ (j + 1)) name status → j = i) ∧
          e.failure? = some failure ∧
          ∀ d, why.problem.diagnostic? = some d → Diagnostic.ofPayload failure.payload = .ok d := by
  refine ⟨fun _ => Diagnostic.ofPayload_payload, ?_⟩
  intro s σ history n name e unfailed found failed
  obtain ⟨i, before, why, context, returns, failure⟩ :=
    history.returns_of_failed unfailed found failed
  exact ⟨i, before, why, _, returns, fun _ _ => history.eq_of_returns returns, failure,
    fun _ told => why.ofPayload_payload told⟩

/-! ## An unbound variable -/

/-- A service with one deployed program, which reads an unbound variable. -/
def straying : Service :=
  let p : Deployment := ⟨"p", ∅, .active, "000001-000", ⟨0⟩, ⟨0⟩, ∅, none⟩
  let m : Manifest := ⟨∅, ∅, ∅, ∅, .assign "x" (.var "y")⟩
  ⟨⟨Table.set ∅ "p" p, ∅, 1, none⟩, 0, Table.set ∅ "p" ⟨p.revision, m⟩, ∅, 0, ⟨0⟩⟩

/-- The first execution of its program. -/
def strayingExecution : Execution :=
  ⟨Resource.execution "p" (Service.executionId 1), .active, "", "", none, ⟨1⟩, .unset, "000001-000",
    0⟩

/-- The service after it was started. -/
def strayingStarted : Service :=
  { straying with
    registry :=
      { straying.registry with executions := Table.set ∅ strayingExecution.name strayingExecution }
    engines := Table.set ∅ strayingExecution.name ((Engine.new (.assign "x" (.var "y")) 0).begin ∅)
    issued := 1
    clock := ⟨1⟩ }

theorem straying_execute :
    straying.execute "p" ∅ = (strayingStarted, .ok strayingExecution) := by
  have found : straying.program "p" = (straying, .ok ⟨∅, ∅, ∅, ∅, .assign "x" (.var "y")⟩) := rfl
  unfold Service.execute
  rw [found]
  dsimp only
  rw [Manifest.initialStore_empty]
  rfl

/-- A diagnostic before the source and with characters to escape comes back. The execution fails,
its engine has returned once, and the variable that was unbound is read from the record. -/
theorem failures_are_read_back_straying :
    Diagnostic.ofPayload (Diagnostic.payload ⟨"k", "a \"<\n", -3, "é"⟩) =
      .ok ⟨"k", "a \"<\n", -3, "é"⟩ ∧
    ∃ σ n e, World.History (World.rest straying) σ ∧
      (σ n).record strayingExecution.name = some e ∧ e.state = .failed ∧
      ∃ i < n, ∃ why failure,
        World.Returns (σ i) (σ (i + 1)) strayingExecution.name (.failed why) ∧
        e.failure? = some failure ∧
        Diagnostic.ofPayload failure.payload = .ok (.unbound "y") := by
  obtain ⟨comesBack, readBack⟩ := failures_are_read_back
  let name := strayingExecution.name
  let engine := (((Engine.new (.assign "x" (.var "y")) 0).begin ∅).advance .background 1).1
  let why : Failure Interruption := .program (.unbound "y")
  let s₁ := strayingStarted.register name engine
  have own : strayingStarted.engines.get? name =
      some ((Engine.new (.assign "x" (.var "y")) 0).begin ∅) := Table.get?_set_self ..
  have finish : RunStep strayingStarted name .running s₁ (.finished (.failed why)) :=
    .finish own rfl (by decide)
  have record : RunStep s₁ name (.finished (.failed why)) (s₁.recordEnd name engine (.failed why))
      .recorded := .record (Table.get?_set_self ..)
  have started : (World.rest straying).Reaches ⟨strayingStarted, _, _⟩ :=
    World.reaches_execute (c := 0) rfl rfl straying_execute
  have reached := (started.tail (World.step_run finish)).tail (World.step_run record)
  obtain ⟨σ, n, history, there⟩ := World.exists_history reached
  obtain ⟨e, found, failed, failure, isFailure, payload⟩ :
      ∃ e, (σ n).record name = some e ∧ e.state = .failed ∧ ∃ failure, e.failure? = some failure ∧
        failure.payload = (Diagnostic.unbound "y").payload := by
    rw [there]
    exact ⟨_, rfl, rfl, _, rfl, rfl⟩
  obtain ⟨i, before, why', failure', returns, -, isFailure', -⟩ :=
    readBack straying σ history n name e nofun found failed
  cases isFailure.symm.trans isFailure'
  refine ⟨comesBack _ (by decide) (by decide) (by decide), σ, n, e, history, found, failed, i,
    before, why', failure, returns, isFailure, ?_⟩
  rw [payload]
  exact comesBack _ (by decide) (by decide) (by decide)

end ImpHost
