import ImpHost.Proofs.Registry.Executions
import ImpHost.Proofs.Service.Interleaving

/-!
The life of one execution, in whatever goes on at a service.

`World.life` keeps of a world what concerns one execution: its record, its engine, its background
run, and how far each call has come with it. A section of a call or a run moves that life in one of
nine ways or not at all (`World.Step.move`), although there are some thirty sections. The phases
through which a life goes are then an invariant of nine small moves (`Life.Sound.move`).
-/

namespace ImpHost

/-! ## Sections of a service -/

namespace Service

variable {α : Type} {s s' : Service} {name : String}

theorem of_onRegistry {f : Registry → Instant → Registry.Outcome α} {answer : Except Problem α}
    (locked : s.onRegistry f = (s', answer)) :
    ∃ now, f s.registry now = (s'.registry, answer) ∧ s'.engines = s.engines := by
  cases locked
  exact ⟨_, rfl, rfl⟩

end Service

/-- The state in which the record of an execution ends that nobody cancelled. -/
def Engine.Status.state : Engine.Status → ExecutionState
  | .failed _ => .failed
  | _ => .succeeded

/-- Only an active execution takes the state of its end, and the end does not change its steps. -/
theorem Execution.settle_spec {e : Execution} {end_ : Execution → Execution}
    {state : ExecutionState} (now : Instant) (steps : (end_ e).steps = e.steps)
    (ends : (end_ e).state = state) :
    (e.settle now end_).steps = e.steps ∧
      (e.settle now end_).state = if e.state = .active then state else e.state := by
  unfold settle
  split
  · exact ⟨steps, ends⟩
  · exact ⟨rfl, rfl⟩

/-- The end of a run is recorded with the steps of its engine. An execution that is not active any
more stays in its state. -/
theorem Service.recordEnd_writes {s : Service} {name : String} {e : Execution}
    (healthy : s.registry.Healthy) (recorded : s.registry.executions.get? name = some e)
    (engine : Engine) (status : Engine.Status) :
    ∃ e' : Execution, e'.steps = engine.steps ∧
      e'.state = (if e.state = .active then status.state else e.state) ∧
      s.registry.Writes name e' (s.recordEnd name engine status).registry ∧
      (s.recordEnd name engine status).engines = s.engines := by
  unfold recordEnd
  cases status with
  | failed why =>
    refine ⟨_, ?_, ?_, healthy.finish _ recorded _ _, rfl⟩
    · exact (Execution.settle_spec _ rfl rfl).1
    · exact (Execution.settle_spec _ rfl rfl).2
  | running | succeeded =>
    refine ⟨_, ?_, ?_, healthy.finish _ recorded _ _, rfl⟩
    · exact (Execution.settle_spec _ rfl rfl).1
    · exact (Execution.settle_spec _ rfl rfl).2

/-! ## The life of one execution -/

/-- How far the call has come that starts an execution. -/
inductive Stage where
  | created
  | registered
  | executed
deriving DecidableEq

namespace Call

/-- How far a call has come that starts the execution `name`. -/
def stage? (name : String) : Call → Option Stage
  | .created e _ _ => if e.name = name then some .created else none
  | .registered e _ => if e.name = name then some .registered else none
  | .executed e => if e.name = name then some .executed else none
  | _ => none

/-- The call has cancelled the execution `name`. -/
def HasCancelled (name : String) : Call → Prop
  | .accepted target => target = name
  | .found target => target = name
  | .signalled target => target = name
  | .cancelled target _ => target = name
  | _ => False

/-- The call neither starts the execution `name` nor has cancelled it. -/
def Apart (name : String) (call : Call) : Prop :=
  call.stage? name = none ∧ ¬ call.HasCancelled name

/-- A call after an answer has returned or goes on with what was answered. -/
theorem after_of {α : Type} {P : Call → Prop} {next : α → Call} (answer : Except Problem α)
    (returned : P .returned) (each : ∀ a, P (next a)) : P (after answer next) := by
  cases answer with
  | ok a => exact each a
  | error why => exact returned

theorem apart_after {α : Type} {name : String} {next : α → Call} (answer : Except Problem α)
    (apart : ∀ a, (next a).Apart name) : (after answer next).Apart name :=
  after_of answer ⟨rfl, id⟩ apart

theorem apart_next (name : String) (goal : Goal) (p : Deployment) (m : Manifest) :
    (goal.next p m).Apart name := by
  cases goal <;> exact ⟨rfl, id⟩

end Call

/-- What a world has of one execution: its record, its engine, its background run, how far each call
has come that starts it, and which calls have cancelled it. -/
structure Life where
  record : Option Execution
  engine : Option Engine
  run : Run
  stage : Nat → Option Stage
  cancels : Nat → Prop

/-- The life of the execution `name`. -/
def World.life (w : World) (name : String) : Life :=
  ⟨w.record name, w.engine name, w.runs name, fun c => (w.calls c).stage? name,
    fun c => (w.calls c).HasCancelled name⟩

/-- The run is under way and its end is not recorded. -/
def Run.Busy : Run → Prop
  | .launched _ => True
  | .running => True
  | .finished _ => True
  | _ => False

/-- The end of the run is recorded. -/
def Run.Settled : Run → Prop
  | .recorded => True
  | .released => True
  | .ended => True
  | _ => False

/-- What can happen to one execution. -/
inductive Life.Move : Life → Life → Prop
  /-- Nothing, except that its engine may be marked as cancelled. -/
  | other {l : Life} (engine : Option Engine) (kept : engine.isSome = l.engine.isSome) :
    Move l { l with engine }
  | create {l : Life} (c : Nat) (e : Execution) (fresh : l.record = none)
      (active : e.state = .active) :
    Move l { l with record := some e, stage := Function.update l.stage c (some .created) }
  | register {l : Life} (c : Nat) (engine : Engine) (ready : l.stage c = some .created) :
    Move l { l with engine := some engine
                    stage := Function.update l.stage c (some .registered) }
  | launch {l : Life} (c : Nat) (start : Memory) (ready : l.stage c = some .registered) :
    Move l { l with run := .launched start
                    stage := Function.update l.stage c (some .executed) }
  | work {l : Life} (engine : Engine) (run : Run) (before : l.run.Busy) (after : run.Busy) :
    Move l { l with engine := some engine, run }
  | record {l : Life} {status : Engine.Status} {engine : Engine} {e e' : Execution}
      (finished : l.run = .finished status) (own : l.engine = some engine)
      (recorded : l.record = some e) (steps : e'.steps = engine.steps)
      (state : e'.state = if e.state = .active then status.state else e.state) :
    Move l { l with record := some e', run := .recorded }
  | release {l : Life} (recorded : l.run = .recorded) :
    Move l { l with engine := none, run := .released }
  | exit {l : Life} (released : l.run = .released) : Move l { l with run := .ended }
  | cancel {l : Life} (c : Nat) (e e' : Execution) (recorded : l.record = some e)
      (active : e.state = .active) (cancelled : e'.state = .cancelled) :
    Move l { l with record := some e', cancels := Function.update l.cancels c True }

section

variable {w : World} {s : Service} {call next : Call} {runs : String → Run} {c : Nat}
  {name : String}

theorem life_call :
    World.life ⟨s, Function.update w.calls c next, runs⟩ name =
      ⟨s.registry.executions.get? name, s.engines.get? name, runs name,
        Function.update (w.life name).stage c (next.stage? name),
        Function.update (w.life name).cancels c (next.HasCancelled name)⟩ := by
  unfold World.life World.record World.engine
  congr 1
  · funext i
    exact Function.apply_update (fun _ (call : Call) => call.stage? name) w.calls c next i
  · funext i
    exact Function.apply_update (fun _ (call : Call) => call.HasCancelled name) w.calls c next i

theorem update_stage_eq (here : w.calls c = call) (stage : next.stage? name = call.stage? name) :
    Function.update (w.life name).stage c (next.stage? name) = (w.life name).stage := by
  rw [stage, ← here]
  exact Function.update_eq_self c (w.life name).stage

theorem update_cancels_eq (here : w.calls c = call)
    (cancels : next.HasCancelled name ↔ call.HasCancelled name) :
    Function.update (w.life name).cancels c (next.HasCancelled name) = (w.life name).cancels := by
  rw [propext cancels, ← here]
  exact Function.update_eq_self c (w.life name).cancels

/-- A section that keeps the record and the engine of an execution and goes on with a call that is
where it was with it. -/
theorem move_of_unmoved (here : w.calls c = call) (run : runs name = w.runs name)
    (record : s.registry.executions.get? name = w.record name)
    (engine : (s.engines.get? name).isSome = (w.engine name).isSome)
    (stage : next.stage? name = call.stage? name)
    (cancels : next.HasCancelled name ↔ call.HasCancelled name) :
    (w.life name).Move (World.life ⟨s, Function.update w.calls c next, runs⟩ name) := by
  rw [life_call, record, run, update_stage_eq here stage, update_cancels_eq here cancels]
  exact .other (l := w.life name) _ engine

theorem move_of_apart (here : w.calls c = call)
    (record : s.registry.executions.get? name = w.record name)
    (engine : (s.engines.get? name).isSome = (w.engine name).isSome)
    (before : call.Apart name) (after : next.Apart name) :
    (w.life name).Move (World.life ⟨s, Function.update w.calls c next, w.runs⟩ name) :=
  move_of_unmoved here rfl record engine (after.1.trans before.1.symm)
    (iff_of_false after.2 before.2)

/-- A section of the registry that keeps the executions, of a call that has to do with none. -/
theorem move_of_keeps {α : Type} {f : Registry → Instant → Registry.Outcome α}
    {answer : Except Problem α} (here : w.calls c = call)
    (locked : w.service.onRegistry f = (s, answer))
    (keeps : ∀ (r : Registry) now, r.Keeps (f r now).1)
    (before : call.Apart name) (after : next.Apart name) :
    (w.life name).Move (World.life ⟨s, Function.update w.calls c next, w.runs⟩ name) := by
  obtain ⟨now, out, engines⟩ := Service.of_onRegistry locked
  have kept := keeps w.service.registry now
  rw [out] at kept
  refine move_of_apart here ?_ ?_ before after
  · rw [kept.1]
    rfl
  · rw [engines]
    rfl

theorem move_of_create {program : String} {argument : Text} {m : Manifest} {start : Memory}
    {answer : Except Problem Execution} {key : String} {issued : Nat} {argument? : Option Memory}
    (here : w.calls c = .starting program argument m)
    (fresh : w.record (Resource.execution program key) = none)
    (locked : ({ w.service with issued }.onRegistry fun r now =>
      r.createExecution now key program argument?) = (s, answer)) :
    (w.life name).Move
      (World.life ⟨s, Function.update w.calls c (.after answer (.created · m start)), w.runs⟩
        name) := by
  have apart : (Call.starting program argument m).Apart name := ⟨rfl, id⟩
  obtain ⟨now, out, engines⟩ := Service.of_onRegistry locked
  rcases w.service.registry.createExecution_cases now key program argument? with
    ⟨why, refused⟩ | ⟨r, e, created, called, active, written, _⟩
  · obtain ⟨same, rfl⟩ := Prod.mk.inj (refused.symm.trans out)
    exact move_of_apart here (by rw [← same]; rfl) (by rw [engines]; rfl) apart ⟨rfl, id⟩
  · obtain ⟨same, rfl⟩ := Prod.mk.inj (created.symm.trans out)
    rw [same] at written
    by_cases mine : e.name = name
    · subst mine
      have cancels : (Call.created e m start).HasCancelled e.name ↔
          (Call.starting program argument m).HasCancelled e.name := Iff.rfl
      rw [← called] at fresh
      rw [life_call, Call.after, update_cancels_eq here cancels, written, Table.get?_set_self,
        engines, Call.stage?, if_pos rfl]
      exact .create (l := w.life e.name) c e fresh active
    · refine move_of_apart here ?_ (by rw [engines]; rfl) apart ⟨if_neg mine, id⟩
      rw [written, Table.get?_set_of_ne _ (Ne.symm mine)]
      rfl

theorem move_of_register {e : Execution} {m : Manifest} {start : Memory} (engine : Engine)
    (here : w.calls c = .created e m start) :
    (w.life name).Move (World.life ⟨w.service.register e.name engine,
      Function.update w.calls c (.registered e start), w.runs⟩ name) := by
  have cancels : (Call.registered e start).HasCancelled name ↔
      (Call.created e m start).HasCancelled name := Iff.rfl
  by_cases mine : e.name = name
  · subst mine
    have ready : (w.life e.name).stage c = some .created := by
      change (w.calls c).stage? e.name = _
      rw [here]
      exact if_pos rfl
    rw [life_call, update_cancels_eq here cancels, Service.register, Table.get?_set_self,
      Call.stage?, if_pos rfl]
    exact .register (l := w.life e.name) c engine ready
  · refine move_of_unmoved here rfl rfl ?_ ?_ cancels
    · rw [Service.register, Table.get?_set_of_ne _ (Ne.symm mine)]
      rfl
    · rw [Call.stage?, Call.stage?, if_neg mine, if_neg mine]

theorem move_of_cancel {target : String} {answer : Except Problem Unit}
    (here : w.calls c = .idle)
    (locked : (w.service.onRegistry fun r now => r.cancelExecution now target) = (s, answer)) :
    (w.life name).Move
      (World.life ⟨s, Function.update w.calls c (.after answer fun _ => .accepted target), w.runs⟩
        name) := by
  have apart : Call.idle.Apart name := ⟨rfl, id⟩
  obtain ⟨now, out, engines⟩ := Service.of_onRegistry locked
  rcases w.service.registry.cancelExecution_cases now target with
    ⟨why, refused⟩ | ⟨r, e, cancelled, recorded, active, written, _⟩
  · obtain ⟨same, rfl⟩ := Prod.mk.inj (refused.symm.trans out)
    exact move_of_apart here (by rw [← same]; rfl) (by rw [engines]; rfl) apart ⟨rfl, id⟩
  · obtain ⟨same, rfl⟩ := Prod.mk.inj (cancelled.symm.trans out)
    rw [same] at written
    by_cases mine : target = name
    · subst mine
      have stage : (Call.accepted target).stage? target = Call.idle.stage? target := rfl
      have accepts : (Call.accepted target).HasCancelled target = True := eq_true rfl
      rw [life_call, Call.after, update_stage_eq here stage, written, Table.get?_set_self, engines,
        accepts]
      exact .cancel (l := w.life target) c e _ recorded active rfl
    · refine move_of_apart here ?_ (by rw [engines]; rfl) apart ⟨rfl, mine⟩
      rw [written, Table.get?_set_of_ne _ (Ne.symm mine)]
      rfl

theorem World.Step.move_of_call (name : String)
    (step : CallStep w.service (w.calls c) s next) :
    (w.life name).Move (World.life ⟨s, Function.update w.calls c next, w.runs⟩ name) := by
  have apart_idle : Call.idle.Apart name := ⟨rfl, id⟩
  have apart_returned : Call.returned.Apart name := ⟨rfl, id⟩
  generalize here : w.calls c = call at step
  cases step with
  | refuse => exact move_of_apart here rfl rfl apart_idle apart_returned
  | deploy _ _ _ _ _ _ _ locked =>
    exact move_of_keeps here locked (fun r now => r.keeps_createProgram now _ _ _ _ _) apart_idle
      (Call.apart_after _ fun _ => ⟨rfl, id⟩)
  | update _ _ _ _ _ _ locked =>
    exact move_of_keeps here locked (fun r now => r.keeps_updateProgram now _ _ _ _) apart_idle
      (Call.apart_after _ fun _ => ⟨rfl, id⟩)
  | relabel _ _ _ _ _ locked =>
    exact move_of_keeps here locked (fun r now => r.keeps_updateProgram now _ _ _ _) apart_idle
      apart_returned
  | delete _ locked =>
    exact move_of_keeps here locked (fun r _ => r.keeps_deleteProgram _) apart_idle
      (Call.apart_after _ fun _ => ⟨rfl, id⟩)
  | cache | uncache => exact move_of_apart here rfl rfl ⟨rfl, id⟩ apart_returned
  | look goal =>
    exact move_of_apart here rfl rfl apart_idle (Call.apart_after _ fun _ => ⟨rfl, id⟩)
  | hit _ => exact move_of_apart here rfl rfl ⟨rfl, id⟩ (Call.apart_next name _ _ _)
  | miss _ _ => exact move_of_apart here rfl rfl ⟨rfl, id⟩ ⟨rfl, id⟩
  | unreadable _ _ => exact move_of_apart here rfl rfl ⟨rfl, id⟩ apart_returned
  | keep => exact move_of_apart here rfl rfl ⟨rfl, id⟩ (Call.apart_next name _ _ _)
  | misfit _ => exact move_of_apart here rfl rfl ⟨rfl, id⟩ apart_returned
  | create id issued _ fresh locked => exact move_of_create here fresh locked
  | register => exact move_of_register _ here
  | cancel target locked => exact move_of_cancel here locked
  | find _ => exact move_of_unmoved here rfl rfl rfl rfl Iff.rfl
  | lose _ => exact move_of_unmoved here rfl rfl rfl rfl Iff.rfl
  | signal =>
    refine move_of_unmoved here rfl ?_ (Service.isSome_cancelEngine _ _ _) rfl Iff.rfl
    rw [Service.registry_cancelEngine]
    rfl
  | answer => exact move_of_unmoved here rfl rfl rfl rfl Iff.rfl
  | shutdown =>
    obtain ⟨registry, engines⟩ := Service.foldl_cancelEngine w.service.engines.keys w.service
    refine move_of_apart here ?_ (engines name) apart_idle ⟨rfl, id⟩
    rw [Service.cancelEngines, registry]
    rfl

theorem move_of_launch {e : Execution} {start : Memory} (name : String)
    (ready : w.calls c = .registered e start) :
    (w.life name).Move (World.life ⟨w.service, Function.update w.calls c (.executed e),
      Function.update w.runs e.name (.launched start)⟩ name) := by
  have cancels : (Call.executed e).HasCancelled name ↔
      (Call.registered e start).HasCancelled name := Iff.rfl
  by_cases mine : e.name = name
  · subst mine
    have stage : (w.life e.name).stage c = some .registered := by
      change (w.calls c).stage? e.name = _
      rw [ready]
      exact if_pos rfl
    rw [life_call, update_cancels_eq ready cancels, Call.stage?, if_pos rfl, Function.update_self]
    exact .launch (l := w.life e.name) c start stage
  · refine move_of_unmoved ready (Function.update_of_ne (Ne.symm mine) _ _) rfl rfl ?_ cancels
    rw [Call.stage?, Call.stage?, if_neg mine, if_neg mine]

theorem life_run {record : Option Execution} {engine : Option Engine} {run : Run}
    (isRecord : s.registry.executions.get? name = record)
    (isEngine : s.engines.get? name = engine) (isRun : runs name = run) :
    World.life ⟨s, w.calls, runs⟩ name =
      ⟨record, engine, run, (w.life name).stage, (w.life name).cancels⟩ := by
  rw [← isRecord, ← isEngine, ← isRun]
  rfl

/-- A section of a run moves the life of its own execution. A record is there when the end of the
run is to be recorded. -/
theorem move_of_own_run {next : Run} (healthy : w.service.registry.Healthy)
    (recorded : ∀ status, w.runs name = .finished status → ∃ e, w.record name = some e)
    (step : RunStep w.service name (w.runs name) s next) :
    (w.life name).Move (World.life ⟨s, w.calls, Function.update w.runs name next⟩ name) := by
  have isRun : Function.update w.runs name next name = next := Function.update_self ..
  generalize here : w.runs name = run at step
  have busy {run : Run} (here : w.runs name = run) (busy : run.Busy) : (w.life name).run.Busy := by
    change (w.runs name).Busy
    rwa [here]
  cases step with
  | begin own =>
    rw [life_run rfl (Table.get?_set_self ..) isRun]
    exact .work (l := w.life name) _ _ (busy here trivial) trivial
  | step own more =>
    rw [life_run rfl (Table.get?_set_self ..) isRun]
    exact .work (l := w.life name) _ _ (busy here trivial) trivial
  | finish own last isOver =>
    rw [life_run rfl (Table.get?_set_self ..) isRun]
    exact .work (l := w.life name) _ _ (busy here trivial) trivial
  | @record status engine own =>
    obtain ⟨e, isRecord⟩ := recorded status here
    obtain ⟨e', steps, state, ⟨written, _⟩, engines⟩ :=
      Service.recordEnd_writes healthy isRecord engine status
    rw [life_run (by rw [written, Table.get?_set_self]) (by rw [engines]) isRun]
    exact .record (l := w.life name) here own isRecord steps state
  | release =>
    rw [life_run rfl (Table.get?_erase_self ..) isRun]
    exact .release (l := w.life name) here
  | exit =>
    rw [life_run rfl rfl isRun]
    exact .exit (l := w.life name) here

/-- A section of a run leaves the other executions alone. -/
theorem life_of_other_run {next : Run} {target : String} (healthy : w.service.registry.Healthy)
    (recorded : ∀ status, w.runs target = .finished status → ∃ e, w.record target = some e)
    (other : name ≠ target) (step : RunStep w.service target (w.runs target) s next) :
    World.life ⟨s, w.calls, Function.update w.runs target next⟩ name = w.life name := by
  have isRun : Function.update w.runs target next name = w.runs name :=
    Function.update_of_ne other ..
  generalize here : w.runs target = run at step
  cases step with
  | begin own => exact life_run rfl (Table.get?_set_of_ne _ other _) isRun
  | step own more => exact life_run rfl (Table.get?_set_of_ne _ other _) isRun
  | finish own last isOver => exact life_run rfl (Table.get?_set_of_ne _ other _) isRun
  | @record status engine own =>
    obtain ⟨e, isRecord⟩ := recorded status here
    obtain ⟨e', _, _, ⟨written, _⟩, engines⟩ :=
      Service.recordEnd_writes healthy isRecord engine status
    exact life_run (by rw [written, Table.get?_set_of_ne _ other]; rfl) (by rw [engines]; rfl) isRun
  | release => exact life_run rfl (Table.get?_erase_of_ne _ other) isRun
  | exit => exact life_run rfl rfl isRun

/-- Each section moves the life of each execution. -/
theorem World.Step.move {w' : World} (healthy : w.service.registry.Healthy)
    (recorded : ∀ target status, w.runs target = .finished status →
      ∃ e, w.record target = some e)
    (step : Step w w') (name : String) : (w.life name).Move (w'.life name) := by
  cases step with
  | call c step => exact move_of_call name step
  | launch c ready => exact move_of_launch name ready
  | wait c waits quiet => exact move_of_apart waits rfl rfl ⟨rfl, id⟩ ⟨rfl, id⟩
  | run target step =>
    by_cases mine : name = target
    · subst mine
      exact move_of_own_run healthy (recorded name) step
    · rw [life_of_other_run healthy (recorded target) mine step]
      exact .other _ rfl

/-! ## A healthy registry stays healthy -/

theorem healthy_of_onRegistry {α : Type} {f : Registry → Instant → Registry.Outcome α}
    {answer : Except Problem α} {s' : Service} (locked : s.onRegistry f = (s', answer))
    (healthy : ∀ now, (f s.registry now).1.Healthy) : s'.registry.Healthy := by
  obtain ⟨now, out, _⟩ := Service.of_onRegistry locked
  have kept := healthy now
  rwa [out] at kept

theorem CallStep.healthy {s' : Service} (healthy : s.registry.Healthy)
    (step : CallStep s call s' next) : s'.registry.Healthy := by
  cases step with
  | deploy _ _ _ _ _ _ _ locked =>
    exact healthy_of_onRegistry locked fun now =>
      (s.registry.keeps_createProgram now _ _ _ _ _).2 healthy
  | update _ _ _ _ _ _ locked =>
    exact healthy_of_onRegistry locked fun now =>
      (s.registry.keeps_updateProgram now _ _ _ _).2 healthy
  | relabel _ _ _ _ _ locked =>
    exact healthy_of_onRegistry locked fun now =>
      (s.registry.keeps_updateProgram now _ _ _ _).2 healthy
  | delete _ locked =>
    exact healthy_of_onRegistry locked fun _ => (s.registry.keeps_deleteProgram _).2 healthy
  | create _ _ _ _ locked =>
    exact healthy_of_onRegistry locked fun now => healthy.createExecution now _ _ _
  | cancel _ locked =>
    exact healthy_of_onRegistry locked fun now => healthy.cancelExecution now _
  | signal => rwa [Service.registry_cancelEngine]
  | shutdown => rwa [Service.cancelEngines, (Service.foldl_cancelEngine _ s).1]
  | refuse | cache | uncache | look | hit | miss | unreadable | keep | misfit | register | find
  | lose | answer => exact healthy

theorem RunStep.healthy {s' : Service} {run next : Run} (healthy : s.registry.Healthy)
    (recorded : ∀ status, run = .finished status →
      ∃ e, s.registry.executions.get? name = some e)
    (step : RunStep s name run s' next) : s'.registry.Healthy := by
  cases step with
  | @record status engine own =>
    obtain ⟨e, isRecord⟩ := recorded status rfl
    obtain ⟨e', _, _, ⟨_, kept⟩, _⟩ := Service.recordEnd_writes healthy isRecord engine status
    exact kept healthy
  | begin | step | finish | release | exit => exact healthy

theorem World.Step.healthy {w' : World} (healthy : w.service.registry.Healthy)
    (recorded : ∀ target status, w.runs target = .finished status →
      ∃ e, w.record target = some e)
    (step : Step w w') : w'.service.registry.Healthy := by
  cases step with
  | call c step => exact CallStep.healthy healthy step
  | launch | wait => exact healthy
  | run target step => exact RunStep.healthy healthy (recorded target) step

end

end ImpHost
