import ImpHost.Proofs.Engine.Budget
import ImpHost.Proofs.Engine.Slices
import ImpHost.Proofs.Service.Outcomes

/-!
Cancellations and the engines that they stop.

An execution is recorded in one section of the call that starts it, and its engine is registered in
a later one. A cancellation is recorded in one section of its call, and looks for the engine in a
later one. What comes of a cancellation depends on the order of the two later ones. If the engine is
registered first, it is marked and stops at its next step (`World.cancellation_stops_run`). If the
cancellation looks first, it is answered all the same, but nothing is marked unless the service is
shut down (`World.cancellation_lost`), and a program that does not end runs on
(`World.cancelled_run_goes_on`).

`World.Handling` is all that a section can do to the engine of one execution.
-/

namespace ImpHost

/-! ## A program that does not end -/

/-- The loop that does nothing, without end. -/
def spin : Command :=
  .whileDo (.lit true) .skip

/-- Without a budget and a mark, its run goes on from its condition and from its body alike. -/
theorem run_spin (fuel : Nat) (s : Meter) (unmarked : s.cancelled = false) (m : Memory) :
    (∃ s' machine, Machine.run (Meter.tick 0 .background) fuel s ⟨[spin], m⟩ =
      .running s' machine) ∧
    ∃ s' machine, Machine.run (Meter.tick 0 .background) fuel s ⟨[.skip, spin], m⟩ =
      .running s' machine := by
  induction fuel generalizing s with
  | zero => exact ⟨⟨_, _, rfl⟩, _, _, rfl⟩
  | succ fuel ih =>
    have told (c : Command) : Meter.tick 0 .background s c = (s.count 1, none) := by
      rcases Meter.tick_background 0 unmarked c with ⟨exceeded, _⟩ | ⟨_, told⟩
      · exact (Meter.not_exceeded_of_nonpos (Int.le_refl 0) exceeded).elim
      · exact told
    obtain ⟨condition, body⟩ := ih (s.count 1) unmarked
    have first : Machine.run (Meter.tick 0 .background) (fuel + 1) s ⟨[spin], m⟩ =
        Machine.run (Meter.tick 0 .background) fuel (s.count 1) ⟨[.skip, spin], m⟩ := by
      rw [Machine.run, told]
      rfl
    have second : Machine.run (Meter.tick 0 .background) (fuel + 1) s ⟨[.skip, spin], m⟩ =
        Machine.run (Meter.tick 0 .background) fuel (s.count 1) ⟨[spin], m⟩ := by
      rw [Machine.run, told]
      rfl
    rw [first, second]
    exact ⟨body, condition⟩

theorem Engine.advance_spin (n : Nat) :
    (((Engine.new spin 0).begin ∅).advance .background n).2 = .running := by
  obtain ⟨⟨s', machine, run⟩, _⟩ := run_spin n ⟨0, 0, false⟩ rfl ∅
  simp only [advance, begin, new, Machine.start, run]

/-! ## What a section does to an engine -/

theorem Service.get?_cancelEngine_of_ne {s : Service} {name target : String}
    (other : name ≠ target) :
    (s.cancelEngine target).engines.get? name = s.engines.get? name := by
  unfold cancelEngine
  split
  · exact Table.get?_set_of_ne _ other _
  · rfl

/-- What a section of a call can do to the engine of the execution `name`: nothing, or the engine is
registered, or it is marked if there is one. -/
theorem CallStep.engine_cases {s s' : Service} {call next : Call} (step : CallStep s call s' next)
    (name : String) :
    s'.engines.get? name = s.engines.get? name ∨
      (∃ e m start, call = .created e m start ∧ e.name = name ∧
        s'.engines.get? name = some (.new m.program s.budget)) ∨
      (s'.engines.get? name).isSome = (s.engines.get? name).isSome ∧
        (∀ engine, s'.engines.get? name = some engine → engine.meter.cancelled = true) ∧
        (call = .found name ∨ next = .waiting) := by
  have locked {α : Type} {f : Registry → Instant → Registry.Outcome α} {answer : Except Problem α}
      {before : Service} (lock : before.onRegistry f = (s', answer))
      (same : before.engines = s.engines) : s'.engines.get? name = s.engines.get? name := by
    obtain ⟨_, _, engines⟩ := Service.of_onRegistry lock
    rw [engines, same]
  cases step with
  | deploy _ _ _ _ _ _ _ lock => exact .inl (locked lock rfl)
  | update _ _ _ _ _ _ lock => exact .inl (locked lock rfl)
  | relabel _ _ _ _ _ lock => exact .inl (locked lock rfl)
  | delete _ lock => exact .inl (locked lock rfl)
  | create _ _ _ _ lock => exact .inl (locked lock rfl)
  | cancel _ lock => exact .inl (locked lock rfl)
  | @register e m start =>
    by_cases mine : e.name = name
    · subst mine
      exact .inr (.inl ⟨e, m, start, rfl, rfl, Table.get?_set_self ..⟩)
    · exact .inl (Table.get?_set_of_ne _ (Ne.symm mine) _)
  | @signal target =>
    by_cases mine : name = target
    · subst mine
      exact .inr (.inr ⟨Service.isSome_cancelEngine .., fun engine own =>
        Service.marked_cancelEngine (.inl rfl) own, .inl rfl⟩)
    · exact .inl (Service.get?_cancelEngine_of_ne mine)
  | shutdown =>
    exact .inr (.inr ⟨(Service.foldl_cancelEngine s.engines.keys s).2 name,
      fun engine own => Service.marked_cancelEngines own, .inr rfl⟩)
  | refuse | cache | uncache | look | hit | miss | unreadable | keep | misfit | find | lose
  | answer => exact .inl rfl

namespace World

/-- What can happen to the engine of the execution `name` in one section. -/
inductive Handling (w w' : World) (name : String) : Prop
  | kept (same : w'.engine name = w.engine name)
  | registered {c : Nat} {e : Execution} {m : Manifest} {start : Memory}
      (ready : w.calls c = .created e m start) (mine : e.name = name)
      (new : w'.engine name = some (.new m.program w.service.budget))
  /-- If there is an engine, it is marked, by the call that has found it or by a shutdown. -/
  | marked (c : Nat) (present : (w'.engine name).isSome = (w.engine name).isSome)
      (mark : ∀ engine, w'.engine name = some engine → engine.meter.cancelled = true)
      (caller : w.calls c = .found name ∨ w'.calls c = .waiting)
  | worked {engine engine' : Engine} (own : w.engine name = some engine)
      (next : w'.engine name = some engine')
      (mark : engine'.meter.cancelled = engine.meter.cancelled)
  | released (run : w'.runs name = .released) (gone : w'.engine name = none)

variable {w w' : World} {name : String} {c : Nat}

theorem handling_of_call {s : Service} {next : Call} (name : String)
    (step : CallStep w.service (w.calls c) s next) :
    Handling w ⟨s, Function.update w.calls c next, w.runs⟩ name := by
  rcases step.engine_cases name with
    same | ⟨e, m, start, ready, mine, new⟩ | ⟨present, mark, caller⟩
  · exact .kept same
  · exact .registered ready mine new
  · exact .marked c present mark (caller.imp_right (Function.update_self ..).trans)

theorem handling_of_run {s : Service} {target : String} {next : Run} (name : String)
    (step : RunStep w.service target (w.runs target) s next) :
    Handling w ⟨s, w.calls, Function.update w.runs target next⟩ name := by
  generalize w.runs target = run at step
  by_cases mine : name = target
  · subst mine
    cases step with
    | begin own => exact .worked own (Table.get?_set_self ..) rfl
    | @step engine engine' own more =>
      have mark := engine.cancelled_advance .background 1
      rw [more] at mark
      exact .worked own (Table.get?_set_self ..) mark
    | @finish engine engine' _ own last _ =>
      have mark := engine.cancelled_advance .background 1
      rw [last] at mark
      exact .worked own (Table.get?_set_self ..) mark
    | @record status => cases status <;> exact .kept rfl
    | release => exact .released (Function.update_self ..) (Table.get?_erase_self ..)
    | exit => exact .kept rfl
  · cases step with
    | begin | step | finish => exact .kept (Table.get?_set_of_ne _ mine _)
    | @record status => cases status <;> exact .kept rfl
    | release => exact .kept (Table.get?_erase_of_ne _ mine)
    | exit => exact .kept rfl

theorem Step.handling (step : Step w w') (name : String) : Handling w w' name := by
  cases step with
  | call c step => exact handling_of_call name step
  | launch | wait => exact .kept rfl
  | run target step => exact handling_of_run name step

end World

/-! ## Calls that are done with an engine -/

namespace Call

/-- The call has started the execution `name` up to the registration of its engine, or further. -/
def HasRegistered (name : String) : Call → Prop
  | .registered e _ => e.name = name
  | .executed e => e.name = name
  | _ => False

/-- The call has cancelled the execution `name`, has looked for its engine and has marked what it
found. -/
def HasSignalled (name : String) : Call → Prop
  | .signalled target => target = name
  | .cancelled target _ => target = name
  | _ => False

/-- The call shuts the service down. -/
def ShutsDown : Call → Prop
  | .waiting => True
  | .down => True
  | _ => False

theorem HasSignalled.hasCancelled {call : Call} {name : String}
    (signalled : call.HasSignalled name) : call.HasCancelled name := by
  cases call with
  | signalled | cancelled => exact signalled
  | _ => exact signalled.elim

end Call

section

variable {s s' : Service} {call next : Call} {name : String}

/-- A call is done with the engine because there was none, or because it has marked it. -/
theorem CallStep.of_hasSignalled (step : CallStep s call s' next)
    (signalled : next.HasSignalled name) :
    call.HasSignalled name ∨ s.engines.get? name = none ∨ s' = s.cancelEngine name := by
  cases step with
  | answer => exact .inl signalled
  | lose gone =>
    cases signalled
    exact .inr (.inl gone)
  | signal =>
    cases signalled
    exact .inr (.inr rfl)
  | deploy | update | delete | look | create | cancel =>
    revert signalled
    refine Call.after_of (P := (·.HasSignalled name → _)) _ ?_ fun _ => ?_ <;> exact False.elim
  | @hit goal | @keep goal => cases goal <;> exact signalled.elim
  | refuse | relabel | cache | uncache | miss | unreadable | misfit | register | find
  | shutdown => exact signalled.elim

theorem CallStep.hasSignalled (step : CallStep s call s' next)
    (signalled : call.HasSignalled name) : next.HasSignalled name := by
  cases step with
  | answer => exact signalled
  | _ => exact signalled.elim

theorem CallStep.not_shutsDown (step : CallStep s call s' next) : ¬ call.ShutsDown := by
  cases step <;> exact id

end

namespace Life

variable {l l' : Life}

/-- The execution has an engine, or its end is recorded. -/
def Manned (l : Life) : Prop :=
  l.engine.isSome ∨ l.run.Settled

theorem Move.manned (sound : l.Sound) (manned : l.Manned) (move : l.Move l') : l'.Manned := by
  rcases manned with engine | settled
  · cases move with
    | other _ kept => exact .inl (kept.trans engine)
    | register | work => exact .inl rfl
    | create | launch | cancel => exact .inl engine
    | record | release | exit => exact .inr trivial
  · exact .inr (move.frozen sound settled).2

end Life

namespace World

variable {s : Service} {w w' : World} {name : String} {c : Nat} {e : Execution} {m : Manifest}
  {start : Memory}

/-! ## A service on which the loop is executed -/

/-- The parsed form of the loop. -/
def spinningManifest : Manifest :=
  ⟨"p", ∅, ∅, "while true do skip end", spin⟩

/-- A service without a step budget that has one deployed program, the loop. -/
def spinning : Service :=
  let p : Deployment :=
    ⟨"p", ∅, .active, "000001-000", ⟨0⟩, ⟨0⟩, spinningManifest.source, none⟩
  ⟨⟨Table.set ∅ "p" p, ∅, 1, none⟩, 0, Table.set ∅ "p" ⟨p.revision, spinningManifest⟩, ∅, 0, ⟨0⟩⟩

/-- The first execution of the loop. -/
def spinningExecution : Execution :=
  ⟨Resource.execution "p" (Service.executionId 1), .active, "", "", none, ⟨1⟩, .unset, "000001-000",
    0⟩

/-- The service after the execution was recorded. -/
def spinningCreated : Service :=
  { spinning with
    registry :=
      { spinning.registry with executions := Table.set ∅ spinningExecution.name spinningExecution }
    issued := 1
    clock := ⟨1⟩ }

theorem callRun_spinningCreated : CallRun (spinning, .idle)
    (spinningCreated, .created spinningExecution spinningManifest ∅) := by
  have found : spinning.program "p" = (spinning, .ok spinningManifest) := rfl
  obtain ⟨p, starting⟩ := Service.callRun_program (.start "p" ∅) found
  exact starting.andThen (.create (Service.executionId 1) 1 (Manifest.initialStore_empty _) rfl rfl)

/-- The service after it was started. -/
def spinningStarted : Service :=
  spinningCreated.register spinningExecution.name ((Engine.new spin 0).begin ∅)

theorem spinning_execute :
    spinning.execute "p" ∅ = (spinningStarted, .ok spinningExecution) := by
  have found : spinning.program "p" = (spinning, .ok spinningManifest) := rfl
  unfold Service.execute
  rw [found]
  dsimp only
  rw [Manifest.initialStore_empty]
  rfl

/-! ## Cancellations after the registration -/

/-- An execution that was just recorded has neither a run nor an engine yet. -/
theorem Sound.of_created (sound : w.Sound) (created : w.calls c = .created e m start) :
    w.runs e.name = .none ∧ w.engine e.name = none := by
  have stage : (w.life e.name).stage c = some .created := by
    change (w.calls c).stage? e.name = _
    rw [created]
    exact if_pos rfl
  cases (sound.lives e.name).phase with
  | unstarted _ run engine | created _ _ run engine _ => exact ⟨run, engine⟩
  | registered _ starts _ _ _ | busy _ starts _ _ _ | recorded _ starts _ _ | past _ starts _ _ _ =>
    cases (starts.eq stage).2

theorem Sound.engine_of_created (sound : w.Sound) (created : w.calls c = .created e m start) :
    w.engine e.name = none :=
  (sound.of_created created).2

theorem Sound.manned_of_hasRegistered (sound : w.Sound)
    (registered : (w.calls c).HasRegistered name) : (w.life name).Manned := by
  have stage : ∃ stage, (w.life name).stage c = some stage ∧ stage ≠ .created := by
    change ∃ stage, (w.calls c).stage? name = some stage ∧ stage ≠ .created
    generalize w.calls c = call at registered
    cases call with
    | registered e start => exact ⟨.registered, if_pos registered, by decide⟩
    | executed e => exact ⟨.executed, if_pos registered, by decide⟩
    | _ => exact registered.elim
  obtain ⟨stage, here, later⟩ := stage
  cases (sound.lives name).phase with
  | unstarted nobody _ _ =>
    rw [nobody] at here
    cases here
  | created _ starts _ _ _ => exact (later (starts.eq here).2).elim
  | registered _ _ _ engine _ | busy _ _ _ engine _ => exact .inl engine
  | recorded _ _ run _ =>
    refine .inr ?_
    rw [run]
    trivial
  | past _ _ run _ _ =>
    refine .inr ?_
    rcases run with run | run <;> rw [run] <;> trivial

/-- The engine of the execution is marked, or the end of its run is recorded. -/
def Stopping (w : World) (name : String) : Prop :=
  (w.runs name).Settled ∨ ∃ engine, w.engine name = some engine ∧ engine.meter.cancelled = true

/-- A mark stays until the run is over: only a call that has just recorded an execution puts a new
engine in place. -/
theorem Stopping.step (stopping : w.Stopping name) (sound : w.Sound) (step : Step w w') :
    w'.Stopping name := by
  rcases stopping with settled | ⟨engine, own, mark⟩
  · exact .inl (Life.Move.frozen (sound.lives name) settled (sound.move step name)).2
  · cases step.handling name with
    | kept same => exact .inr ⟨engine, same.trans own, mark⟩
    | registered ready mine _ =>
      subst mine
      cases (sound.engine_of_created ready).symm.trans own
    | marked c present marks _ =>
      rw [own] at present
      obtain ⟨engine', own'⟩ := Option.isSome_iff_exists.1 present
      exact .inr ⟨engine', own', marks engine' own'⟩
    | worked own₁ next kept =>
      cases own.symm.trans own₁
      exact .inr ⟨_, next, kept.trans mark⟩
    | released run _ =>
      refine .inl ?_
      rw [run]
      trivial

/-- A call that is done with the engine of an execution that has one, or had, has marked it. -/
theorem Sound.stopping_of_signalled (sound : w.Sound) (step : Step w w')
    (manned : (w.life name).Manned) (ahead : ¬ (w.calls c).HasSignalled name)
    (signalled : (w'.calls c).HasSignalled name) : w'.Stopping name := by
  rcases manned with engine | settled
  · rcases step.calls_cases c with same | taken | ⟨e, start, _, executed⟩ | ⟨_, down, _⟩
    · rw [same] at signalled
      exact (ahead signalled).elim
    · rcases taken.of_hasSignalled signalled with before | gone | marked
      · exact (ahead before).elim
      · change (w.service.engines.get? name).isSome = true at engine
        rw [gone] at engine
        cases engine
      · have present : ((w.service.cancelEngine name).engines.get? name).isSome :=
          (Service.isSome_cancelEngine ..).trans engine
        obtain ⟨engine', own⟩ := Option.isSome_iff_exists.1 present
        refine .inr ⟨engine', ?_, Service.marked_cancelEngine (.inl rfl) own⟩
        rw [World.engine, marked]
        exact own
    · rw [executed] at signalled
      exact signalled.elim
    · rw [down] at signalled
      exact signalled.elim
  · exact Stopping.step (.inl settled) sound step

/-- Let the engine of an execution be registered while a cancellation has not looked for it yet.
Once the cancellation has, and all the more once it is answered, the end of the run is recorded or
its engine is marked, and the next step of the run is its last. -/
theorem cancellation_stops_run (s : Service) (healthy : s.registry.Healthy) (idle : s.engines = ∅)
    (w w' : World) (name : String) (c c' : Nat) (reached : Reaches (rest s) w)
    (registered : (w.calls c').HasRegistered name) (ahead : ¬ (w.calls c).HasSignalled name)
    (later : Reaches w w') (signalled : (w'.calls c).HasSignalled name) :
    (w'.runs name).Settled ∨
      (∃ engine, w'.engine name = some engine ∧ engine.meter.cancelled = true) ∧
        ∀ s' next, w'.runs name = .running → RunStep w'.service name .running s' next →
          ∃ status, next = .finished status := by
  have sound := (sound_rest healthy idle).reaches reached
  have invariant : (w'.life name).Manned ∧
      ((w'.calls c).HasSignalled name → w'.Stopping name) := by
    clear signalled
    induction later with
    | refl =>
      exact ⟨sound.manned_of_hasRegistered registered, fun before => (ahead before).elim⟩
    | @tail w₁ w₂ before step ih =>
      obtain ⟨manned, stopping⟩ := ih
      have sound₁ := sound.reaches before
      refine ⟨(sound₁.move step name).manned (sound₁.lives name) manned, fun signalled => ?_⟩
      by_cases already : (w₁.calls c).HasSignalled name
      · exact (stopping already).step sound₁ step
      · exact sound₁.stopping_of_signalled step manned already signalled
  refine (invariant.2 signalled).imp_right fun ⟨engine, own, mark⟩ => ?_
  refine ⟨⟨engine, own, mark⟩, fun s' next _ step => ?_⟩
  cases step with
  | step own₁ more =>
    cases own.symm.trans own₁
    have last := Engine.advance_cancelled mark
    rw [more] at last
    exact (last rfl).elim
  | finish => exact ⟨_, rfl⟩

/-- When the loop is cancelled after its execution was answered, its next step is its last. -/
theorem cancellation_stops_run_executed :
    ∃ w e, Reaches (rest spinning) w ∧ w.calls 0 = .executed spinningExecution ∧
      w.calls 1 = .cancelled spinningExecution.name (.ok e) ∧
      w.runs spinningExecution.name = .running ∧
      ∀ s' next, RunStep w.service spinningExecution.name .running s' next →
        ∃ status, next = .finished status := by
  let name := spinningExecution.name
  let e : Execution := { spinningExecution with state := .cancelled, ended := ⟨2⟩ }
  let s := (spinningStarted.cancel name).1
  have cancelled : spinningStarted.cancel name = (s, .ok e) := rfl
  let w₁ : World := ⟨spinningStarted, Function.update (rest spinning).calls 0
    (.executed spinningExecution), Function.update (rest spinning).runs name .running⟩
  let w₂ : World := ⟨s, Function.update w₁.calls 1 (.cancelled name (.ok e)), w₁.runs⟩
  have started : Reaches (rest spinning) w₁ := reaches_execute rfl rfl spinning_execute
  have later : Reaches w₁ w₂ := reaches_of_callRun rfl (Service.callRun_cancel cancelled)
  have healthy : spinning.registry.Healthy := nofun
  have running : w₂.runs name = .running := Function.update_self name _ (rest spinning).runs
  refine ⟨w₂, e, started.trans later, rfl, rfl, running, fun s' next step => ?_⟩
  rcases cancellation_stops_run spinning healthy rfl w₁ w₂ name 1 0 started rfl id later rfl with
    settled | ⟨_, last⟩
  · rw [running] at settled
    exact settled.elim
  · exact last s' next running step

/-! ## Cancellations before the registration -/

theorem Step.shutsDown (step : Step w w') (shutsDown : (w.calls c).ShutsDown) :
    (w'.calls c).ShutsDown := by
  rcases step.calls_cases c with same | taken | ⟨e, start, ready, _⟩ | ⟨_, down, _⟩
  · rwa [same]
  · exact (taken.not_shutsDown shutsDown).elim
  · rw [ready] at shutsDown
    exact shutsDown.elim
  · rw [down]
    trivial

theorem Step.hasSignalled (step : Step w w') (signalled : (w.calls c).HasSignalled name) :
    (w'.calls c).HasSignalled name := by
  rcases step.calls_cases c with same | taken | ⟨e, start, ready, _⟩ | ⟨waits, _, _⟩
  · rwa [same]
  · exact taken.hasSignalled signalled
  · rw [ready] at signalled
    exact signalled.elim
  · rw [waits] at signalled
    exact signalled.elim

/-- Let a cancellation be done with the engine of an execution before it is registered. Then the
engine is not marked for as long as nobody shuts the service down: the execution is cancelled, so no
other cancellation succeeds. -/
theorem cancellation_lost (s : Service) (healthy : s.registry.Healthy) (idle : s.engines = ∅)
    (w w' : World) (c c' : Nat) (e : Execution) (m : Manifest) (start : Memory)
    (reached : Reaches (rest s) w) (created : w.calls c' = .created e m start)
    (signalled : (w.calls c).HasSignalled e.name) (later : Reaches w w')
    (up : ∀ i, ¬ (w'.calls i).ShutsDown) (engine : Engine)
    (own : w'.engine e.name = some engine) : engine.meter.cancelled = false := by
  have sound := (sound_rest healthy idle).reaches reached
  have invariant : (w'.calls c).HasSignalled e.name ∧
      ((∀ i, ¬ (w'.calls i).ShutsDown) →
        ∀ engine, w'.engine e.name = some engine → engine.meter.cancelled = false) := by
    clear up own
    induction later with
    | refl =>
      refine ⟨signalled, fun _ engine own => ?_⟩
      cases (sound.engine_of_created created).symm.trans own
    | @tail w₁ w₂ before step ih =>
      obtain ⟨signalled₁, unmarked⟩ := ih
      refine ⟨step.hasSignalled signalled₁, fun up engine own => ?_⟩
      have unmarked := unmarked fun i shutsDown => up i (step.shutsDown shutsDown)
      cases step.handling e.name with
      | kept same => exact unmarked engine (same.symm.trans own)
      | registered _ _ new =>
        cases new.symm.trans own
        rfl
      | marked i _ _ caller =>
        rcases caller with found | waiting
        · -- The call that has found the engine is the one that is done with it.
          have cancels : (w₁.calls i).HasCancelled e.name := by
            rw [found]
            rfl
          have same : i = c := ((sound.reaches before).lives e.name).once i c cancels
            signalled₁.hasCancelled
          rw [← same, found] at signalled₁
          exact signalled₁.elim
        · refine (up i ?_).elim
          rw [waiting]
          trivial
      | worked own₁ next kept =>
        cases next.symm.trans own
        exact kept.trans (unmarked _ own₁)
      | released _ gone => cases gone.symm.trans own
  exact invariant.2 up engine own

/-- When it is cancelled between the record of the execution and the registration of its engine, the
cancellation and the execution are both answered, and the loop runs on and on. -/
theorem cancelled_run_goes_on :
    ∃ w e engine, Reaches (rest spinning) w ∧ w.calls 0 = .executed spinningExecution ∧
      w.calls 1 = .cancelled spinningExecution.name (.ok e) ∧ e.state = .cancelled ∧
      w.runs spinningExecution.name = .running ∧
      w.engine spinningExecution.name = some engine ∧ engine.meter.cancelled = false ∧
      ∀ n, (engine.advance .background n).2 = .running := by
  let name := spinningExecution.name
  let e : Execution := { spinningExecution with state := .cancelled, ended := ⟨2⟩ }
  let s := (spinningCreated.cancel name).1
  have cancelled : spinningCreated.cancel name = (s, .ok e) := rfl
  let w₁ : World := ⟨spinningCreated, Function.update (rest spinning).calls 0
    (.created spinningExecution spinningManifest ∅), (rest spinning).runs⟩
  let w₂ : World := ⟨s, Function.update w₁.calls 1 (.cancelled name (.ok e)), w₁.runs⟩
  let w₃ : World := ⟨s.register name (.new spin 0),
    Function.update w₂.calls 0 (.registered spinningExecution ∅), w₂.runs⟩
  let w₄ : World := ⟨w₃.service.register name ((Engine.new spin 0).begin ∅),
    Function.update w₃.calls 0 (.executed spinningExecution), Function.update w₃.runs name .running⟩
  have created : Reaches (rest spinning) w₁ := reaches_of_callRun rfl callRun_spinningCreated
  have answered : Reaches w₁ w₂ := reaches_of_callRun rfl (Service.callRun_cancel cancelled)
  have registered : Reaches w₂ w₃ := reaches_of_callRun rfl (.one .register)
  have begun : Reaches w₃ w₄ :=
    .tail (.single (.launch 0 rfl)) (step_run (.begin (Table.get?_set_self ..)))
  have running : w₄.runs name = .running := Function.update_self name _ w₃.runs
  exact ⟨w₄, e, _, ((created.trans answered).trans registered).trans begun, rfl, rfl, rfl, running,
    Table.get?_set_self .., rfl, Engine.advance_spin⟩

end World

end ImpHost
