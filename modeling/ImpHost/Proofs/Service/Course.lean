import ImpHost.Proofs.Manifest.Arguments
import ImpHost.Proofs.Service.Agreement
import ImpHost.Proofs.Service.Cancellation
import ImpHost.Proofs.Service.Histories

/-!
The course of an execution that nobody cancels.

Whatever else goes on at a service, a section leaves such an execution alone, or it is the next
section of the call that starts it or of its background run (`World.Goes`). So the execution keeps
to its course (`World.OnCourse`): its engine is where one run of its program is after so many steps,
and its record tells in the end how that run has gone. It comes to the end of its course if the run
has one and is not held up for good (`World.History.ends`).
-/

namespace ImpHost

/-! ## The budget of a service -/

theorem Service.budget_of_onRegistry {α : Type} {s s' : Service}
    {f : Registry → Instant → Registry.Outcome α} {answer : Except Problem α}
    (locked : s.onRegistry f = (s', answer)) : s'.budget = s.budget := by
  cases locked
  rfl

theorem CallStep.budget_eq {s s' : Service} {call next : Call} (step : CallStep s call s' next) :
    s'.budget = s.budget := by
  cases step with
  | deploy _ _ _ _ _ _ _ locked | update _ _ _ _ _ _ locked | relabel _ _ _ _ _ locked
  | delete _ locked | cancel _ locked => exact Service.budget_of_onRegistry locked
  | create id issued fit fresh locked =>
    exact Service.budget_of_onRegistry (s := { s with issued }) locked
  | @signal name =>
    obtain ⟨_, same⟩ := s.cancelEngine_eq name
    rw [same]
  | shutdown =>
    obtain ⟨_, same⟩ := s.cancelEngines_eq
    rw [same]
  | refuse | cache | uncache | look | hit | miss | unreadable | keep | misfit | register | find
  | lose | answer => rfl

theorem RunStep.budget_eq {s s' : Service} {name : String} {run next : Run}
    (step : RunStep s name run s' next) : s'.budget = s.budget := by
  cases step with
  | @record status => cases status <;> rfl
  | begin | step | finish | release | exit => rfl

theorem World.Step.budget_eq {w w' : World} (step : Step w w') :
    w'.service.budget = w.service.budget := by
  cases step with
  | call c step => exact step.budget_eq
  | launch | wait => rfl
  | run name step => exact step.budget_eq

/-! ## What a section does to an execution that nobody cancels -/

/-- A record changes when it is made, when the end of the run is recorded or by a cancellation. -/
theorem Life.Move.record_cases {l l' : Life} (move : l.Move l') :
    l'.record = l.record ∨ l.record = none ∨ l'.run = .recorded ∧ l.run ≠ .recorded ∨
      ∃ e, l'.record = some e ∧ e.state = .cancelled := by
  cases move with
  | create _ _ fresh => exact .inr (.inl fresh)
  | record finished =>
    refine .inr (.inr (.inl ⟨rfl, fun recorded => ?_⟩))
    cases finished.symm.trans recorded
  | cancel _ _ e' _ _ cancelled => exact .inr (.inr (.inr ⟨e', rfl, cancelled⟩))
  | other | register | launch | work | release | exit => exact .inl rfl

namespace World

variable {w w' : World} {c : Nat} {name : String} {e : Execution} {m : Manifest} {start : Memory}

/-- Nobody has cancelled the execution: it is not recorded as cancelled and its engine is not
marked. -/
structure Undisturbed (w : World) (name : String) : Prop where
  record : ∀ e, w.record name = some e → e.state ≠ .cancelled
  engine : ∀ engine, w.engine name = some engine → engine.meter.cancelled = false

/-- What one section can do to an execution that the call `c` starts and nobody cancels: it is left
alone, or the call or the run of the execution goes on. -/
inductive Goes (w w' : World) (c : Nat) (name : String) : Prop
  | left (call : w'.calls c = w.calls c) (run : w'.runs name = w.runs name)
      (engine : w'.engine name = w.engine name) (record : w'.record name = w.record name)
  | registered {e : Execution} {m : Manifest} {start : Memory}
      (ready : w.calls c = .created e m start) (call : w'.calls c = .registered e start)
      (run : w'.runs name = w.runs name)
      (engine : w'.engine name = some (.new m.program w.service.budget))
      (record : w'.record name = w.record name)
  | launched {e : Execution} {start : Memory} (ready : w.calls c = .registered e start)
      (call : w'.calls c = .executed e) (run : w'.runs name = .launched start)
      (engine : w'.engine name = w.engine name) (record : w'.record name = w.record name)
  | ran (call : w'.calls c = w.calls c)
      (step : RunStep w.service name (w.runs name) w'.service (w'.runs name))

/-- No other call starts the execution. -/
theorem Sound.eq_of_stage? (sound : w.Sound) {c' : Nat} {stage stage' : Stage}
    (here : (w.calls c).stage? name = some stage) (there : (w.calls c').stage? name = some stage') :
    c' = c := by
  have here : (w.life name).stage c = some stage := here
  have there : (w.life name).stage c' = some stage' := there
  cases (sound.lives name).phase with
  | unstarted nobody =>
    rw [nobody] at here
    cases here
  | created _ starts | registered _ starts | busy _ starts | recorded _ starts | past _ starts =>
    rw [(starts.eq here).1, (starts.eq there).1]

/-- A section of another call leaves the execution alone. -/
theorem Sound.goes_of_other_call (sound : w.Sound) {s : Service} {next : Call} {c' : Nat}
    {stage : Stage} (step : CallStep w.service (w.calls c') s next) (apart : c ≠ c')
    (starts : (w.calls c).stage? name = some stage) (recorded : w.record name = some e)
    (undisturbed : Undisturbed ⟨s, Function.update w.calls c' next, w.runs⟩ name) :
    Goes w ⟨s, Function.update w.calls c' next, w.runs⟩ c name := by
  refine .left (Function.update_of_ne apart ..) rfl ?_ ?_
  · rcases step.engine_cases name with
      same | ⟨e', m, start, ready, mine, _⟩ | ⟨present, mark, _⟩
    · exact same
    · have there : (w.calls c').stage? name = some .created := by
        rw [ready]
        exact if_pos mine
      exact (apart (sound.eq_of_stage? there starts)).elim
    · -- A marked engine disturbs the execution, so there is none.
      cases own : s.engines.get? name with
      | none =>
        rw [own] at present
        have gone : w.engine name = none := Option.not_isSome_iff_eq_none.1 (by
          rw [engine, ← present]
          decide)
        rw [gone]
        exact own
      | some engine =>
        have unmarked := undisturbed.engine engine own
        rw [mark engine own] at unmarked
        cases unmarked
  · have move := sound.move (.call c' step) name
    rcases move.record_cases with same | absent | ⟨now, before⟩ | ⟨e', now, cancelled⟩
    · exact same
    · cases recorded.symm.trans absent
    · exact (before now).elim
    · exact (undisturbed.record e' now cancelled).elim

theorem Sound.goes (sound : w.Sound) (step : Step w w') {stage : Stage}
    (starts : (w.calls c).stage? name = some stage) (recorded : w.record name = some e)
    (undisturbed : w'.Undisturbed name) : Goes w w' c name := by
  cases step with
  | call c' step =>
    by_cases mine : c = c'
    · subst mine
      generalize ready : w.calls c = call at step starts
      cases step with
      | @register e m start =>
        have named : e.name = name := by
          by_contra other
          rw [Call.stage?, if_neg other] at starts
          cases starts
        subst named
        exact .registered ready (Function.update_self ..) rfl (Table.get?_set_self ..) rfl
      | _ => cases starts
    · exact sound.goes_of_other_call step mine starts recorded undisturbed
  | @launch e' start c' ready =>
    by_cases named : e'.name = name
    · subst named
      have there : (w.calls c').stage? e'.name = some .registered := by
        rw [ready]
        exact if_pos rfl
      cases sound.eq_of_stage? starts there
      exact .launched ready (Function.update_self ..) (Function.update_self ..) rfl rfl
    · have apart : c ≠ c' := by
        rintro rfl
        rw [ready, Call.stage?, if_neg named] at starts
        cases starts
      exact .left (Function.update_of_ne apart ..) (Function.update_of_ne (Ne.symm named) ..) rfl
        rfl
  | wait c' waits quiet =>
    have apart : c ≠ c' := by
      rintro rfl
      rw [waits] at starts
      cases starts
    exact .left (Function.update_of_ne apart ..) rfl rfl rfl
  | run target step =>
    by_cases mine : name = target
    · subst mine
      refine .ran rfl ?_
      dsimp only
      rwa [Function.update_self]
    · have same := life_of_other_run sound.healthy (sound.recorded target) mine step
      exact .left rfl (congrArg Life.run same) (congrArg Life.engine same)
        (congrArg Life.record same)

/-! ## The course of an execution -/

/-- The execution `e` is on its course when `t` sections of its run were taken. The call `c` starts
it from the store `start`, and `engine` is registered for it. -/
inductive OnCourse (w : World) (c : Nat) (e : Execution) (m : Manifest) (start : Memory)
    (engine : Engine) : Nat → Prop
  | created (call : w.calls c = .created e m start) (run : w.runs e.name = .none)
      (record : w.record e.name = some e) : OnCourse w c e m start engine 0
  | registered (call : w.calls c = .registered e start) (run : w.runs e.name = .none)
      (own : w.engine e.name = some engine) (record : w.record e.name = some e) :
    OnCourse w c e m start engine 0
  | launched (call : w.calls c = .executed e) (run : w.runs e.name = .launched start)
      (own : w.engine e.name = some engine) (record : w.record e.name = some e) :
    OnCourse w c e m start engine 0
  | running (n : Nat) (call : w.calls c = .executed e) (run : w.runs e.name = .running)
      (own : w.engine e.name = some ((engine.begin start).advance .background n).1)
      (running : ((engine.begin start).advance .background n).2 = .running)
      (record : w.record e.name = some e) : OnCourse w c e m start engine (n + 1)
  | finished (n : Nat) (call : w.calls c = .executed e)
      (run : w.runs e.name = .finished ((engine.begin start).advance .background (n + 1)).2)
      (own : w.engine e.name = some ((engine.begin start).advance .background (n + 1)).1)
      (running : ((engine.begin start).advance .background n).2 = .running)
      (isOver : ((engine.begin start).advance .background (n + 1)).2 ≠ .running)
      (record : w.record e.name = some e) : OnCourse w c e m start engine (n + 2)
  | settled (n : Nat) (call : w.calls c = .executed e) (run : (w.runs e.name).Settled)
      (isOver : ((engine.begin start).advance .background (n + 1)).2 ≠ .running)
      (e' : Execution) (record : w.record e.name = some e') (argument : e'.argument = e.argument)
      (tells : e'.Tells
        (((engine.begin start).advance .background (n + 1)).1.snapshot?.getD ∅)
        ((engine.begin start).advance .background (n + 1)).1.steps
        ((engine.begin start).advance .background (n + 1)).2) :
    OnCourse w c e m start engine (n + 3)

variable {engine : Engine} {t : Nat}

theorem OnCourse.stage? (onCourse : w.OnCourse c e m start engine t) :
    ∃ stage, (w.calls c).stage? e.name = some stage := by
  cases onCourse with
  | created call | registered call | launched call | running _ call | finished _ call
  | settled _ call =>
    rw [call]
    exact ⟨_, if_pos rfl⟩

theorem OnCourse.recorded (onCourse : w.OnCourse c e m start engine t) :
    ∃ e', w.record e.name = some e' := by
  cases onCourse with
  | created _ _ record | registered _ _ _ record | launched _ _ _ record
  | running _ _ _ _ _ record | finished _ _ _ _ _ _ record | settled _ _ _ _ _ record =>
    exact ⟨_, record⟩

/-- An execution that is left alone is where it was. -/
theorem OnCourse.left (onCourse : w.OnCourse c e m start engine t)
    (call : w'.calls c = w.calls c) (run : w'.runs e.name = w.runs e.name)
    (own : w'.engine e.name = w.engine e.name) (record : w'.record e.name = w.record e.name) :
    w'.OnCourse c e m start engine t := by
  cases onCourse with
  | created call' run' record' =>
    exact .created (call.trans call') (run.trans run') (record.trans record')
  | registered call' run' own' record' =>
    exact .registered (call.trans call') (run.trans run') (own.trans own') (record.trans record')
  | launched call' run' own' record' =>
    exact .launched (call.trans call') (run.trans run') (own.trans own') (record.trans record')
  | running n call' run' own' running record' =>
    exact .running n (call.trans call') (run.trans run') (own.trans own') running
      (record.trans record')
  | finished n call' run' own' running isOver record' =>
    exact .finished n (call.trans call') (run.trans run') (own.trans own') running isOver
      (record.trans record')
  | settled n call' run' isOver e' record' argument tells =>
    exact .settled n (call.trans call') (by rwa [run]) isOver e' (record.trans record') argument
      tells

/-- A section of the run that is under way leads one section further. -/
theorem OnCourse.ran (onCourse : w.OnCourse c e m start engine t) (new : e.New)
    (healthy : w.service.registry.Healthy) (busy : (w.runs e.name).Busy)
    (call : w'.calls c = w.calls c)
    (step : RunStep w.service e.name (w.runs e.name) w'.service (w'.runs e.name)) :
    w'.OnCourse c e m start engine (t + 1) := by
  obtain ⟨s', calls', runs'⟩ := w'
  dsimp only at call step
  generalize after : runs' e.name = run' at step
  cases onCourse with
  | created _ run | registered _ run =>
    rw [run] at busy
    exact busy.elim
  | launched call' run own record =>
    rw [run] at step
    cases step with
    | begin own' =>
      cases own.symm.trans own'
      exact .running 0 (call.trans call') after (Table.get?_set_self ..) rfl record
  | running n call' run own running record =>
    have more := Engine.advance_add (b := 1) running
    rw [run] at step
    cases step with
    | step own' next =>
      cases own.symm.trans own'
      rw [← more] at next
      refine .running (n + 1) (call.trans call') after ?_ (by rw [next]) record
      rw [next]
      exact Table.get?_set_self ..
    | finish own' last isOver =>
      cases own.symm.trans own'
      rw [← more] at last
      refine .finished n (call.trans call') ?_ ?_ running (by rwa [last]) record
      · rw [last]
        exact after
      · rw [last]
        exact Table.get?_set_self ..
  | finished n call' run own running isOver record =>
    rw [run] at step
    cases step with
    | record own' =>
      cases own.symm.trans own'
      obtain ⟨e', recorded, argument, tells⟩ :=
        Service.recordEnd_tells record new (healthy.accepts record) isOver
      have settled : (runs' e.name).Settled := by
        rw [after]
        trivial
      exact .settled n (call.trans call') settled isOver e' recorded argument tells
  | settled n call' run => exact (busy.not_settled run).elim

/-- Each section keeps an execution on its course. -/
theorem OnCourse.step (onCourse : w.OnCourse c e m start (.new m.program w.service.budget) t)
    (new : e.New) (sound : w.Sound) (step : Step w w') (undisturbed : w'.Undisturbed e.name) :
    ∃ t' ≥ t, w'.OnCourse c e m start (.new m.program w.service.budget) t' := by
  obtain ⟨stage, starts⟩ := onCourse.stage?
  obtain ⟨_, recorded⟩ := onCourse.recorded
  cases sound.goes step starts recorded undisturbed with
  | left call run own record => exact ⟨t, Nat.le_refl t, onCourse.left call run own record⟩
  | registered ready call run own record =>
    cases onCourse with
    | created call' run' record' =>
      cases ready.symm.trans call'
      exact ⟨0, Nat.le_refl 0, .registered call (run.trans run') own (record.trans record')⟩
    | registered call' | launched call' | running _ call' | finished _ call' | settled _ call' =>
      cases ready.symm.trans call'
  | launched ready call run own record =>
    cases onCourse with
    | registered call' run' own' record' =>
      cases ready.symm.trans call'
      exact ⟨0, Nat.le_refl 0, .launched call run (own.trans own') (record.trans record')⟩
    | created call' | launched call' | running _ call' | finished _ call' | settled _ call' =>
      cases ready.symm.trans call'
  | ran call step =>
    by_cases busy : (w.runs e.name).Busy
    · exact ⟨t + 1, Nat.le_succ t, onCourse.ran new sound.healthy busy call step⟩
    · obtain ⟨s', calls', runs'⟩ := w'
      dsimp only at call step
      generalize after : runs' e.name = run' at step
      cases onCourse with
      | created _ run | registered _ run =>
        rw [run] at step
        cases step
      | launched _ run | running _ _ run | finished _ _ run =>
        rw [run] at busy
        exact (busy trivial).elim
      | settled n call' run isOver e' record argument tells =>
        -- The engine is released and the run is over, and the record stays.
        generalize w.runs e.name = before at step busy run
        have stays {s : Service} (same : s.registry = w.service.registry)
            (settled : (runs' e.name).Settled) :
            OnCourse ⟨s, calls', runs'⟩ c e m start _ (n + 3) :=
          .settled n (call.trans call') settled isOver e' (by rwa [World.record, same]) argument
            tells
        cases step with
        | release => exact ⟨n + 3, Nat.le_refl _, stays rfl (by rw [after]; trivial)⟩
        | exit => exact ⟨n + 3, Nat.le_refl _, stays rfl (by rw [after]; trivial)⟩
        | begin | step | finish | record => exact run.elim

theorem OnCourse.busy_or_settled (onCourse : w.OnCourse c e m start engine t)
    (executed : w.calls c = .executed e) : (w.runs e.name).Busy ∨ (w.runs e.name).Settled := by
  cases onCourse with
  | created call | registered call => cases executed.symm.trans call
  | launched _ run | running _ _ run | finished _ _ run =>
    rw [run]
    exact .inl trivial
  | settled _ _ run => exact .inr run

/-- A run that is over after `n` steps is settled after two more sections: the one in which it
begins and the one in which its end is recorded. -/
theorem OnCourse.settled_of_le (onCourse : w.OnCourse c e m start engine t) {n : Nat}
    (isOver : ((engine.begin start).advance .background n).2 ≠ .running) (far : n + 2 ≤ t) :
    (w.runs e.name).Settled := by
  have past {k : Nat} (running : ((engine.begin start).advance .background k).2 = .running)
      (later : n ≤ k) : False := by
    obtain ⟨more, rfl⟩ := Nat.exists_eq_add_of_le later
    rw [Engine.advance_of_over isOver] at running
    exact isOver running
  cases onCourse with
  | created | registered | launched => omega
  | running k _ _ _ running => exact (past running (by omega)).elim
  | finished k _ _ _ running => exact (past running (by omega)).elim
  | settled _ _ run => exact run

/-! ## Histories -/

variable {σ : Nat → World} {r : Registry} {budget : Int} {clock : Instant} {k n : Nat}

theorem History.sound (history : History (rest (.new r budget clock)) σ) (healthy : r.Healthy)
    (n : Nat) : (σ n).Sound := by
  induction n with
  | zero =>
    rw [history.init]
    exact sound_rest healthy rfl
  | succ n ih =>
    rcases history.next n with same | step
    · rwa [same]
    · exact ih.step step

theorem History.budget_eq (history : History (rest (.new r budget clock)) σ) (n : Nat) :
    (σ n).service.budget = budget := by
  induction n with
  | zero =>
    rw [history.init]
    rfl
  | succ n ih =>
    rcases history.next n with same | step
    · rwa [same]
    · exact step.budget_eq.trans ih

theorem History.executed (history : History (rest (.new r budget clock)) σ) (later : k ≤ n)
    (executed : (σ k).calls c = .executed e) : (σ n).calls c = .executed e := by
  induction later with
  | refl => exact executed
  | @step n _ ih =>
    rcases history.next n with same | step
    · rwa [same]
    · exact step.executed ih

/-- An execution stays on its course. -/
theorem History.onCourse_of_le (history : History (rest (.new r budget clock)) σ)
    (healthy : r.Healthy) (new : e.New)
    (onCourse : (σ k).OnCourse c e m start (.new m.program budget) t) (later : k ≤ n)
    (undisturbed : ∀ i ≤ n, (σ i).Undisturbed e.name) :
    ∃ t' ≥ t, (σ n).OnCourse c e m start (.new m.program budget) t' := by
  induction later with
  | refl => exact ⟨t, Nat.le_refl t, onCourse⟩
  | @step n _ ih =>
    obtain ⟨t', more, here⟩ := ih fun i before => undisturbed i (Nat.le_succ_of_le before)
    rcases history.next n with same | step
    · rw [same]
      exact ⟨t', more, here⟩
    · rw [← history.budget_eq n] at here ⊢
      obtain ⟨t'', still, there⟩ :=
        here.step new (history.sound healthy n) step (undisturbed (n + 1) (Nat.le_refl _))
      exact ⟨t'', Nat.le_trans more still, there⟩

/-- The run of an execution is not held up for good: one that is under way from some moment on takes
a section of its own at some later one. -/
def Fair (σ : Nat → World) (name : String) : Prop :=
  ∀ k, (∀ n ≥ k, ((σ n).runs name).Busy) → ∃ n ≥ k,
    RunStep (σ n).service name ((σ n).runs name) (σ (n + 1)).service ((σ (n + 1)).runs name)

/-- An execution that was answered comes to the end of its course, if its run has an end. -/
theorem History.ends (history : History (rest (.new r budget clock)) σ) (healthy : r.Healthy)
    (new : e.New) (onCourse : (σ k).OnCourse c e m start (.new m.program budget) t)
    (executed : (σ k).calls c = .executed e) (undisturbed : ∀ i, (σ i).Undisturbed e.name)
    (fair : Fair σ e.name)
    (isOver : (((Engine.new m.program budget).begin start).advance .background n).2 ≠ .running) :
    ∃ i ≥ k, ((σ i).runs e.name).Settled := by
  -- The induction is on the sections that the run may still take before it has to be settled.
  obtain ⟨left, far⟩ : ∃ left, n + 2 ≤ t + left := ⟨n + 2, Nat.le_add_left ..⟩
  induction left generalizing k t with
  | zero => exact ⟨k, Nat.le_refl k, onCourse.settled_of_le isOver far⟩
  | succ left ih =>
    by_contra never
    have busy (i : Nat) (later : i ≥ k) : ((σ i).runs e.name).Busy := by
      obtain ⟨_, _, there⟩ :=
        history.onCourse_of_le healthy new onCourse later fun i _ => undisturbed i
      have answered := history.executed later executed
      exact (there.busy_or_settled answered).resolve_right fun settled => never ⟨i, later, settled⟩
    obtain ⟨i, later, step⟩ := fair k busy
    obtain ⟨t', more, there⟩ :=
      history.onCourse_of_le healthy new onCourse later fun i _ => undisturbed i
    have answered := history.executed later executed
    have stays := history.executed (Nat.le_succ_of_le later) executed
    have further := there.ran new (history.sound healthy i).healthy (busy i later)
      (stays.trans answered.symm) step
    obtain ⟨i', after, settled⟩ := ih further stays (by omega)
    exact never ⟨i', by omega, settled⟩

end World

end ImpHost
