import ImpHost.Proofs.Service.Lifecycle
import ImpHost.Proofs.Service.Sequential
import ImpHost.Proofs.Text

/-!
How executions end, in any order of sections.

The phases of the life of an execution (`Life.Phase`) tie together what is kept in different places
under different locks: the record in the registry, the engine in the service, and how far the call
that started it and its background run have come. Every move keeps to the phases
(`Life.Sound.move`), so they hold in every world that a service at rest can reach
(`World.Sound.reaches`). What clients may rely on follows: `World.outcomes_agree`.
-/

namespace ImpHost

/-- The state of an execution that is over. -/
def ExecutionState.Final : ExecutionState → Prop
  | .succeeded => True
  | .failed => True
  | .cancelled => True
  | _ => False

theorem Engine.Status.final_state (status : Engine.Status) : status.state.Final := by
  cases status <;> trivial

theorem Run.Busy.not_settled {run : Run} (busy : run.Busy) : ¬ run.Settled := by
  intro settled
  cases run with
  | launched | running | finished => exact settled
  | none | recorded | released | ended => exact busy

namespace Life

/-- The call `c` starts the execution and has come to `stage`, and no other call starts it. -/
def StartedBy (l : Life) (c : Nat) (stage : Stage) : Prop :=
  l.stage = Function.update (fun _ => none) c (some stage)

/-- The execution is active, or a call has cancelled it. -/
def Open (l : Life) : Prop :=
  ∃ e, l.record = some e ∧ (e.state = .active ∨ e.state = .cancelled ∧ ∃ c, l.cancels c)

/-- The execution is over. -/
def Closed (l : Life) : Prop :=
  ∃ e, l.record = some e ∧ e.state.Final

/-- The phases of a life. -/
inductive Phase (l : Life) : Prop
  /-- Nobody starts the execution: it is not there, or it is from before the service was there. -/
  | unstarted (nobody : l.stage = fun _ => none) (run : l.run = .none) (engine : l.engine = none)
  | created (c : Nat) (starts : l.StartedBy c .created) (run : l.run = .none)
      (engine : l.engine = none) (isOpen : l.Open)
  | registered (c : Nat) (starts : l.StartedBy c .registered) (run : l.run = .none)
      (engine : l.engine.isSome) (isOpen : l.Open)
  | busy (c : Nat) (starts : l.StartedBy c .executed) (run : l.run.Busy) (engine : l.engine.isSome)
      (isOpen : l.Open)
  | recorded (c : Nat) (starts : l.StartedBy c .executed) (run : l.run = .recorded)
      (closed : l.Closed)
  | past (c : Nat) (starts : l.StartedBy c .executed) (run : l.run = .released ∨ l.run = .ended)
      (engine : l.engine = none) (closed : l.Closed)

/-- A life in one of its phases, which at most one call has cancelled. -/
structure Sound (l : Life) : Prop where
  phase : l.Phase
  cancelled : ∀ c, l.cancels c → ∃ e, l.record = some e ∧ e.state = .cancelled
  once : ∀ c c', l.cancels c → l.cancels c' → c = c'

variable {l l' : Life} {c c' : Nat} {stage stage' : Stage}

theorem StartedBy.eq (starts : l.StartedBy c stage) (here : l.stage c' = some stage') :
    c' = c ∧ stage' = stage := by
  rw [starts, Function.update_apply] at here
  split at here
  · next same => exact ⟨same, (Option.some.inj here).symm⟩
  · cases here

theorem StartedBy.update (starts : l.StartedBy c stage) (stage' : Stage) :
    Function.update l.stage c (some stage') = Function.update (fun _ => none) c (some stage') := by
  rw [starts, Function.update_idem]

theorem Open.record_ne_none (isOpen : l.Open) : l.record ≠ none := by
  obtain ⟨e, recorded, _⟩ := isOpen
  rw [recorded]
  exact Option.some_ne_none e

theorem Closed.record_ne_none (closed : l.Closed) : l.record ≠ none := by
  obtain ⟨e, recorded, _⟩ := closed
  rw [recorded]
  exact Option.some_ne_none e

/-- An active execution is not over. -/
theorem Closed.not_active {e : Execution} (closed : l.Closed) (recorded : l.record = some e) :
    e.state ≠ .active := by
  intro active
  obtain ⟨e', recorded', final⟩ := closed
  cases recorded.symm.trans recorded'
  rw [active] at final
  exact final

/-- A run that is under way is one of the busy phase. -/
theorem Phase.of_busy (phase : l.Phase) (busy : l.run.Busy) :
    ∃ c, l.StartedBy c .executed ∧ l.engine.isSome ∧ l.Open := by
  cases phase with
  | busy c starts _ engine isOpen => exact ⟨c, starts, engine, isOpen⟩
  | unstarted _ run _ | created _ _ run _ _ | registered _ _ run _ _ | recorded _ _ run _ =>
    rw [run] at busy
    exact busy.elim
  | past _ _ run _ _ =>
    rcases run with run | run
    all_goals
      rw [run] at busy
      exact busy.elim

/-! ## Moves keep to the phases -/

theorem Sound.other (sound : l.Sound) {engine : Option Engine}
    (kept : engine.isSome = l.engine.isSome) : Sound { l with engine } := by
  have gone (absent : l.engine = none) : engine = none := by
    rw [absent] at kept
    exact Option.not_isSome_iff_eq_none.1 (by rw [kept]; decide)
  refine ⟨?_, sound.cancelled, sound.once⟩
  cases sound.phase with
  | unstarted nobody run engine => exact .unstarted nobody run (gone engine)
  | created c starts run engine isOpen => exact .created c starts run (gone engine) isOpen
  | registered c starts run engine isOpen =>
    exact .registered c starts run (kept.trans engine) isOpen
  | busy c starts run engine isOpen => exact .busy c starts run (kept.trans engine) isOpen
  | recorded c starts run closed => exact .recorded c starts run closed
  | past c starts run engine closed => exact .past c starts run (gone engine) closed

theorem Sound.create (sound : l.Sound) {e : Execution} (c : Nat) (fresh : l.record = none)
    (active : e.state = .active) :
    Sound { l with record := some e, stage := Function.update l.stage c (some .created) } := by
  have uncancelled (c' : Nat) : ¬ l.cancels c' := by
    intro cancels
    obtain ⟨e', recorded, _⟩ := sound.cancelled c' cancels
    cases fresh.symm.trans recorded
  refine ⟨?_, fun c' cancels => (uncancelled c' cancels).elim, sound.once⟩
  cases sound.phase with
  | unstarted nobody run engine =>
    refine .created c ?_ run engine ⟨e, rfl, .inl active⟩
    exact congrArg (Function.update · c _) nobody
  | created _ _ _ _ isOpen | registered _ _ _ _ isOpen | busy _ _ _ _ isOpen =>
    exact (isOpen.record_ne_none fresh).elim
  | recorded _ _ _ closed | past _ _ _ _ closed => exact (closed.record_ne_none fresh).elim

theorem Sound.register (sound : l.Sound) (engine : Engine) (ready : l.stage c = some .created) :
    Sound { l with engine := some engine
                   stage := Function.update l.stage c (some .registered) } := by
  refine ⟨?_, sound.cancelled, sound.once⟩
  cases sound.phase with
  | unstarted nobody _ _ =>
    rw [nobody] at ready
    cases ready
  | created c' starts run _ isOpen =>
    obtain ⟨rfl, _⟩ := starts.eq ready
    exact .registered c (starts.update _) run rfl isOpen
  | registered _ starts _ _ _ | busy _ starts _ _ _ | recorded _ starts _ _
  | past _ starts _ _ _ => cases (starts.eq ready).2

theorem Sound.launch (sound : l.Sound) (start : Memory) (ready : l.stage c = some .registered) :
    Sound { l with run := .launched start
                   stage := Function.update l.stage c (some .executed) } := by
  refine ⟨?_, sound.cancelled, sound.once⟩
  cases sound.phase with
  | unstarted nobody _ _ =>
    rw [nobody] at ready
    cases ready
  | registered c' starts _ engine isOpen =>
    obtain ⟨rfl, _⟩ := starts.eq ready
    exact .busy c (starts.update _) trivial engine isOpen
  | created _ starts _ _ _ | busy _ starts _ _ _ | recorded _ starts _ _
  | past _ starts _ _ _ => cases (starts.eq ready).2

theorem Sound.work (sound : l.Sound) (engine : Engine) {run : Run} (before : l.run.Busy)
    (after : run.Busy) : Sound { l with engine := some engine, run } := by
  obtain ⟨c, starts, _, isOpen⟩ := sound.phase.of_busy before
  exact ⟨.busy c starts after rfl isOpen, sound.cancelled, sound.once⟩

theorem Sound.record (sound : l.Sound) {status : Engine.Status} {e e' : Execution}
    (finished : l.run = .finished status) (recorded : l.record = some e)
    (state : e'.state = if e.state = .active then status.state else e.state) :
    Sound { l with record := some e', run := .recorded } := by
  have busy : l.run.Busy := by
    rw [finished]
    trivial
  obtain ⟨c, starts, _, e₀, recorded₀, states⟩ := sound.phase.of_busy busy
  cases recorded.symm.trans recorded₀
  have final : e'.state.Final := by
    rw [state]
    rcases states with active | ⟨cancelled, _⟩
    · rw [if_pos active]
      exact status.final_state
    · rw [cancelled, if_neg (by decide)]
      trivial
  refine ⟨.recorded c starts rfl ⟨e', rfl, final⟩, ?_, sound.once⟩
  intro c' cancels
  obtain ⟨e₁, recorded₁, cancelled⟩ := sound.cancelled c' cancels
  cases recorded.symm.trans recorded₁
  rw [cancelled, if_neg (by decide)] at state
  exact ⟨e', rfl, state⟩

theorem Sound.release (sound : l.Sound) (recorded : l.run = .recorded) :
    Sound { l with engine := none, run := .released } := by
  refine ⟨?_, sound.cancelled, sound.once⟩
  cases sound.phase with
  | recorded c starts _ closed => exact .past c starts (.inl rfl) rfl closed
  | unstarted _ run _ | created _ _ run _ _ | registered _ _ run _ _ =>
    cases recorded.symm.trans run
  | busy _ _ run _ _ =>
    rw [recorded] at run
    exact run.elim
  | past _ _ run _ _ =>
    rw [recorded] at run
    rcases run with run | run <;> cases run

theorem Sound.exit (sound : l.Sound) (released : l.run = .released) :
    Sound { l with run := .ended } := by
  refine ⟨?_, sound.cancelled, sound.once⟩
  cases sound.phase with
  | past c starts _ engine closed => exact .past c starts (.inr rfl) engine closed
  | unstarted _ run _ | created _ _ run _ _ | registered _ _ run _ _ | recorded _ _ run _ =>
    cases released.symm.trans run
  | busy _ _ run _ _ =>
    rw [released] at run
    exact run.elim

theorem Sound.cancel (sound : l.Sound) {e e' : Execution} (c : Nat) (recorded : l.record = some e)
    (active : e.state = .active) (cancelled : e'.state = .cancelled) :
    Sound { l with record := some e', cancels := Function.update l.cancels c True } := by
  have uncancelled (c' : Nat) : ¬ l.cancels c' := by
    intro cancels
    obtain ⟨e₁, recorded₁, cancelled₁⟩ := sound.cancelled c' cancels
    cases recorded.symm.trans recorded₁
    cases active.symm.trans cancelled₁
  have only {c' : Nat} (cancels : Function.update l.cancels c True c') : c' = c := by
    by_contra other
    rw [Function.update_of_ne other] at cancels
    exact uncancelled c' cancels
  have mine : Function.update l.cancels c True c := by
    rw [Function.update_self]
    trivial
  have isOpen : Open { l with record := some e', cancels := Function.update l.cancels c True } :=
    ⟨e', rfl, .inr ⟨cancelled, c, mine⟩⟩
  refine ⟨?_, fun _ _ => ⟨e', rfl, cancelled⟩, fun c₁ c₂ first second =>
    (only first).trans (only second).symm⟩
  cases sound.phase with
  | unstarted nobody run engine => exact .unstarted nobody run engine
  | created c' starts run engine _ => exact .created c' starts run engine isOpen
  | registered c' starts run engine _ => exact .registered c' starts run engine isOpen
  | busy c' starts run engine _ => exact .busy c' starts run engine isOpen
  | recorded _ _ _ closed | past _ _ _ _ closed => exact (closed.not_active recorded active).elim

/-- Every move keeps to the phases. -/
theorem Sound.move (sound : l.Sound) (move : l.Move l') : l'.Sound := by
  cases move with
  | other engine kept => exact sound.other kept
  | create c e fresh active => exact sound.create c fresh active
  | register c engine ready => exact sound.register engine ready
  | launch c start ready => exact sound.launch start ready
  | work engine run before after => exact sound.work engine before after
  | record finished own recorded steps state => exact sound.record finished recorded state
  | release recorded => exact sound.release recorded
  | exit released => exact sound.exit released
  | cancel c e e' recorded active cancelled => exact sound.cancel c recorded active cancelled

/-! ## What is settled stays so -/

theorem Phase.of_settled (phase : l.Phase) (settled : l.run.Settled) :
    ∃ c, l.StartedBy c .executed ∧ l.Closed := by
  cases phase with
  | recorded c starts _ closed | past c starts _ _ closed => exact ⟨c, starts, closed⟩
  | unstarted _ run _ | created _ _ run _ _ | registered _ _ run _ _ =>
    rw [run] at settled
    exact settled.elim
  | busy _ _ run _ _ => exact (run.not_settled settled).elim

/-- Once the end of a run is recorded, the record is what it is. -/
theorem Move.frozen (sound : l.Sound) (settled : l.run.Settled) (move : l.Move l') :
    l'.record = l.record ∧ l'.run.Settled := by
  obtain ⟨c, starts, closed⟩ := sound.phase.of_settled settled
  cases move with
  | other | register => exact ⟨rfl, settled⟩
  | release | exit => exact ⟨rfl, trivial⟩
  | create _ _ fresh _ => exact (closed.record_ne_none fresh).elim
  | launch c start ready => cases (starts.eq ready).2
  | work _ _ before _ => exact (before.not_settled settled).elim
  | record finished _ _ _ _ =>
    rw [finished] at settled
    exact settled.elim
  | cancel _ _ _ recorded active _ => exact (closed.not_active recorded active).elim

/-- A run that is over stays so. -/
theorem Move.ended (sound : l.Sound) (ended : l.run = .ended) (move : l.Move l') :
    l'.run = .ended := by
  have settled : l.run.Settled := by
    rw [ended]
    trivial
  obtain ⟨c, starts, _⟩ := sound.phase.of_settled settled
  cases move with
  | other | create | register | cancel => exact ended
  | launch c start ready => cases (starts.eq ready).2
  | work _ _ before _ => exact (before.not_settled settled).elim
  | record other _ _ _ _ | release other | exit other => cases ended.symm.trans other

/-- What is recorded when a run has finished. -/
theorem Move.of_recorded {status : Engine.Status} (move : l.Move l')
    (finished : l.run = .finished status) (recorded : l'.run = .recorded) :
    ∃ engine e e', l.engine = some engine ∧ l.record = some e ∧ l'.record = some e' ∧
      e'.steps = engine.steps ∧
      e'.state = if e.state = .active then status.state else e.state := by
  cases move with
  | record finished' own isRecord steps state =>
    cases finished.symm.trans finished'
    exact ⟨_, _, _, own, isRecord, rfl, steps, state⟩
  | other | create | register | cancel => cases finished.symm.trans recorded
  | launch | exit | release => cases recorded
  | work engine run before after =>
    cases recorded
    exact after.elim

end Life

/-! ## Calls that are answered -/

section

variable {s s' : Service} {call next : Call}

/-- A call is made once, and only the runs that are waited for end a shutdown. -/
theorem CallStep.next_ne (step : CallStep s call s' next) : next ≠ .idle ∧ next ≠ .down := by
  cases step with
  | deploy | update | delete | look | create | cancel =>
    refine Call.after_of (P := fun next => next ≠ .idle ∧ next ≠ .down) _ ?_ fun _ => ?_
    all_goals exact ⟨nofun, nofun⟩
  | @hit goal | @keep goal => cases goal <;> exact ⟨nofun, nofun⟩
  | refuse | relabel | cache | uncache | miss | unreadable | misfit | register | find | lose
  | signal | answer | shutdown => exact ⟨nofun, nofun⟩

/-- A cancellation is answered with the record of the execution. -/
theorem CallStep.of_cancelled {name : String} {answer : Except Problem Execution}
    (step : CallStep s call s' next) (cancelled : next = .cancelled name answer) :
    call = .signalled name ∧ answer = s.registry.execution name := by
  cases step with
  | answer =>
    cases cancelled
    exact ⟨rfl, rfl⟩
  | deploy | update | delete | look | create | cancel =>
    revert cancelled
    refine Call.after_of (P := (· = .cancelled name answer → _)) _ ?_ fun _ => ?_ <;> nofun
  | @hit goal | @keep goal => cases goal <;> cases cancelled
  | refuse | relabel | cache | uncache | miss | unreadable | misfit | register | find | lose
  | signal | shutdown => cases cancelled

end

/-- Without an argument an execution starts from the initial store of its program. -/
theorem Manifest.initialStore_empty (m : Manifest) : m.initialStore ∅ = .ok m.store := by
  have none : Memory.ofJson ∅ = .ok ∅ := by
    have blank : (∅ : Text).chars = [] := Text.chars_ofString ""
    rw [Memory.ofJson, blank]
    rfl
  rw [initialStore, none]
  rfl

namespace World

/-- The registry is healthy and every life is sound. -/
structure Sound (w : World) : Prop where
  healthy : w.service.registry.Healthy
  lives : ∀ name, (w.life name).Sound

variable {w w' : World} {s : Service} {name : String}

theorem sound_rest (healthy : s.registry.Healthy) (idle : s.engines = ∅) : (rest s).Sound := by
  refine ⟨healthy, fun name => ⟨.unstarted rfl rfl ?_, nofun, nofun⟩⟩
  change s.engines.get? name = none
  rw [idle]
  rfl

theorem Sound.recorded (sound : w.Sound) (target : String) (status : Engine.Status)
    (finished : w.runs target = .finished status) : ∃ e, w.record target = some e := by
  have busy : (w.life target).run.Busy := by
    change (w.runs target).Busy
    rw [finished]
    trivial
  obtain ⟨_, _, _, e, recorded, _⟩ := (sound.lives target).phase.of_busy busy
  exact ⟨e, recorded⟩

theorem Sound.move (sound : w.Sound) (step : Step w w') (name : String) :
    (w.life name).Move (w'.life name) :=
  step.move sound.healthy sound.recorded name

theorem Sound.step (sound : w.Sound) (step : Step w w') : w'.Sound :=
  ⟨step.healthy sound.healthy sound.recorded, fun name =>
    (sound.lives name).move (sound.move step name)⟩

theorem Sound.reaches (sound : w.Sound) (reached : Reaches w w') : w'.Sound := by
  induction reached with
  | refl => exact sound
  | tail _ step ih => exact ih.step step

/-- What a section can do to one call. -/
theorem Step.calls_cases (step : Step w w') (c : Nat) :
    w'.calls c = w.calls c ∨ CallStep w.service (w.calls c) w'.service (w'.calls c) ∨
      (∃ e start, w.calls c = .registered e start ∧ w'.calls c = .executed e) ∨
      (w.calls c = .waiting ∧ w'.calls c = .down ∧
        ∀ name, w.runs name = .none ∨ w.runs name = .ended) := by
  cases step with
  | call c' step =>
    by_cases mine : c = c'
    · subst mine
      refine .inr (.inl ?_)
      dsimp only
      rwa [Function.update_self]
    · exact .inl (Function.update_of_ne mine ..)
  | launch c' ready =>
    by_cases mine : c = c'
    · subst mine
      exact .inr (.inr (.inl ⟨_, _, ready, Function.update_self ..⟩))
    · exact .inl (Function.update_of_ne mine ..)
  | wait c' waits quiet =>
    by_cases mine : c = c'
    · subst mine
      exact .inr (.inr (.inr ⟨waits, Function.update_self .., quiet⟩))
    · exact .inl (Function.update_of_ne mine ..)
  | run => exact .inl rfl

theorem Step.of_cancelled {c : Nat} {answer : Except Problem Execution} (step : Step w w')
    (cancelled : w'.calls c = .cancelled name answer) :
    w.calls c = .cancelled name answer ∨
      w.calls c = .signalled name ∧ answer = w.service.registry.execution name := by
  rcases step.calls_cases c with same | step | ⟨e, start, _, executed⟩ | ⟨_, down, _⟩
  · exact .inl (same.symm.trans cancelled)
  · exact .inr (step.of_cancelled cancelled)
  · cases executed.symm.trans cancelled
  · cases down.symm.trans cancelled

/-- A shutdown is over when no run is under way. -/
theorem Step.of_down {c : Nat} (step : Step w w') (down : w'.calls c = .down) :
    w.calls c = .down ∨ ∀ name, w.runs name = .none ∨ w.runs name = .ended := by
  rcases step.calls_cases c with same | step | ⟨e, start, _, executed⟩ | ⟨_, _, quiet⟩
  · exact .inl (same.symm.trans down)
  · exact (step.next_ne.2 down).elim
  · cases executed.symm.trans down
  · exact .inr quiet

theorem Step.executed {c : Nat} {e : Execution} (step : Step w w')
    (executed : w.calls c = .executed e) : w'.calls c = .executed e := by
  rcases step.calls_cases c with same | step | ⟨_, _, ready, _⟩ | ⟨waits, _, _⟩
  · exact same.trans executed
  · rw [executed] at step
    cases step
  · cases executed.symm.trans ready
  · cases executed.symm.trans waits

/-- A cancellation that succeeded is answered with a cancelled record. -/
theorem answer_of_reaches {c : Nat} {answer : Except Problem Execution} (sound : (rest s).Sound)
    (reached : Reaches (rest s) w) (cancelled : w.calls c = .cancelled name answer) :
    ∃ e, answer = .ok e ∧ e.state = .cancelled := by
  induction reached with
  | refl => cases cancelled
  | @tail w w' before step ih =>
    rcases step.of_cancelled cancelled with earlier | ⟨signalled, rfl⟩
    · exact ih earlier
    · have cancels : (w.calls c).HasCancelled name := by
        rw [signalled]
        rfl
      obtain ⟨e, recorded, state⟩ := ((sound.reaches before).lives name).cancelled c cancels
      refine ⟨e, ?_, state⟩
      change w.service.registry.executions.get? name = some e at recorded
      rw [Registry.execution, recorded]

/-- The record of a settled run stays as it is. -/
theorem Sound.record_of_settled (sound : w.Sound) (settled : (w.runs name).Settled)
    (reached : Reaches w w') : w'.record name = w.record name ∧ (w'.runs name).Settled := by
  induction reached with
  | refl => exact ⟨rfl, settled⟩
  | @tail w₁ w₂ before step ih =>
    have sound₁ := sound.reaches before
    obtain ⟨record, settled₂⟩ :=
      Life.Move.frozen (sound₁.lives name) ih.2 (sound₁.move step name)
    exact ⟨record.trans ih.1, settled₂⟩

/-- What is recorded at the end of a run. -/
theorem Sound.record_of_finished {status : Engine.Status} (sound : w.Sound) (step : Step w w')
    (finished : w.runs name = .finished status) (recorded : w'.runs name = .recorded) :
    ∃ engine e, w.engine name = some engine ∧ w'.record name = some e ∧
      e.steps = engine.steps ∧
      ((∃ c, (w.calls c).HasCancelled name) → e.state = .cancelled) ∧
      ((∀ c, ¬ (w.calls c).HasCancelled name) → e.state = status.state) := by
  obtain ⟨engine, e, e', own, isRecord, isRecord', steps, state⟩ :=
    (sound.move step name).of_recorded finished recorded
  have busy : (w.life name).run.Busy := by
    change (w.runs name).Busy
    rw [finished]
    trivial
  obtain ⟨_, _, _, e₁, isRecord₁, states⟩ := (sound.lives name).phase.of_busy busy
  cases isRecord.symm.trans isRecord₁
  refine ⟨engine, e', own, isRecord', steps, ?_, ?_⟩
  · rintro ⟨c, cancels⟩
    obtain ⟨e₂, isRecord₂, cancelled⟩ := (sound.lives name).cancelled c cancels
    cases isRecord.symm.trans isRecord₂
    rw [state, cancelled, if_neg (by decide)]
  · intro uncancelled
    rcases states with active | ⟨_, c, cancels⟩
    · rw [state, if_pos active]
    · exact (uncancelled c cancels).elim

/-- An execution that was answered has a run: one that is under way and has an engine, or one whose
end is recorded. -/
theorem Sound.of_executed {c : Nat} {e : Execution} (sound : w.Sound)
    (executed : w.calls c = .executed e) :
    (w.runs e.name).Busy ∧ (w.engine e.name).isSome ∧ (w.life e.name).Open ∨
      (w.runs e.name).Settled ∧ (w.life e.name).Closed := by
  have stage : (w.life e.name).stage c = some .executed := by
    change (w.calls c).stage? e.name = _
    rw [executed]
    exact if_pos rfl
  cases (sound.lives e.name).phase with
  | unstarted nobody _ _ =>
    rw [nobody] at stage
    cases stage
  | created _ starts _ _ _ | registered _ starts _ _ _ => cases (starts.eq stage).2
  | busy _ _ busy engine isOpen => exact .inl ⟨busy, engine, isOpen⟩
  | recorded _ _ run closed =>
    refine .inr ⟨?_, closed⟩
    change w.runs e.name = .recorded at run
    rw [run]
    trivial
  | past _ _ run _ closed =>
    refine .inr ⟨?_, closed⟩
    change w.runs e.name = .released ∨ w.runs e.name = .ended at run
    rcases run with run | run <;> rw [run] <;> trivial

/-- When a shutdown is over, the runs are over of all executions that were answered before it
began. -/
theorem Sound.ended_of_down {c c' : Nat} {e : Execution} (sound : w.Sound)
    (before : w.calls c = .idle) (executed : w.calls c' = .executed e) (reached : Reaches w w') :
    w'.calls c' = .executed e ∧ (w'.calls c = .down → w'.runs e.name = .ended) := by
  induction reached with
  | refl => exact ⟨executed, fun down => by cases before.symm.trans down⟩
  | @tail w₁ w₂ reached step ih =>
    obtain ⟨executed₁, ended₁⟩ := ih
    have sound₁ := sound.reaches reached
    refine ⟨step.executed executed₁, fun down => ?_⟩
    -- The wait could also end because the run was never counted, but an answered execution has one.
    have ended : w₁.runs e.name = .ended := by
      rcases step.of_down down with earlier | quiet
      · exact ended₁ earlier
      · rcases quiet e.name with none | ended
        · have started := sound₁.of_executed executed₁
          rw [none] at started
          rcases started with ⟨busy, _⟩ | ⟨settled, _⟩
          · exact busy.elim
          · exact settled.elim
        · exact ended
    exact Life.Move.ended (sound₁.lives e.name) ended (sound₁.move step e.name)

/-- A run that is over has no engine, and its execution is over. -/
theorem Sound.of_ended (sound : w.Sound) (ended : w.runs name = .ended) :
    w.engine name = none ∧ ∃ e, w.record name = some e ∧ e.state.Final := by
  have run : (w.life name).run = .ended := ended
  cases (sound.lives name).phase with
  | past _ _ _ engine closed => exact ⟨engine, closed⟩
  | unstarted _ other _ | created _ _ other _ _ | registered _ _ other _ _ | recorded _ _ other _ =>
    cases run.symm.trans other
  | busy _ _ busy _ _ =>
    rw [run] at busy
    exact busy.elim

theorem live?_eq_none_iff : w.service.live? name = none ↔ w.engine name = none := by
  rw [Service.live?, Option.map_eq_none_iff]
  rfl

theorem isSome_live? : (w.service.live? name).isSome = (w.engine name).isSome := by
  rw [Service.live?, Option.isSome_map]
  rfl

/-- What clients may rely on, in whatever order the sections of calls and runs come. At most one
cancellation of an execution succeeds, and it is answered with a cancelled record. The end of a run
is recorded with the steps of its engine: as a cancellation if one had succeeded, and else as the
engine returned; then the record stays. An active execution that was answered has an engine, and
one whose run is over has none. A shutdown that is over has seen the end of every execution that was
answered before it began. -/
theorem outcomes_agree (s : Service) (healthy : s.registry.Healthy) (idle : s.engines = ∅)
    (w : World) (reached : Reaches (rest s) w) (name : String) :
    ((∀ c c', (w.calls c).HasCancelled name → (w.calls c').HasCancelled name → c = c') ∧
      ∀ c answer, w.calls c = .cancelled name answer →
        ∃ e, answer = .ok e ∧ e.state = .cancelled) ∧
    (∀ w' status, Step w w' → w.runs name = .finished status → w'.runs name = .recorded →
      ∃ engine e, w.engine name = some engine ∧ w'.record name = some e ∧
        e.steps = engine.steps ∧
        ((∃ c, (w.calls c).HasCancelled name) → e.state = .cancelled) ∧
        ((∀ c, ¬ (w.calls c).HasCancelled name) → e.state = status.state) ∧
        ∀ w'', Reaches w' w'' → w''.record name = some e) ∧
    ((∀ c e, w.calls c = .executed e → e.name = name →
        ∃ e', w.record name = some e' ∧ (e'.state = .active → (w.service.live? name).isSome)) ∧
      (w.runs name = .ended → w.service.live? name = none)) ∧
    ∀ c c' e w', w.calls c = .idle → w.calls c' = .executed e → e.name = name → Reaches w w' →
      w'.calls c = .down →
        w'.service.live? name = none ∧ ∃ e', w'.record name = some e' ∧ e'.state.Final := by
  have rested := sound_rest healthy idle
  have sound := rested.reaches reached
  refine ⟨⟨(sound.lives name).once, fun c answer => answer_of_reaches rested reached⟩, ?_,
    ⟨?_, fun ended => live?_eq_none_iff.2 (sound.of_ended ended).1⟩, ?_⟩
  · intro w' status step finished recorded
    obtain ⟨engine, e, own, isRecord, steps, cancelled, uncancelled⟩ :=
      sound.record_of_finished step finished recorded
    refine ⟨engine, e, own, isRecord, steps, cancelled, uncancelled, fun w'' later => ?_⟩
    have settled : (w'.runs name).Settled := by
      rw [recorded]
      trivial
    rw [((sound.step step).record_of_settled settled later).1, isRecord]
  · rintro c e executed rfl
    rcases sound.of_executed executed with ⟨_, engine, e', isRecord, _⟩ | ⟨_, e', isRecord, final⟩
    · exact ⟨e', isRecord, fun _ => isSome_live?.trans engine⟩
    · refine ⟨e', isRecord, fun active => ?_⟩
      rw [active] at final
      exact final.elim
  · rintro c c' e w' before executed rfl later down
    have ended := (sound.ended_of_down before executed later).2 down
    obtain ⟨engine, isOver⟩ := (sound.reaches later).of_ended ended
    exact ⟨live?_eq_none_iff.2 engine, isOver⟩

/-! ## A late cancellation -/

/-- A service with one deployed program, which does nothing. -/
def sample : Service :=
  let p : Deployment := ⟨"p", ∅, .active, "000001-000", ⟨0⟩, ⟨0⟩, ∅, none⟩
  let m : Manifest := ⟨∅, ∅, ∅, ∅, .skip⟩
  ⟨⟨Table.set ∅ "p" p, ∅, 1, none⟩, 0, Table.set ∅ "p" ⟨p.revision, m⟩, ∅, 0, ⟨0⟩⟩

/-- The first execution of its program. -/
def sampleExecution : Execution :=
  ⟨Resource.execution "p" (Service.executionId 1), .active, "", "", none, ⟨1⟩, .unset, "000001-000",
    0⟩

/-- The service after it was started. -/
def sampleStarted : Service :=
  { sample with
    registry :=
      { sample.registry with executions := Table.set ∅ sampleExecution.name sampleExecution }
    engines := Table.set ∅ sampleExecution.name ((Engine.new .skip 0).begin ∅)
    issued := 1
    clock := ⟨1⟩ }

theorem sample_execute : sample.execute "p" ∅ = (sampleStarted, .ok sampleExecution) := by
  have found : sample.program "p" = (sample, .ok ⟨∅, ∅, ∅, ∅, .skip⟩) := rfl
  unfold Service.execute
  rw [found]
  dsimp only
  rw [Manifest.initialStore_empty]
  rfl

/-- A cancellation that comes when the engine has already returned with success is what is recorded,
with the step that was made. -/
theorem outcomes_agree_late_cancellation :
    ∃ w w' e, Reaches (rest sample) w ∧ Step w w' ∧
      w.runs sampleExecution.name = .finished .succeeded ∧
      w'.record sampleExecution.name = some e ∧ e.state = .cancelled ∧ e.steps = 1 := by
  let name := sampleExecution.name
  let engine := (((Engine.new .skip 0).begin ∅).advance .background 1).1
  let s₁ := sampleStarted.register name engine
  let s₂ := (s₁.onRegistry fun r now => r.cancelExecution now name).1
  have own : sampleStarted.engines.get? name = some ((Engine.new .skip 0).begin ∅) :=
    Table.get?_set_self ..
  have finish : RunStep sampleStarted name .running s₁ (.finished .succeeded) :=
    .finish own rfl (by decide)
  have locked : (s₁.onRegistry fun r now => r.cancelExecution now name) = (s₂, .ok ()) := rfl
  have started : (rest sample).Reaches ⟨sampleStarted, _, _⟩ :=
    reaches_execute (c := 0) rfl rfl sample_execute
  have reached := (started.tail (step_run finish)).tail (.call 1 (.cancel name locked))
  have isEngine : s₂.engines.get? name = some engine := Table.get?_set_self ..
  have record : RunStep s₂ name (.finished .succeeded) _ .recorded := .record isEngine
  have finished : Function.update (rest sample).runs name (.finished .succeeded) name =
      .finished .succeeded := Function.update_self ..
  have recorded : Function.update (rest sample).runs name .recorded name = .recorded :=
    Function.update_self ..
  have healthy : sample.registry.Healthy := nofun
  obtain ⟨engine', e, isEngine', isRecord, steps, cancelled, _⟩ :=
    (outcomes_agree sample healthy rfl _ reached name).2.1 _ _ (step_run record) finished recorded
  cases isEngine.symm.trans isEngine'
  exact ⟨_, _, e, reached, step_run record, finished, isRecord, cancelled ⟨1, rfl⟩, steps⟩

end World

end ImpHost
