import ImpHost.Proofs.Engine.Slices
import ImpHost.Proofs.Service.Interleaving
import ImpHost.Proofs.Table

/-!
The operations of a service are runs in which nothing comes between.

Each operation of `Service` takes the sections of one call one after the other. `execute` also
launches the run and begins it, and `shutdown` ends the runs that it waits for. So whatever holds of
all orders of sections holds of the operations, and what an operation does can happen in every world
that is ready for it.
-/

namespace ImpHost

/-- The sections of one call, with nothing between them. -/
def CallRun : Service × Call → Service × Call → Prop :=
  Relation.ReflTransGen fun a b => CallStep a.1 a.2 b.1 b.2

namespace CallRun

variable {s s' s'' : Service} {call next last : Call}

theorem one (step : CallStep s call s' next) : CallRun (s, call) (s', next) :=
  .single step

theorem andThen (run : CallRun (s, call) (s', next)) (step : CallStep s' next s'' last) :
    CallRun (s, call) (s'', last) :=
  .tail run step

end CallRun

namespace World

section

variable {s s' : Service} {calls : Nat → Call} {runs : String → Run} {c : Nat} {name : String}

/-- A section of the call `c`, whatever else goes on. -/
theorem step_call {call next : Call} (step : CallStep s call s' next) :
    Step ⟨s, Function.update calls c call, runs⟩ ⟨s', Function.update calls c next, runs⟩ := by
  let w : World := ⟨s, Function.update calls c call, runs⟩
  have here : w.calls c = call := Function.update_self ..
  rw [← here] at step
  have taken : Step w ⟨s', Function.update w.calls c next, runs⟩ := .call c step
  rwa [Function.update_idem] at taken

/-- A section of the run of `name`, whatever else goes on. -/
theorem step_run {run next : Run} (step : RunStep s name run s' next) :
    Step ⟨s, calls, Function.update runs name run⟩ ⟨s', calls, Function.update runs name next⟩ := by
  let w : World := ⟨s, calls, Function.update runs name run⟩
  have here : w.runs name = run := Function.update_self ..
  rw [← here] at step
  have taken : Step w ⟨s', calls, Function.update w.runs name next⟩ := .run name step
  rwa [Function.update_idem] at taken

theorem step_launch {e : Execution} {start : Memory} :
    Step ⟨s, Function.update calls c (.registered e start), runs⟩
      ⟨s, Function.update calls c (.executed e),
        Function.update runs e.name (.launched start)⟩ := by
  let w : World := ⟨s, Function.update calls c (.registered e start), runs⟩
  have taken : Step w ⟨s, Function.update w.calls c (.executed e), _⟩ :=
    .launch c (Function.update_self ..)
  rwa [Function.update_idem] at taken

end

/-- What a call does on its own can happen in every world in which the call is where it begins. -/
theorem reaches_of_callRun {w : World} {s : Service} {call next : Call} {c : Nat}
    (here : w.calls c = call) (run : CallRun (w.service, call) (s, next)) :
    w.Reaches ⟨s, Function.update w.calls c next, w.runs⟩ := by
  generalize target : (s, next) = after at run
  induction run generalizing s next with
  | refl =>
    cases target
    rw [← here, Function.update_eq_self]
    exact .refl
  | tail _ step ih =>
    cases target
    exact .tail (ih rfl) (step_call step)

end World

namespace Service

variable {s s' : Service}

theorem callRun_deploy (s : Service) (parent : String) (id source description : Text)
    (labels : Option Labels) :
    CallRun (s, .idle) ((s.deploy parent id source description labels).1, .returned) := by
  unfold deploy
  split
  · exact .one .refuse
  · next valid =>
    split
    · exact .one .refuse
    · next m parsed =>
      dsimp only
      split
      · next p locked =>
        exact (CallRun.one
          (.deploy parent id source description labels valid parsed locked)).andThen .cache
      · next why locked =>
        exact .one (.deploy parent id source description labels valid parsed locked)

theorem callRun_update (s : Service) (name : String) (source description : Text)
    (labels : Option Labels) :
    CallRun (s, .idle) ((s.update name source description labels).1, .returned) := by
  unfold update
  dsimp only
  split
  · next absent => exact .one (.relabel name source description labels absent rfl)
  · next given =>
    have given := Bool.eq_false_iff.2 given
    split
    · exact .one .refuse
    · next m parsed =>
      split
      · next p locked =>
        exact (CallRun.one (.update name source description labels given parsed locked)).andThen
          .cache
      · next why locked =>
        exact .one (.update name source description labels given parsed locked)

theorem callRun_delete (s : Service) (name : String) :
    CallRun (s, .idle) ((s.delete name).1, .returned) := by
  unfold delete
  split
  · next locked => exact (CallRun.one (.delete name locked)).andThen .uncache
  · next locked => exact .one (.delete name locked)

/-- The parsed form of a program is found as the client's goal wants it. -/
theorem callRun_program (goal : Goal) {m : Manifest}
    (found : s.program goal.program = (s', .ok m)) :
    ∃ p, CallRun (s, .idle) (s', goal.next p m) := by
  unfold program at found
  split at found
  · cases found
  · next p recorded =>
    have look : CallRun (s, .idle) (s, .looking goal p) := by
      have step := CallStep.look (s := s) goal
      rw [recorded] at step
      exact .one step
    split at found
    · next kept =>
      cases found
      exact ⟨p, look.andThen (.hit kept)⟩
    · next missing =>
      split at found
      · cases found
      · next parsed =>
        cases found
        exact ⟨p, (look.andThen (.miss missing parsed)).andThen .keep⟩

/-- A cancellation that is answered with a record. -/
theorem callRun_cancel {name : String} {e : Execution} (answered : s.cancel name = (s', .ok e)) :
    CallRun (s, .idle) (s', .cancelled name (.ok e)) := by
  unfold cancel at answered
  split at answered
  · cases answered
  · next s₁ _ locked =>
    have accepted : CallRun (s, .idle) (s₁, .accepted name) := .one (.cancel name locked)
    obtain ⟨same, recorded⟩ := Prod.mk.inj answered
    have answer :
        CallStep (s₁.cancelEngine name) (.signalled name) s' (.cancelled name (.ok e)) := by
      rw [← recorded, ← same]
      exact .answer
    refine .andThen ?_ answer
    cases own : s₁.engines.get? name with
    | none =>
      have unmarked : s₁.cancelEngine name = s₁ := by rw [cancelEngine, own]
      rw [unmarked]
      exact accepted.andThen (.lose own)
    | some engine =>
      exact (accepted.andThen (.find (by rw [own]; rfl))).andThen .signal

/-- The parsed form of a program is looked up without a change to the records. -/
theorem program_fst (s : Service) (name : String) :
    (s.program name).1.registry = s.registry ∧ (s.program name).1.issued = s.issued := by
  unfold program
  split
  · exact ⟨rfl, rfl⟩
  · split
    · exact ⟨rfl, rfl⟩
    · split <;> exact ⟨rfl, rfl⟩

/-- An execution is started up to the launch of its run. -/
theorem callRun_execute {program : String} {argument : Text} {e : Execution}
    (fresh : s.registry.executions.get?
      (Resource.execution program (executionId (s.issued + 1))) = none)
    (answered : s.execute program argument = (s', .ok e)) :
    ∃ (s₁ : Service) (engine : Engine) (start : Memory),
      CallRun (s, .idle) (s₁.register e.name engine, .registered e start) ∧
        s' = s₁.register e.name (engine.begin start) := by
  unfold execute at answered
  split at answered
  · cases answered
  · next s₁ m found =>
    obtain ⟨registry, issued⟩ := s.program_fst program
    rw [found] at registry issued
    obtain ⟨p, starting⟩ := callRun_program (.start program argument) found
    split at answered
    · cases answered
    · next start fit =>
      split at answered
      · cases answered
      · next s₂ e₂ locked =>
        cases answered
        rw [← registry, ← issued] at fresh
        have created := starting.andThen (.create _ _ fit fresh locked)
        exact ⟨s₂, _, start, created.andThen .register, rfl⟩

end Service

namespace World

variable {w : World} {s : Service}

theorem register_register (s : Service) (name : String) (engine engine' : Engine) :
    (s.register name engine).register name engine' = s.register name engine' := by
  unfold Service.register
  rw [Table.set_set]

/-- An execution is started and answered, and its run begins. -/
theorem reaches_execute {c : Nat} {program : String} {argument : Text} {e : Execution}
    (here : w.calls c = .idle)
    (fresh : w.record
      (Resource.execution program (Service.executionId (w.service.issued + 1))) = none)
    (answered : w.service.execute program argument = (s, .ok e)) :
    w.Reaches ⟨s, Function.update w.calls c (.executed e),
      Function.update w.runs e.name .running⟩ := by
  obtain ⟨s₁, engine, start, run, rfl⟩ :=
    Service.callRun_execute (s := w.service) fresh answered
  have begun : RunStep (s₁.register e.name engine) e.name (.launched start)
      (s₁.register e.name (engine.begin start)) .running := by
    rw [← register_register s₁ e.name engine (engine.begin start)]
    exact .begin (Table.get?_set_self ..)
  exact ((reaches_of_callRun here run).tail step_launch).tail (step_run begun)

theorem recordEnd_register (s : Service) (name : String) (engine engine' : Engine)
    (status : Engine.Status) :
    (s.register name engine').recordEnd name engine status =
      (s.recordEnd name engine status).register name engine' := by
  cases status <;> rfl

variable {name : String} {engine : Engine}

/-- The last step of a run, and all that comes after it. -/
theorem reaches_end (running : w.runs name = .running)
    (own : w.service.engines.get? name = some engine)
    (stops : (engine.advance .background 1).2 ≠ .running) :
    w.Reaches ⟨w.service.advance 1 name, w.calls, Function.update w.runs name .ended⟩ := by
  unfold Service.advance
  rw [own]
  dsimp only
  split
  · next engine' more =>
    rw [more] at stops
    exact (stops rfl).elim
  · next engine' status isOver last =>
    have finish : RunStep w.service name .running (w.service.register name engine')
        (.finished status) := .finish own last isOver
    have record : RunStep (w.service.register name engine') name (.finished status)
        ((w.service.register name engine').recordEnd name engine' status) .recorded :=
      .record (Table.get?_set_self ..)
    have released : ((w.service.register name engine').recordEnd name engine' status).release
        name = (w.service.recordEnd name engine' status).release name := by
      rw [recordEnd_register, Service.release, Service.register, Table.erase_set]
      rfl
    rw [← running] at finish
    rw [← released]
    exact (((Relation.ReflTransGen.single (.run name finish)).tail (step_run record)).tail
      (step_run .release)).tail (step_run .exit)

/-- One step of a run, or its last one with all that comes after it. -/
theorem reaches_advance (running : w.runs name = .running) :
    ∃ run, w.Reaches ⟨w.service.advance 1 name, w.calls, Function.update w.runs name run⟩ := by
  cases own : w.service.engines.get? name with
  | none =>
    refine ⟨.running, ?_⟩
    rw [Service.advance, own, ← running, Function.update_eq_self]
    exact .refl
  | some engine =>
    by_cases more : (engine.advance .background 1).2 = .running
    · have step : RunStep w.service name .running
          (w.service.register name (engine.advance .background 1).1) .running :=
        .step own (Prod.ext rfl more)
      have advanced : w.service.advance 1 name =
          w.service.register name (engine.advance .background 1).1 := by
        rw [Service.advance, own]
        dsimp only
        split
        · next eq => rw [eq]
        · next isOver eq =>
          rw [eq] at more
          exact (isOver more).elim
      rw [← running] at step
      rw [advanced]
      exact ⟨_, .single (.run name step)⟩
    · exact ⟨.ended, reaches_end running own more⟩

theorem advance_of_ne (s : Service) (fuel : Nat) {other : String} (apart : other ≠ name) :
    (s.advance fuel name).engines.get? other = s.engines.get? other := by
  unfold Service.advance
  split
  · rfl
  · split
    · exact Table.get?_set_of_ne _ apart _
    · next engine status _ _ =>
      have kept : (s.recordEnd name engine status).engines = s.engines := by cases status <;> rfl
      rw [Service.release, Table.get?_erase_of_ne _ apart, kept]

/-- Runs whose engines were marked end one after the other. -/
theorem reaches_ends {names : List String} (distinct : names.Nodup)
    (running : ∀ name ∈ names, w.runs name = .running)
    (marked : ∀ name ∈ names, ∃ engine, w.service.engines.get? name = some engine ∧
      engine.meter.cancelled = true) :
    w.Reaches ⟨names.foldl (fun s name => s.advance 1 name) w.service, w.calls,
      fun name => if name ∈ names then .ended else w.runs name⟩ := by
  induction names generalizing w with
  | nil => exact .refl
  | cons name names ih =>
    obtain ⟨absent, distinct⟩ := List.nodup_cons.1 distinct
    have apart {other : String} (member : other ∈ names) : other ≠ name :=
      fun same => absent (same ▸ member)
    obtain ⟨engine, own, cancelled⟩ := marked name List.mem_cons_self
    have first := reaches_end (running name List.mem_cons_self) own
      (Engine.advance_cancelled cancelled)
    let next : World :=
      ⟨w.service.advance 1 name, w.calls, Function.update w.runs name .ended⟩
    have stillRunning : ∀ other ∈ names, next.runs other = .running := fun other member =>
      (Function.update_of_ne (apart member) ..).trans
        (running other (List.mem_cons_of_mem _ member))
    have stillMarked : ∀ other ∈ names, ∃ engine,
        next.service.engines.get? other = some engine ∧ engine.meter.cancelled = true := by
      intro other member
      rw [advance_of_ne _ _ (apart member)]
      exact marked other (List.mem_cons_of_mem _ member)
    have others := ih distinct stillRunning stillMarked
    have runs : (fun other => if other ∈ names then Run.ended else next.runs other) =
        fun other => if other ∈ name :: names then Run.ended else w.runs other := by
      funext other
      by_cases same : other = name
      · subst same
        have ended : next.runs other = .ended := Function.update_self ..
        rw [ended, ite_self, if_pos List.mem_cons_self]
      · have kept : next.runs other = w.runs other := Function.update_of_ne same ..
        simp only [kept, List.mem_cons, same, false_or]
    rw [runs] at others
    exact first.trans others

/-- A shutdown of a service whose runs have all begun: each run stops at its next step, and then
nothing is waited for. -/
theorem reaches_shutdown {c : Nat} (here : w.calls c = .idle)
    (begun : ∀ name, (w.engine name).isSome → w.runs name = .running)
    (quiet : ∀ name, w.engine name = none → w.runs name = .none ∨ w.runs name = .ended) :
    ∃ runs, w.Reaches ⟨w.service.shutdown, Function.update w.calls c .down, runs⟩ := by
  let marked : World := ⟨w.service.cancelEngines, Function.update w.calls c .waiting, w.runs⟩
  let stopped : World := ⟨w.service.shutdown, marked.calls,
    fun name => if name ∈ marked.service.engines.keys then .ended else w.runs name⟩
  have signal : w.Reaches marked := reaches_of_callRun here (.one .shutdown)
  have bound (name : String) : (w.engine name).isSome ↔ name ∈ marked.service.engines.keys := by
    rw [← Table.isSome_get?_iff]
    exact Bool.eq_iff_iff.1
      ((Service.foldl_cancelEngine w.service.engines.keys w.service).2 name).symm
  have ends : marked.Reaches stopped := by
    refine reaches_ends marked.service.engines.distinct
      (fun name member => begun name ((bound name).2 member)) fun name member => ?_
    obtain ⟨engine, own⟩ := Option.isSome_iff_exists.1 ((Table.isSome_get?_iff _ name).2 member)
    exact ⟨engine, own, Service.marked_cancelEngines own⟩
  have nothing (name : String) : stopped.runs name = .none ∨ stopped.runs name = .ended := by
    by_cases member : name ∈ marked.service.engines.keys
    · exact .inr (if_pos member)
    · have absent : w.engine name = none :=
        Option.not_isSome_iff_eq_none.1 fun present => member ((bound name).1 present)
      have left : stopped.runs name = w.runs name := if_neg member
      rw [left]
      exact quiet name absent
  have waited := Step.wait c (Function.update_self ..) nothing
  have calls : Function.update stopped.calls c .down = Function.update w.calls c .down :=
    Function.update_idem ..
  rw [calls] at waited
  exact ⟨_, (signal.trans ends).tail waited⟩

end World

end ImpHost
