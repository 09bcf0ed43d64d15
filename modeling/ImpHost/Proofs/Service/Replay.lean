import Mathlib.Data.List.Chain
import ImpHost.Proofs.Manifest.Forms
import ImpHost.Proofs.Service.Course
import ImpHost.Proofs.Service.Serving

/-!
Executions can be repeated from what is recorded of them.

Main statement: an execution that is started with the recorded argument of another one, of the same
revision and under the same budget, starts from the same store and ends as the other one did, in
whatever order the sections of calls and runs come (`World.executions_replay`). Both are on the
course of one run (`World.OnCourse`), and a run has one end.
-/

namespace ImpHost

/-- Records that tell of the same end agree. -/
theorem Execution.Tells.agree {e e' : Execution} {left : Memory} {steps : Nat}
    {status : Engine.Status} (tells : e.Tells left steps status)
    (tells' : e'.Tells left steps status) (isOver : status ≠ .running) :
    e'.state = e.state ∧ e'.result = e.result ∧ e'.failure? = e.failure? ∧ e'.steps = e.steps := by
  cases status with
  | running => exact (isOver rfl).elim
  | succeeded =>
    obtain ⟨state, result, failure, count⟩ := tells
    obtain ⟨state', result', failure', count'⟩ := tells'
    exact ⟨state'.trans state.symm, result'.trans result.symm, failure'.trans failure.symm,
      count'.trans count.symm⟩
  | failed why =>
    obtain ⟨state, result, count, failure⟩ := tells
    obtain ⟨state', result', count', failure'⟩ := tells'
    exact ⟨state'.trans state.symm, result'.trans result.symm, failure'.trans failure.symm,
      count'.trans count.symm⟩

theorem Execution.Tells.state_ne_active {e : Execution} {left : Memory} {steps : Nat}
    {status : Engine.Status} (tells : e.Tells left steps status) (isOver : status ≠ .running) :
    e.state ≠ .active := by
  cases status with
  | running => exact (isOver rfl).elim
  | succeeded | failed =>
    rw [tells.1]
    decide

/-! ## Starting an execution -/

theorem Registry.new_of_createExecution {r r' : Registry} {now : Instant} {id program : String}
    {argument? : Option Memory} {e : Execution}
    (created : r.createExecution now id program argument? = (r', .ok e)) :
    e.New ∧ e.argument = (argument?.map fun m => m.toJson.render).getD "" := by
  unfold createExecution at created
  split at created
  · cases created
  · dsimp only at created
    split at created
    · cases created
      exact ⟨⟨rfl, rfl, rfl⟩, rfl⟩
    · cases created

/-- An execution is recorded as a new one, with the store from which it is to start. -/
theorem CallStep.of_starting {s s' : Service} {program : String} {argument : Text}
    {m m' : Manifest} {start : Memory} {e : Execution}
    (step : CallStep s (.starting program argument m) s' (.created e m' start)) :
    m.initialStore argument = .ok start ∧ e.New ∧
      e.argument = Manifest.recordedArgument argument start ∧
      s'.registry.executions.get? e.name = some e := by
  generalize after : Call.created e m' start = next at step
  cases step with
  | misfit => cases after
  | @create _ _ _ start' _ answer id issued fit fresh locked =>
    cases answer with
    | error why => cases after
    | ok e =>
      cases after
      obtain ⟨now, created, -⟩ := Service.of_onRegistry locked
      obtain ⟨new, argument_eq⟩ := Registry.new_of_createExecution created
      obtain ⟨_, _, _, recorded⟩ := Registry.of_createExecution created
      refine ⟨fit, new, argument_eq.trans ?_, recorded⟩
      unfold Manifest.recordedArgument
      split <;> rfl

namespace World

variable {σ σ' : Nat → World} {c j n : Nat} {argument : Text} {p p' : Deployment} {m : Manifest}
  {start : Memory} {e f : Execution} {budget : Int} {goal : Goal}

/-- The history of a service under a step budget. It begins with a registry that refuses no later
record of an execution. -/
def HistoryUnder (budget : Int) (σ : Nat → World) : Prop :=
  ∃ r clock, r.Begins ∧ r.Healthy ∧ History (rest (.new r budget clock)) σ

/-- The call `c` starts the execution `e` of the program `p`: it has found the program, and in the
section of the moment `j` it records the execution, which is to run the parsed program `m` from the
store `start`. -/
structure Starts (σ : Nat → World) (c j : Nat) (argument : Text) (p : Deployment) (m : Manifest)
    (start : Memory) (e : Execution) : Prop where
  finds : ∃ i, Finds σ c i (.start p.name argument) p
  before : (σ j).calls c = .starting p.name argument m
  after : (σ (j + 1)).calls c = .created e m start

/-- At the moment `n` the execution is over with the record `e`, and nobody has cancelled it. -/
structure Ended (σ : Nat → World) (n : Nat) (name : String) (e : Execution) : Prop where
  undisturbed : ∀ i ≤ n, (σ i).Undisturbed name
  record : (σ n).record name = some e
  isOver : e.state ≠ .active

/-- The programs are of one revision: in one history they have one name and one revision, and in two
of them they have one text. -/
def SameRevision (σ σ' : Nat → World) (p p' : Deployment) : Prop :=
  σ' = σ ∧ p'.name = p.name ∧ p'.revision = p.revision ∨ p'.source = p.source

/-- A call that was made stays so. -/
theorem Step.ne_idle {w w' : World} (step : Step w w') (made : w.calls c ≠ .idle) :
    w'.calls c ≠ .idle := by
  rcases step.calls_cases c with same | step | ⟨_, _, _, executed⟩ | ⟨_, down, _⟩
  · rwa [same]
  · exact step.next_ne.1
  · rw [executed]
    exact nofun
  · rw [down]
    exact nofun

theorem HistoryUnder.ne_idle (history : HistoryUnder budget σ) {i : Nat} (later : i ≤ n)
    (made : (σ i).calls c ≠ .idle) : (σ n).calls c ≠ .idle := by
  obtain ⟨r, clock, _, _, history⟩ := history
  induction later with
  | refl => exact made
  | @step n _ ih =>
    rcases history.next n with same | step
    · rwa [same]
    · exact step.ne_idle ih

/-- A call finds one program. -/
theorem HistoryUnder.finds_unique (history : HistoryUnder budget σ) {i i' : Nat}
    (here : Finds σ c i goal p) (there : Finds σ c i' goal p') : p = p' := by
  have once {i i' : Nat} {p p' : Deployment} (here : Finds σ c i goal p)
      (there : Finds σ c i' goal p') : ¬ i < i' := by
    intro before
    refine history.ne_idle (Nat.succ_le_of_lt before) ?_ there.before
    rw [here.after]
    exact nofun
  have same : i = i' := Nat.le_antisymm (Nat.le_of_not_lt (once there here))
    (Nat.le_of_not_lt (once here there))
  subst same
  exact Option.some.inj (here.held.symm.trans there.held)

/-- The parsed program that an execution runs is the form of the program that the call has found. -/
theorem Starts.isFormOf (starts : Starts σ c j argument p m start e)
    (history : HistoryUnder budget σ) : Manifest.IsFormOf p.source m := by
  obtain ⟨i, finds⟩ := starts.finds
  obtain ⟨r, clock, begins, _, lived⟩ := id history
  have explained := (lived.consistent begins.numbered j).calls c
  rw [starts.before] at explained
  obtain ⟨q, ⟨i', _, found⟩, form⟩ := explained
  rwa [history.finds_unique finds found]

theorem SameRevision.source_eq (same : SameRevision σ σ' p p') (history : HistoryUnder budget σ)
    {i i' : Nat} (here : (σ i).program p.name = some p)
    (there : (σ' i').program p'.name = some p') : p'.source = p.source := by
  rcases same with ⟨rfl, name, revision⟩ | source
  · obtain ⟨r, clock, begins, _, lived⟩ := history
    rw [name] at there
    rw [lived.eq_of_revision_eq begins.numbered there here revision]
  · exact source

/-- The execution is recorded as a new one and is at the start of its course. -/
theorem Starts.created (starts : Starts σ c j argument p m start e)
    (history : HistoryUnder budget σ) :
    m.initialStore argument = .ok start ∧ e.New ∧
      e.argument = Manifest.recordedArgument argument start ∧
      (σ (j + 1)).OnCourse c e m start (.new m.program budget) 0 := by
  obtain ⟨r, clock, _, healthy, lived⟩ := history
  have step : CallStep (σ j).service (.starting p.name argument m) (σ (j + 1)).service
      (.created e m start) := by
    rcases lived.next j with same | step
    · have stays := starts.after
      rw [same, starts.before] at stays
      cases stays
    · rcases step.calls_cases c with same | step | ⟨_, _, _, executed⟩ | ⟨_, down, _⟩
      · have stays := starts.after
        rw [same, starts.before] at stays
        cases stays
      · rwa [starts.before, starts.after] at step
      · cases starts.after.symm.trans executed
      · cases starts.after.symm.trans down
  obtain ⟨fit, new, recorded, record⟩ := step.of_starting
  have isNew := (lived.sound healthy (j + 1)).of_created starts.after
  exact ⟨fit, new, recorded, .created starts.after isNew.1 record⟩

/-- The record of an execution that is over tells how its run has ended. -/
theorem Ended.tells (ended : Ended σ n e.name f) (starts : Starts σ c j argument p m start e)
    (history : HistoryUnder budget σ) (later : j < n) :
    ∃ k, let run := ((Engine.new m.program budget).begin start).advance .background k
      run.2 ≠ .running ∧ f.argument = e.argument ∧
        f.Tells (run.1.snapshot?.getD ∅) run.1.steps run.2 := by
  obtain ⟨_, new, _, created⟩ := starts.created history
  obtain ⟨r, clock, _, healthy, lived⟩ := history
  obtain ⟨_, _, onCourse⟩ :=
    lived.onCourse_of_le healthy new created (Nat.succ_le_of_lt later) ended.undisturbed
  have record := ended.record
  cases onCourse with
  | created _ _ record' | registered _ _ _ record' | launched _ _ _ record'
  | running _ _ _ _ _ record' | finished _ _ _ _ _ _ record' =>
    cases record.symm.trans record'
    exact (ended.isOver new.state).elim
  | settled k _ _ isOver e' record' argument tells =>
    cases record.symm.trans record'
    exact ⟨k + 1, isOver, argument, tells⟩

/-- An execution that was answered and is not cancelled ends if its run has an end. -/
theorem Starts.exists_ended (starts : Starts σ c j argument p m start e)
    (history : HistoryUnder budget σ) (undisturbed : ∀ i, (σ i).Undisturbed e.name)
    (executed : ∃ k, (σ k).calls c = .executed e) (fair : Fair σ e.name)
    (isOver : (((Engine.new m.program budget).begin start).advance .background n).2 ≠ .running) :
    ∃ i > j, ∃ f, Ended σ i e.name f := by
  obtain ⟨_, new, _, created⟩ := starts.created history
  obtain ⟨r, clock, _, healthy, lived⟩ := history
  obtain ⟨k, executed⟩ := executed
  have answered := lived.executed (Nat.le_max_right (j + 1) k) executed
  obtain ⟨t, _, onCourse⟩ := lived.onCourse_of_le healthy new created
    (Nat.le_max_left (j + 1) k) fun i _ => undisturbed i
  obtain ⟨i, later, settled⟩ :=
    lived.ends healthy new onCourse answered undisturbed fair isOver
  have after : j + 1 ≤ i := Nat.le_trans (Nat.le_max_left ..) later
  obtain ⟨_, _, onCourse⟩ :=
    lived.onCourse_of_le healthy new created after fun i _ => undisturbed i
  refine ⟨i, after, ?_⟩
  cases onCourse with
  | created _ run | registered _ run | launched _ run | running _ _ run | finished _ _ run =>
    rw [run] at settled
    exact settled.elim
  | settled _ _ _ isOver e' record _ tells =>
    exact ⟨e', fun i _ => undisturbed i, record, tells.state_ne_active isOver⟩

/-- The store from which an execution starts has the values of its argument where the argument binds
a name and those of the manifest where it does not, first the names of the manifest as they stand in
its document and then the others in byte order. What is recorded of the argument leads to the same
store again. So an execution of the recorded argument, of the same revision and under the same
budget, records the same argument, and if the first execution has ended and nobody cancels the
second, it ends too, with the same state, result, failure and steps. -/
theorem executions_replay (m : Manifest) (argument : Text) (start : Memory)
    (fit : m.initialStore argument = .ok start) :
    let recorded := Manifest.recordedArgument argument start
    m.initialStore recorded = .ok start ∧
    (∃ args, Memory.ofJson argument = .ok args ∧
      (∀ x, start.get? x = (args.get? x).or (m.store.get? x)) ∧
      start.keys = m.store.keys ++ args.keys.filter (· ∉ m.store.keys) ∧
      args.keys.Pairwise (· < ·)) ∧
    (∀ text m₀, Manifest.ofYaml text = .ok m₀ → m₀.Alike m →
      ∃ entries, Yaml.parse text = .ok (some (.mapping entries)) ∧
        m.store.keys = Manifest.storeNames entries) ∧
    ∀ budget σ σ' c c' j j' p p' m' start' e e', HistoryUnder budget σ → HistoryUnder budget σ' →
      Starts σ c j argument p m start e → Starts σ' c' j' recorded p' m' start' e' →
      SameRevision σ σ' p p' →
      e.argument = recorded ∧ e'.argument = recorded ∧ start' = start ∧
      ∀ n > j, ∀ f, Ended σ n e.name f →
        f.argument = recorded ∧
        ((∀ i, (σ' i).Undisturbed e'.name) → (∃ k, (σ' k).calls c' = .executed e') →
          Fair σ' e'.name → ∃ n' > j', ∃ f', Ended σ' n' e'.name f') ∧
        ∀ n' > j', ∀ f', Ended σ' n' e'.name f' → f'.argument = recorded ∧
          f'.state = f.state ∧ f'.result = f.result ∧ f'.failure? = f.failure? ∧
          f'.steps = f.steps := by
  intro recorded
  have again := Manifest.initialStore_recordedArgument fit
  refine ⟨again, Manifest.bindings_of_initialStore fit, fun text m₀ read alike => ?_, ?_⟩
  · obtain ⟨entries, parsed, names⟩ := Manifest.keys_of_ofYaml read
    exact ⟨entries, parsed, alike.store_eq ▸ names⟩
  intro budget σ σ' c c' j j' p p' m' start' e e' history history' starts starts' same
  obtain ⟨_, _, argument_eq, _⟩ := starts.created history
  obtain ⟨fit', _, argument_eq', _⟩ := starts'.created history'
  -- Both calls have found one text, so both executions run one program from one store.
  obtain ⟨_, finds⟩ := starts.finds
  obtain ⟨_, finds'⟩ := starts'.finds
  have source := same.source_eq history finds.held finds'.held
  have form := starts'.isFormOf history'
  rw [source] at form
  have alike := form.alike (starts.isFormOf history)
  have program := alike.program_eq
  have start_eq : start' = start := by
    rw [Manifest.initialStore, alike.store_eq] at fit'
    exact Except.ok.inj (fit'.symm.trans again)
  subst start_eq
  rw [Manifest.recordedArgument_recordedArgument] at argument_eq'
  refine ⟨argument_eq, argument_eq', rfl, fun n later f ended => ?_⟩
  obtain ⟨k, isOver, kept, tells⟩ := ended.tells starts history later
  refine ⟨kept.trans argument_eq, fun undisturbed executed fair => ?_,
    fun n' later' f' ended' => ?_⟩
  · rw [← program] at isOver
    exact starts'.exists_ended history' undisturbed executed fair isOver
  · obtain ⟨k', isOver', kept', tells'⟩ := ended'.tells starts' history' later'
    rw [program] at isOver' tells'
    rw [Engine.advance_eq_of_over isOver' isOver] at tells'
    exact ⟨kept'.trans argument_eq', tells.agree tells' isOver⟩

/-! ## An execution that is repeated -/

/-- The history that goes through the worlds and then stays in the last one. -/
def through (w : World) : List World → Nat → World
  | [], _ => w
  | _ :: _, 0 => w
  | next :: rest, n + 1 => through next rest n

theorem through_zero (w : World) (ws : List World) : through w ws 0 = w := by
  cases ws <;> rfl

theorem through_mem (w : World) (ws : List World) (n : Nat) : through w ws n ∈ w :: ws := by
  induction ws generalizing w n with
  | nil => exact List.mem_cons_self
  | cons next rest ih =>
    cases n with
    | zero => exact List.mem_cons_self
    | succ n => exact List.mem_cons_of_mem _ (ih next n)

theorem history_through {w : World} {ws : List World} (steps : (w :: ws).IsChain Step) :
    History w (through w ws) := by
  refine ⟨through_zero w ws, fun n => ?_⟩
  induction ws generalizing w n with
  | nil => exact .inl rfl
  | cons next rest ih =>
    obtain ⟨first, steps⟩ := List.isChain_cons_cons.1 steps
    cases n with
    | zero =>
      have after : through w (next :: rest) 1 = next := through_zero next rest
      rw [after]
      exact .inr first
    | succ n => exact ih steps n

theorem undisturbed_of_eq {w : World} {name : String} {record? : Option Execution}
    {engine? : Option Engine} (record : w.record name = record?) (own : w.engine name = engine?)
    (uncancelled : ∀ e ∈ record?, e.state ≠ .cancelled)
    (unmarked : ∀ engine ∈ engine?, engine.meter.cancelled = false) : w.Undisturbed name := by
  subst record own
  exact ⟨uncancelled, unmarked⟩

/-- The text of a program that does nothing, with an initial store. -/
def replayText : Text :=
  "store:\n  z: 1\nsource: skip\n"

/-- Its parsed form. -/
def replayForm : Manifest :=
  ⟨"p", ∅, Table.set ∅ "z" (.int 1), "skip", .skip⟩

/-- The program as it is deployed. -/
def replayProgram : Deployment :=
  ⟨Resource.program "l" "p", ∅, .active, Registry.revisionText 1, ⟨1⟩, ⟨1⟩, replayText, none⟩

/-- An argument with a name of the initial store and others, not in their order. -/
def replayArgument : Memory :=
  Table.ofList [("z", .int 5), ("b", .int 1), ("a", .int 2)]

/-- The store from which an execution with the argument starts. -/
def replayStart : Memory :=
  Table.ofList [("z", .int 5), ("a", .int 2), ("b", .int 1)]

/-- The execution. -/
def replayExecution : Execution :=
  ⟨Resource.execution replayProgram.name "e", .active, replayStart.toJson.render, "", none, ⟨2⟩,
    .unset, replayProgram.revision, 0⟩

theorem ofText_replayText : Manifest.ofText "p" replayText = .ok replayForm := by
  let all (f : Manifest.Fields) := (f.name, f.description, f.source, f.store)
  have fields : (Manifest.documentFields replayText).map all =
      some ("", "", "skip", Table.set ∅ "z" (.int 1)) := by
    decide +kernel
  obtain ⟨⟨_, _, _, _⟩, document, same⟩ := Option.map_eq_some_iff.1 fields
  cases same
  have read := Manifest.ofYaml_of_documentFields (by decide) document
  have parsed : Command.parse "skip" = .ok .skip :=
    Command.parse_of_readFrom (by decide) (Command.readFrom_format (c := .skip) trivial)
  have isManifest : Manifest.isManifest replayText = true := by decide +kernel
  rw [Manifest.ofFields, if_neg (by decide)] at read
  dsimp only at read
  rw [parsed] at read
  rw [Manifest.ofText, if_pos isManifest, read]
  rfl

theorem initialStore_replayArgument :
    replayForm.initialStore replayArgument.toJson.render = .ok replayStart := by
  have inOrder : replayArgument.inOrder =
      Table.ofList [("a", .int 2), ("b", .int 1), ("z", .int 5)] := by
    refine Table.ext (Table.sorted_eq_of_perm ?_ ?_) <;> decide
  rw [Manifest.initialStore, Memory.ofJson_render, inOrder]
  exact congrArg Except.ok (by decide)

/-- The program is deployed, and then it is executed with an argument and the run goes to its end,
one section after the other. -/
theorem exists_replay (argument : Text) (given : argument.isEmpty = false)
    (fit : replayForm.initialStore argument = .ok replayStart) :
    ∃ σ n f, HistoryUnder 0 σ ∧
      Starts σ 1 4 argument replayProgram replayForm replayStart replayExecution ∧
      (∀ i, (σ i).Undisturbed replayExecution.name) ∧
      (∃ k, (σ k).calls 1 = .executed replayExecution) ∧ Fair σ replayExecution.name ∧ n > 4 ∧
      Ended σ n replayExecution.name f ∧ f.state = .succeeded ∧
      f.result = replayStart.toJson.render ∧ f.steps = 1 := by
  let e := replayExecution
  let name := replayProgram.name
  let goal : Goal := .start name argument
  let s₀ : Service := .new .empty 0 ⟨0⟩
  let s₁ := (s₀.onRegistry fun r now => r.createProgram now "l" "p" replayText ∅ none).1
  let s₂ := s₁.cache replayProgram replayForm
  let s₃ := ({ s₂ with issued := 1 }.onRegistry fun r now =>
    r.createExecution now "e" name (some replayStart)).1
  let new := Engine.new .skip 0
  let s₄ := s₃.register e.name new
  let s₅ := s₄.register e.name (new.begin replayStart)
  let last := ((new.begin replayStart).advance .background 1).1
  let s₆ := s₅.register e.name last
  let s₇ := s₆.recordEnd e.name last .succeeded
  have deploy : CallStep s₀ .idle s₁ (.caching replayProgram replayForm) :=
    callStep_deploy "p" replayText (by decide) (by decide) ofText_replayText rfl
  have look : CallStep s₂ .idle s₂ (.looking goal replayProgram) := .look goal
  have hit : CallStep s₂ (.looking goal replayProgram) s₂ (.starting name argument replayForm) :=
    .hit rfl
  have create : CallStep s₂ (.starting name argument replayForm) s₃
      (.created e replayForm replayStart) := by
    have locked : ({ s₂ with issued := 1 }.onRegistry fun r now => r.createExecution now "e" name
        (if argument.isEmpty then none else some replayStart)) = (s₃, .ok e) := by
      rw [given]
      rfl
    exact .create "e" 1 fit rfl locked
  let runs := (rest s₀).runs
  let calls := Function.update (rest s₀).calls 0 .returned
  let w₁ : World :=
    ⟨s₁, Function.update (rest s₀).calls 0 (.caching replayProgram replayForm), runs⟩
  let w₂ : World := ⟨s₂, calls, runs⟩
  let w₃ : World := ⟨s₂, Function.update calls 1 (.looking goal replayProgram), runs⟩
  let w₄ : World := ⟨s₂, Function.update calls 1 (.starting name argument replayForm), runs⟩
  let w₅ : World := ⟨s₃, Function.update calls 1 (.created e replayForm replayStart), runs⟩
  let w₆ : World := ⟨s₄, Function.update calls 1 (.registered e replayStart), runs⟩
  let executed := Function.update calls 1 (.executed e)
  let w₇ : World := ⟨s₄, executed, Function.update runs e.name (.launched replayStart)⟩
  let w₈ : World := ⟨s₅, executed, Function.update runs e.name .running⟩
  let w₉ : World := ⟨s₆, executed, Function.update runs e.name (.finished .succeeded)⟩
  let w₁₀ : World := ⟨s₇, executed, Function.update runs e.name .recorded⟩
  have begin : RunStep s₄ e.name (.launched replayStart) s₅ .running :=
    .begin (Table.get?_set_self ..)
  have finish : RunStep s₅ e.name .running s₆ (.finished .succeeded) :=
    .finish (Table.get?_set_self ..) rfl (by decide)
  have record : RunStep s₆ e.name (.finished .succeeded) s₇ .recorded :=
    .record (Table.get?_set_self ..)
  let σ := through (rest s₀) [w₁, w₂, w₃, w₄, w₅, w₆, w₇, w₈, w₉, w₁₀]
  have history : History (rest s₀) σ := history_through <|
    .cons_cons (.call 0 deploy) <| .cons_cons (step_call .cache) <| .cons_cons (.call 1 look) <|
    .cons_cons (step_call hit) <| .cons_cons (step_call create) <|
    .cons_cons (step_call .register) <| .cons_cons step_launch <| .cons_cons (step_run begin) <|
    .cons_cons (step_run finish) <| .cons_cons (step_run record) <| .singleton w₁₀
  have begins : Registry.empty.Begins :=
    ⟨.inl rfl, fun _ _ _ bound => (Table.get?_empty_ne bound).elim⟩
  have looking : w₃.calls 1 = .looking goal replayProgram := Function.update_self 1 _ calls
  have starting : w₄.calls 1 = .starting name argument replayForm :=
    Function.update_self 1 _ calls
  have created : w₅.calls 1 = .created e replayForm replayStart :=
    Function.update_self 1 _ calls
  have answered : w₇.calls 1 = .executed e := Function.update_self 1 _ calls
  have settled : w₁₀.runs e.name = .recorded := Function.update_self e.name _ runs
  have finds : Finds σ 1 2 goal replayProgram := ⟨rfl, looking, Table.get?_set_self .., rfl⟩
  have isRecord : s₃.registry.executions.get? e.name = some e := Table.get?_set_self ..
  have tells : ∃ f, s₇.registry.executions.get? e.name = some f ∧ f.argument = e.argument ∧
      f.Tells (last.snapshot?.getD ∅) last.steps .succeeded :=
    Service.recordEnd_tells isRecord ⟨rfl, rfl, rfl⟩ nofun nofun
  obtain ⟨f, isEnd, _, state, result, _, steps⟩ := tells
  have absent {w : World} (record : w.record e.name = none) (own : w.engine e.name = none) :
      w.Undisturbed e.name := undisturbed_of_eq record own nofun nofun
  have present {w : World} {e' : Execution} {engine? : Option Engine}
      (record : w.record e.name = some e') (own : w.engine e.name = engine?)
      (uncancelled : e'.state ≠ .cancelled)
      (unmarked : ∀ engine ∈ engine?, engine.meter.cancelled = false) : w.Undisturbed e.name := by
    refine undisturbed_of_eq record own ?_ unmarked
    rintro _ ⟨⟩
    exact uncancelled
  have each : ∀ w ∈ [rest s₀, w₁, w₂, w₃, w₄, w₅, w₆, w₇, w₈, w₉, w₁₀], w.Undisturbed e.name := by
    have active : e.state ≠ .cancelled := by decide
    have succeeded : f.state ≠ .cancelled := by
      rw [state]
      decide
    have unmarked (engine : Engine) (clear : engine.meter.cancelled = false) :
        ∀ engine' ∈ some engine, engine'.meter.cancelled = false := by
      rintro _ ⟨⟩
      exact clear
    simp only [List.forall_mem_cons]
    refine ⟨absent rfl rfl, absent rfl rfl, absent rfl rfl, absent rfl rfl, absent rfl rfl,
      present isRecord rfl active nofun, present isRecord (Table.get?_set_self ..) active ?_,
      present isRecord (Table.get?_set_self ..) active ?_,
      present isRecord (Table.get?_set_self ..) active ?_,
      present isRecord (Table.get?_set_self ..) active ?_,
      present isEnd (Table.get?_set_self ..) succeeded ?_, nofun⟩
    all_goals exact unmarked _ rfl
  have undisturbed (i : Nat) : (σ i).Undisturbed e.name := each _ (through_mem ..)
  have fair : Fair σ e.name := by
    intro k busy
    have still := busy (k + 10) (Nat.le_add_right k 10)
    have isOver : (σ (k + 10)).runs e.name = .recorded := settled
    rw [isOver] at still
    exact still.elim
  have ended : Ended σ 10 e.name f := by
    refine ⟨fun i _ => undisturbed i, isEnd, ?_⟩
    rw [state]
    decide
  exact ⟨σ, 10, f, ⟨_, _, begins, nofun, history⟩, ⟨⟨2, finds⟩, starting, created⟩, undisturbed,
    ⟨7, answered⟩, fair, by decide, ended, state, result, steps⟩

/-- An execution with an argument whose names are not in order, and one with what was recorded of
it. -/
theorem executions_replay_sorted :
    let argument : String := "\x7b\"z\":5,\"b\":1,\"a\":2\x7d"
    let recorded : String := "\x7b\"z\":5,\"a\":2,\"b\":1\x7d"
    ∃ σ σ' n n' f f', HistoryUnder 0 σ ∧ HistoryUnder 0 σ' ∧
      Starts σ 1 4 argument replayProgram replayForm replayStart replayExecution ∧
      Starts σ' 1 4 recorded replayProgram replayForm replayStart replayExecution ∧
      Ended σ n replayExecution.name f ∧ Ended σ' n' replayExecution.name f' ∧
      f.argument = recorded ∧ f.state = .succeeded ∧ f.result = recorded ∧ f.steps = 1 ∧
      f'.argument = recorded ∧ f'.state = .succeeded ∧ f'.result = recorded ∧ f'.steps = 1 := by
  intro argument recorded
  have written : replayStart.toJson.render = recorded := by decide +kernel
  have fit : replayForm.initialStore argument = .ok replayStart := by
    have given : replayArgument.toJson.render = argument := by decide +kernel
    rw [← given]
    exact initialStore_replayArgument
  have isRecorded : Manifest.recordedArgument argument replayStart = recorded :=
    (if_neg (by decide)).trans written
  obtain ⟨again, _, _, replays⟩ := executions_replay replayForm argument replayStart fit
  rw [isRecorded] at again replays
  obtain ⟨σ, n, f, history, starts, _, _, _, later, ended, state, result, steps⟩ :=
    exists_replay argument (by decide) fit
  obtain ⟨σ', _, _, history', starts', undisturbed, answered, fair, _⟩ :=
    exists_replay recorded (by decide) again
  obtain ⟨_, _, _, ends⟩ :=
    replays 0 σ σ' 1 1 4 4 _ _ _ _ _ _ history history' starts starts' (.inr rfl)
  obtain ⟨kept, exists_ended, agree⟩ := ends n later f ended
  obtain ⟨n', later', f', ended'⟩ := exists_ended undisturbed answered fair
  obtain ⟨kept', state', result', _, steps'⟩ := agree n' later' f' ended'
  exact ⟨σ, σ', n, n', f, f', history, history', starts, starts', ended, ended', kept, state,
    result.trans written, steps, kept', state'.trans state, (result'.trans result).trans written,
    steps'.trans steps⟩

end World

end ImpHost
