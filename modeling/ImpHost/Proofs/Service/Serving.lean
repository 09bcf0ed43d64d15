import ImpHost.Proofs.Resource
import ImpHost.Proofs.Service.Cancellation
import ImpHost.Proofs.Service.Histories

/-!
What a service answers and runs while programs change.

Main statements: a parsed program that is answered is never that of another text than the one that
was held when it was asked for (`World.served_forms_are_current`). An execution runs the program
that its call has found, but its record takes the revision of the program that is held later, when
the record is written (`World.recorded_revision_runs_iff`), so an update that comes between makes
the two differ (`World.engine_runs_other_revision`).
-/

namespace ImpHost

/-- A registry with which a service may begin: an empty one, or one that was opened. The numbers of
the revisions in it have 64 bits, as all numbers that are given out. -/
structure Registry.Begins (r : Registry) : Prop where
  made : r = .empty ∨ ∃ now db, openFrom now db = .ok r
  range : ∀ name p n, r.programs.get? name = some p → p.revision = revisionText n →
    n < Value.halfRange

theorem Registry.Begins.numbered {r : Registry} (begins : r.Begins) : r.Numbered := by
  rcases begins.made with rfl | ⟨now, db, opened⟩
  · exact numbered_empty
  · exact numbered_of_openFrom opened begins.range

namespace World

variable {σ : Nat → World}

/-! ## Parsed forms are never stale -/

/-- A parsed program that is answered is the form of the text that was held when the call found the
program. Each form that is kept, at whatever moment, is the form of the one text that ever had its
name and revision. -/
theorem served_forms_are_current (r : Registry) (begins : r.Begins) (budget : Int)
    (clock : Instant) (history : History (rest (.new r budget clock)) σ) :
    (∀ n c p m, (σ n).calls c = .served p m →
      ∃ i < n, ∃ name, Finds σ c i (.read name) p ∧ Manifest.IsFormOf p.source m) ∧
    (∀ n name form, (σ n).service.parsed.get? name = some form →
      ∃ i ≤ n, ∃ p, (σ i).program name = some p ∧ p.revision = form.revision ∧
        Manifest.IsFormOf p.source form.manifest ∧
        ∀ j q, (σ j).program name = some q → q.revision = form.revision → q = p) := by
  have numbered := begins.numbered
  constructor
  · intro n c p m served
    have explained := (history.consistent numbered n).calls c
    rw [served] at explained
    obtain ⟨⟨name, i, before, finds⟩, form⟩ := explained
    exact ⟨i, before, name, finds, form⟩
  · intro n name form bound
    obtain ⟨p, ⟨i, before, held⟩, rfl, revision, isForm⟩ :=
      (history.consistent numbered n).kept name form bound
    refine ⟨i, before, p, held, revision, isForm, fun j q there same => ?_⟩
    exact history.eq_of_revision_eq numbered there held (same.trans revision.symm)

/-- A program that is deployed by a call of its own, up to the moment at which its parsed form is to
be kept. -/
theorem callStep_deploy {s s' : Service} {m : Manifest} {p : Deployment} (id : String)
    (source : Text) (small : id.utf8ByteSize ≤ Resource.maxIdLength)
    (valid : Resource.isId id.toList = true) (parsed : Manifest.ofText id source = .ok m)
    (locked : (s.onRegistry fun r now => r.createProgram now "l" id source m.description none) =
      (s', .ok p)) : CallStep s .idle s' (.caching p m) := by
  have checked : Resource.checkProgramId id = .ok () :=
    Resource.checkProgramId_ofString small valid
  rw [← Text.lossy_ofString id] at locked
  exact .deploy "l" id source ∅ none checked parsed locked

theorem ofText_spin (name : Text) :
    Manifest.ofText name "while true do skip end" =
      .ok ⟨name, ∅, ∅, "while true do skip end", spin⟩ := by
  have read := Command.readFrom_format (c := spin) ⟨trivial, trivial⟩
  exact Manifest.ofText_of_parse name (by decide +kernel)
    (Command.parse_of_readFrom (by decide) read)

/-- A program is deployed, removed, and another one deployed under its name and read. The first
deployment keeps its parsed form only then, and what was read is the form of the second text. -/
theorem served_forms_are_current_late :
    ∃ σ n p m form, History (rest (.new .empty 0 ⟨0⟩)) σ ∧ (σ n).calls 2 = .served p m ∧
      p.revision = Registry.revisionText 2 ∧ m.program = spin ∧ Manifest.IsFormOf p.source m ∧
      (σ n).service.parsed.get? p.name = some form ∧ form.revision = Registry.revisionText 1 ∧
      form.manifest.program = .skip ∧
      ∃ i ≤ n, ∃ q, (σ i).program p.name = some q ∧ q.revision = form.revision ∧
        Manifest.IsFormOf q.source form.manifest := by
  let name := Resource.program "l" "p"
  let s₀ : Service := .new .empty 0 ⟨0⟩
  let m₁ : Manifest := ⟨"p", ∅, ∅, "skip", .skip⟩
  let m₂ : Manifest := ⟨"p", ∅, ∅, "while true do skip end", spin⟩
  let p₁ : Deployment := ⟨name, ∅, .active, Registry.revisionText 1, ⟨1⟩, ⟨1⟩, "skip", none⟩
  let p₂ : Deployment :=
    ⟨name, ∅, .active, Registry.revisionText 2, ⟨3⟩, ⟨3⟩, "while true do skip end", none⟩
  let s₁ := (s₀.onRegistry fun r now => r.createProgram now "l" "p" "skip" ∅ none).1
  let s₂ := (s₁.delete name).1
  let s₃ := (s₂.onRegistry fun r now =>
    r.createProgram now "l" "p" "while true do skip end" ∅ none).1
  have first : CallStep s₀ .idle s₁ (.caching p₁ m₁) :=
    callStep_deploy "p" "skip" (by decide) (by decide) (Manifest.ofText_skip _) rfl
  have second : CallStep s₂ .idle s₃ (.caching p₂ m₂) :=
    callStep_deploy "p" "while true do skip end" (by decide) (by decide) (ofText_spin _) rfl
  let w₁ : World := ⟨s₁, Function.update (rest s₀).calls 0 (.caching p₁ m₁), (rest s₀).runs⟩
  let w₂ : World := ⟨s₂, Function.update w₁.calls 1 .returned, w₁.runs⟩
  let w₃ : World := ⟨s₃.cache p₂ m₂, Function.update w₂.calls 3 .returned, w₂.runs⟩
  let w₄ : World := ⟨s₃.cache p₂ m₂, Function.update w₃.calls 2 (.served p₂ m₂), w₃.runs⟩
  let w₅ : World := ⟨(s₃.cache p₂ m₂).cache p₁ m₁, Function.update w₄.calls 0 .returned, w₄.runs⟩
  have deployed : Reaches (rest s₀) w₁ := reaches_of_callRun rfl (.one first)
  have removed : Reaches w₁ w₂ := reaches_of_callRun rfl (Service.callRun_delete s₁ name)
  have deployedAgain : Reaches w₂ w₃ := reaches_of_callRun rfl ((CallRun.one second).andThen .cache)
  have look : CallStep w₃.service .idle w₃.service (.looking (.read name) p₂) := .look (.read name)
  have read : Reaches w₃ w₄ := reaches_of_callRun rfl ((CallRun.one look).andThen (.hit rfl))
  have keptLate : Reaches w₄ w₅ := reaches_of_callRun rfl (.one .cache)
  obtain ⟨σ, n, history, reached⟩ :=
    exists_history ((((deployed.trans removed).trans deployedAgain).trans read).trans keptLate)
  have served : (σ n).calls 2 = .served p₂ m₂ := by
    rw [reached]
    rfl
  have kept : (σ n).service.parsed.get? name = some ⟨Registry.revisionText 1, m₁⟩ := by
    rw [reached]
    rfl
  have begins : Registry.empty.Begins :=
    ⟨.inl rfl, fun _ _ _ bound => (Table.get?_empty_ne bound).elim⟩
  obtain ⟨current, backed⟩ := served_forms_are_current .empty begins 0 ⟨0⟩ history
  obtain ⟨_, _, _, _, isForm⟩ := current n 2 p₂ m₂ served
  obtain ⟨i, before, q, held, revision, isFormThen, _⟩ := backed n name _ kept
  exact ⟨σ, n, p₂, m₂, _, history, served, rfl, rfl, isForm, kept, rfl, rfl, i, before, q, held,
    revision, isFormThen⟩

/-! ## The revision of an execution -/

/-- An execution runs the program that its call has found, and its record has the revision that the
program had when the record was written. It is the revision that runs just when the program was the
same then. -/
theorem recorded_revision_runs_iff (r : Registry) (begins : r.Begins) (budget : Int)
    (clock : Instant) (history : History (rest (.new r budget clock)) σ) (k c : Nat)
    (e : Execution) (m : Manifest) (start : Memory) (created : (σ k).calls c = .created e m start) :
    (∃ i j program argument p q, i < j ∧ j < k ∧ Finds σ c i (.start program argument) p ∧
      Manifest.IsFormOf p.source m ∧ Records σ c j program argument m q e ∧
      (e.revision = p.revision ↔ q = p)) ∧
    ∀ start', (σ (k + 1)).calls c = .registered e start' →
      (σ (k + 1)).engine e.name = some (.new m.program (σ k).service.budget) := by
  have numbered := begins.numbered
  constructor
  · have explained := (history.consistent numbered k).calls c
    rw [created] at explained
    obtain ⟨j, later, program, argument, q, records⟩ := explained
    have explained := (history.consistent numbered j).calls c
    rw [records.before] at explained
    obtain ⟨p, ⟨i, earlier, finds⟩, form⟩ := explained
    refine ⟨i, j, program, argument, p, q, earlier, later, finds, form, records, ?_, ?_⟩
    · intro same
      exact history.eq_of_revision_eq numbered records.held finds.held
        (records.revision.symm.trans same)
    · rintro rfl
      exact records.revision
  · intro start' registered
    rcases history.next k with same | step
    · rw [same, created] at registered
      cases registered
    · rcases step.calls_cases c with same | step | ⟨_, _, ready, _⟩ | ⟨waits, _, _⟩
      · rw [same, created] at registered
        cases registered
      · rw [created] at step
        rw [engine, step.of_created]
        exact Table.get?_set_self ..
      · cases created.symm.trans ready
      · cases created.symm.trans waits

/-! ## A program that is updated while an execution of it starts -/

/-- The parsed form of the program before it is updated. -/
def raceForm : Manifest :=
  ⟨"p", ∅, ∅, "while true do skip end", spin⟩

/-- The program after it is updated. -/
def raceProgram : Deployment :=
  ⟨Resource.program "l" "p", ∅, .active, Registry.revisionText 2, ⟨1⟩, ⟨2⟩, "skip", none⟩

/-- The execution that is started of it. -/
def raceExecution : Execution :=
  ⟨Resource.execution raceProgram.name "e", .active, "", "", none, ⟨3⟩, .unset,
    raceProgram.revision, 0⟩

/-- The program is updated between the section in which the call 1 finds it and the one in which
the call records the execution. -/
theorem reaches_race : ∃ w, Reaches (rest (.new .empty 0 ⟨0⟩)) w ∧
    w.calls 1 = .created raceExecution raceForm ∅ ∧
    w.program raceProgram.name = some raceProgram ∧
    w.record raceExecution.name = some raceExecution := by
  let name := raceProgram.name
  let s₀ : Service := .new .empty 0 ⟨0⟩
  let m₂ : Manifest := ⟨name, ∅, ∅, "skip", .skip⟩
  let p₁ : Deployment :=
    ⟨name, ∅, .active, Registry.revisionText 1, ⟨1⟩, ⟨1⟩, "while true do skip end", none⟩
  let s₁ := ((s₀.onRegistry fun r now =>
    r.createProgram now "l" "p" "while true do skip end" ∅ none).1).cache p₁ raceForm
  let s₂ := (s₁.onRegistry fun r now => r.updateProgram now name "skip" ∅ none).1
  let s₃ := ({ s₂.cache raceProgram m₂ with issued := 1 }.onRegistry fun r now =>
    r.createExecution now "e" name none).1
  have deploy : CallStep s₀ .idle _ (.caching p₁ raceForm) :=
    callStep_deploy "p" "while true do skip end" (by decide) (by decide) (ofText_spin _) rfl
  have look : CallStep s₁ .idle s₁ (.looking (.start name ∅) p₁) := .look (.start name ∅)
  have hit : CallStep s₁ (.looking (.start name ∅) p₁) s₁ (.starting name ∅ raceForm) := .hit rfl
  have update : CallStep s₁ .idle s₂ (.caching raceProgram m₂) :=
    .update name "skip" ∅ none rfl (Manifest.ofText_skip _) rfl
  have create : CallStep (s₂.cache raceProgram m₂) (.starting name ∅ raceForm) s₃
      (.created raceExecution raceForm ∅) :=
    .create "e" 1 (Manifest.initialStore_empty raceForm) rfl rfl
  let w₁ : World := ⟨s₁, Function.update (rest s₀).calls 0 .returned, (rest s₀).runs⟩
  let w₂ : World := ⟨s₁, Function.update w₁.calls 1 (.starting name ∅ raceForm), w₁.runs⟩
  let w₃ : World := ⟨s₂.cache raceProgram m₂, Function.update w₂.calls 2 .returned, w₂.runs⟩
  let w₄ : World :=
    ⟨s₃, Function.update w₃.calls 1 (.created raceExecution raceForm ∅), w₃.runs⟩
  have deployed : Reaches (rest s₀) w₁ :=
    reaches_of_callRun rfl ((CallRun.one deploy).andThen .cache)
  have found : Reaches w₁ w₂ := reaches_of_callRun rfl ((CallRun.one look).andThen hit)
  have updated : Reaches w₂ w₃ := reaches_of_callRun rfl ((CallRun.one update).andThen .cache)
  have created : Reaches w₃ w₄ := reaches_of_callRun rfl (.one create)
  exact ⟨w₄, ((deployed.trans found).trans updated).trans created, rfl, rfl,
    Table.get?_set_self ..⟩

theorem race_form_ne {m : Manifest} (form : Manifest.IsFormOf raceProgram.source m) :
    m.program ≠ spin := by
  have isSkip : m.program = .skip :=
    form.program_eq (Manifest.isFormOf_of_ofText (Manifest.ofText_skip ∅))
  rw [isSkip]
  exact nofun

theorem recorded_revision_runs_iff_race :
    ∃ σ k, History (rest (.new .empty 0 ⟨0⟩)) σ ∧
      (σ k).calls 1 = .created raceExecution raceForm ∅ ∧
      ∃ i j program argument p q, i < j ∧ j < k ∧ Finds σ 1 i (.start program argument) p ∧
        Manifest.IsFormOf p.source raceForm ∧
        Records σ 1 j program argument raceForm q raceExecution ∧
        (raceExecution.revision = p.revision ↔ q = p) := by
  obtain ⟨w, reached, created, held, _⟩ := reaches_race
  obtain ⟨σ, k, history, rfl⟩ := exists_history reached
  have begins : Registry.empty.Begins :=
    ⟨.inl rfl, fun _ _ _ bound => (Table.get?_empty_ne bound).elim⟩
  have runs := recorded_revision_runs_iff .empty begins 0 ⟨0⟩ history k 1 _ _ _ created
  exact ⟨σ, k, history, created, runs.1⟩

/-- When a program is updated between the section in which a call finds it and the one in which the
call records the execution, the record has the new revision and the engine runs the old text. -/
theorem engine_runs_other_revision :
    ∃ w e engine p, Reaches (rest (.new .empty 0 ⟨0⟩)) w ∧ w.calls 1 = .executed e ∧
      w.record e.name = some e ∧ w.engine e.name = some engine ∧
      w.program (Resource.program "l" "p") = some p ∧ e.revision = p.revision ∧
      ∀ m, Manifest.IsFormOf p.source m → m.program ≠ engine.program := by
  obtain ⟨w, reached, created, held, recorded⟩ := reaches_race
  let w₁ : World := ⟨w.service.register raceExecution.name (.new spin w.service.budget),
    Function.update w.calls 1 (.registered raceExecution ∅), w.runs⟩
  let w₂ : World := ⟨w₁.service, Function.update w₁.calls 1 (.executed raceExecution),
    Function.update w₁.runs raceExecution.name (.launched ∅)⟩
  have registered : Reaches w w₁ := reaches_of_callRun created (.one .register)
  have ready : w₁.calls 1 = .registered raceExecution ∅ := Function.update_self 1 _ w.calls
  have launched : Step w₁ w₂ := .launch 1 ready
  exact ⟨w₂, raceExecution, .new spin w.service.budget, raceProgram,
    (reached.trans registered).tail launched, Function.update_self 1 _ w₁.calls, recorded,
    Table.get?_set_self .., held, rfl, fun m form => race_form_ne form⟩

end World

end ImpHost
