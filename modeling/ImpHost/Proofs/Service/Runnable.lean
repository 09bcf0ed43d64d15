import ImpHost.Proofs.Encoding
import ImpHost.Proofs.Manifest
import ImpHost.Proofs.Registry.Histories
import ImpHost.Proofs.Registry.Rereading
import ImpHost.Proofs.Resource
import ImpHost.Proofs.Service.Agreement
import ImpHost.Service.Directory

/-!
Deployed programs can be run.

The service reads a text before it hands it to the registry, which keeps whatever it is given; a
text that is not handed in leaves the one that is there. `Operation.Sound` says what this comes to
for the registry, and every operation of the service takes sound operations only. They keep
`Registry.Runnable`, which speaks of the records in the database too, so that it survives an
opening.

Main statement: after every history of a service, each program has the name that its identifier
gives it and a source that is a program, and an execution is refused for its own sake only
(`Service.programs_stay_runnable`).
-/

namespace ImpHost

/-! ## Programs that can be run -/

/-- The text is UTF-8 and spells a program. -/
def Manifest.Spells (source : Text) : Prop :=
  source.IsUtf8 ∧ ∃ m, IsFormOf source m

theorem Manifest.spells_of_ofText {name source : Text} {m : Manifest} (strict : Yaml.Strict source)
    (read : ofText name source = .ok m) : Spells source :=
  ⟨isUtf8_of_ofText strict read, m, isFormOf_of_ofText read⟩

/-- The program is named below some parent by its identifier, and its source spells a program. -/
structure Deployment.Runnable (p : Deployment) : Prop where
  named : ∃ parent, p.name = Resource.program parent p.id ∧ Resource.checkProgramId p.id = .ok ()
  source : Manifest.Spells p.source

theorem Deployment.Runnable.congr {p q : Deployment} (runnable : p.Runnable)
    (name : q.name = p.name) (source : Manifest.Spells q.source) : q.Runnable := by
  have id : q.id = p.id := congrArg Resource.id name
  refine ⟨?_, source⟩
  rw [name, id]
  exact runnable.named

namespace Registry

/-- The programs can be run, those of the registry and those whose records the database has. -/
structure Runnable (r : Registry) : Prop where
  programs : ∀ name p, r.programs.get? name = some p → p.name = name ∧ p.Runnable
  records : ∀ db, r.database? = some db → ∀ key text, db.programs.get? key = some text →
    ∃ p : Deployment, p.Runnable ∧ text = p.encode

end Registry

/-- What the operation hands in can be run. -/
def Operation.Sound : Operation → Prop
  | .createProgram _ id source _ _ => Resource.checkProgramId id = .ok () ∧ Manifest.Spells source
  | .updateProgram _ source _ _ => source.isEmpty = false → Manifest.Spells source
  | _ => True

/-- The program that is recorded can be run. -/
def Change.Sound : Change → Prop
  | .program name p => p.name = name ∧ p.Runnable
  | _ => True

namespace Registry

variable {r r' : Registry} {db : Database} {now : Instant} {op : Operation} {change : Change}

theorem sound_of_due (runnable : r.Runnable) (sound : op.Sound) (due : op.Due r now change) :
    change.Sound := by
  cases due with
  | @createProgram parent id source description labels new =>
    obtain ⟨valid, spells⟩ := sound
    have found : Resource.id (Resource.program parent id) = id :=
      Resource.id_program parent (Resource.checkProgramId_eq_ok_iff.1 valid)
    refine ⟨rfl, ⟨parent, ?_⟩, spells⟩
    dsimp only [Deployment.id]
    rw [found]
    exact ⟨rfl, valid⟩
  | @updateProgram name source description labels p old =>
    obtain ⟨named, before⟩ := runnable.programs name p old
    refine ⟨named, before.congr rfl ?_⟩
    dsimp only [revised]
    -- An empty text leaves the source that was read when it was handed in.
    split
    · exact before.source
    · next given => exact sound (Bool.eq_false_iff.2 given)
  | deleteProgram | createExecution | completeExecution | failExecution | cancelExecution =>
    exact trivial

/-- Only the programs and their records matter. -/
theorem Runnable.congr (runnable : r.Runnable) (programs : r'.programs = r.programs)
    (records : ∀ db', r'.database? = some db' → ∃ db, r.database? = some db ∧
      db'.programs = db.programs) : r'.Runnable := by
  refine ⟨?_, fun db' has => ?_⟩
  · rw [programs]
    exact runnable.programs
  · obtain ⟨db, had, same⟩ := records db' has
    rw [same]
    exact runnable.records db had

theorem Runnable.changed (runnable : r.Runnable) (sound : change.Sound) :
    (r.changed change).Runnable := by
  cases change with
  | program name p =>
    obtain ⟨named, new⟩ := sound
    refine ⟨fun x q held => ?_, fun db' has key text bound => ?_⟩
    · rw [Registry.changed, withProgram, Table.get?_set] at held
      split at held
      · next same =>
        cases held
        exact ⟨named.trans same.symm, new⟩
      · exact runnable.programs x q held
    · obtain ⟨db, had, rfl⟩ := Option.map_eq_some_iff.1 has
      dsimp only at bound
      rw [Table.get?_set] at bound
      split at bound
      · cases bound
        exact ⟨p, new, rfl⟩
      · exact runnable.records db had key text bound
  | removal name =>
    refine ⟨fun x q held => ?_, fun db' has key text bound => ?_⟩
    · rw [Registry.changed, withoutProgram, Table.get?_erase] at held
      split at held
      · cases held
      · exact runnable.programs x q held
    · obtain ⟨db, had, rfl⟩ := Option.map_eq_some_iff.1 has
      dsimp only at bound
      rw [Table.get?_erase] at bound
      split at bound
      · cases bound
      · exact runnable.records db had key text bound
  | execution name e =>
    refine runnable.congr rfl fun db' has => ?_
    obtain ⟨db, had, rfl⟩ := Option.map_eq_some_iff.1 has
    exact ⟨db, had, rfl⟩

/-- A sound operation keeps the programs runnable, refused or not. -/
theorem Runnable.run (runnable : r.Runnable) (sound : op.Sound) (now : Instant) :
    (op.run r now).1.Runnable := by
  have course := op.run_cases r now
  generalize op.run r now = out at course
  cases course with
  | refused => exact runnable
  | unwritten => exact runnable.congr rfl fun db had => ⟨db, had, rfl⟩
  | made due _ => exact runnable.changed (sound_of_due runnable sound due)

/-- A database with the records of runnable programs is opened as a registry of such programs. -/
theorem Runnable.opened (runnable : r.Runnable) (had : r.database? = some db)
    (opened : openFrom now db.close = .ok r') : r'.Runnable := by
  have records := runnable.records db had
  refine ⟨fun name q held => ?_, fun db' has => ?_⟩
  · obtain ⟨named, p, before, name, -, source⟩ := programs_of_openFrom opened records held
    -- A record gives the source back as UTF-8, which it was.
    rw [before.source.1.ofString_lossy] at source
    refine ⟨named, before.congr name ?_⟩
    rw [source]
    exact before.source
  · obtain ⟨db'', has', same⟩ := database_of_openFrom opened
    cases has.symm.trans has'
    rw [same]
    exact records

theorem Initial.runnable (initial : r.Initial) : r.Runnable := by
  rcases initial.eq_empty_or_fresh with rfl | rfl
  · exact ⟨fun _ _ held => (Table.get?_empty_ne held).elim, nofun⟩
  · refine ⟨fun _ _ held => (Table.get?_empty_ne held).elim, fun db had _ _ bound => ?_⟩
    cases had
    exact (Table.get?_empty_ne bound).elim

end Registry

/-! ## Operations of the service -/

namespace Service

variable {α : Type} {s s' : Service} {f : Registry → Instant → Registry.Outcome α}
  {answer : Except Problem α}

theorem runnable_onRegistry (runnable : s.registry.Runnable) (op : Operation) (sound : op.Sound)
    (same : ∀ now, op.run s.registry now = (f s.registry now).verdict) :
    (s.onRegistry f).1.registry.Runnable := by
  have after := runnable.run sound s.tick.clock
  rw [same, Registry.Outcome.verdict_fst] at after
  exact after

theorem runnable_of_onRegistry (runnable : s.registry.Runnable) (op : Operation) (sound : op.Sound)
    (same : ∀ now, op.run s.registry now = (f s.registry now).verdict)
    (locked : s.onRegistry f = (s', answer)) : s'.registry.Runnable := by
  have after := runnable_onRegistry runnable op sound same
  rwa [locked] at after

theorem runnable_deploy (runnable : s.registry.Runnable) (parent : String) (id source : Text)
    (description : Text) (labels : Option Labels) (strict : Yaml.Strict source) :
    (s.deploy parent id source description labels).1.registry.Runnable := by
  unfold deploy
  split
  · exact runnable
  · next valid =>
    split
    · exact runnable
    · next m read =>
      -- The name is made of the characters of the identifier, which has no stray byte.
      have whole : Text.ofString id.lossy = id :=
        Resource.ofString_lossy_of_isProgramId (Resource.checkProgramId_eq_ok_iff.1 valid)
      have sound : (Operation.createProgram parent id.lossy source
          (if description.isEmpty then m.description else description) labels).Sound := by
        refine ⟨?_, Manifest.spells_of_ofText strict read⟩
        rw [whole]
        exact valid
      dsimp only
      split
      · next locked =>
        have after := runnable_of_onRegistry runnable _ sound (fun _ => rfl) locked
        exact after
      · next locked => exact runnable_of_onRegistry runnable _ sound (fun _ => rfl) locked

theorem runnable_update (runnable : s.registry.Runnable) (name : String) (source : Text)
    (description : Text) (labels : Option Labels) (strict : Yaml.Strict source) :
    (s.update name source description labels).1.registry.Runnable := by
  unfold update
  dsimp only
  split
  · next empty =>
    refine runnable_onRegistry runnable (.updateProgram name source description labels) ?_
      fun _ => rfl
    intro given
    cases empty.symm.trans given
  · split
    · exact runnable
    · next m read =>
      have sound : (Operation.updateProgram name source description labels).Sound :=
        fun _ => Manifest.spells_of_ofText strict read
      split
      · next locked =>
        have after := runnable_of_onRegistry runnable _ sound (fun _ => rfl) locked
        exact after
      · next locked => exact runnable_of_onRegistry runnable _ sound (fun _ => rfl) locked

theorem runnable_delete (runnable : s.registry.Runnable) (name : String) :
    (s.delete name).1.registry.Runnable := by
  have sound : (Operation.deleteProgram name).Sound := trivial
  unfold delete
  split
  · next locked =>
    have after := runnable_of_onRegistry runnable _ sound (fun _ => rfl) locked
    exact after
  · next locked => exact runnable_of_onRegistry runnable _ sound (fun _ => rfl) locked

theorem runnable_issue (runnable : s.registry.Runnable) (name : String)
    (argument? : Option Memory) : (s.issue name argument?).1.registry.Runnable := by
  let op := Operation.createExecution (executionId (s.issued + 1)) name argument?
  have sound : op.Sound := trivial
  exact runnable_onRegistry (s := { s with issued := _ }) runnable op sound fun _ => rfl

theorem runnable_execute (runnable : s.registry.Runnable) (name : String) (argument : Text) :
    (s.execute name argument).1.registry.Runnable := by
  have found := (s.program_fst name).1
  unfold execute
  split
  · next looked =>
    rw [looked] at found
    rwa [found]
  · next s₁ m looked =>
    rw [looked] at found
    rw [← found] at runnable
    split
    · exact runnable
    · next start _ =>
      have after := runnable_issue runnable name (if argument.isEmpty then none else some start)
      split
      · next issued =>
        rw [issued] at after
        exact after
      · next issued =>
        rw [issued] at after
        exact after

theorem runnable_cancel (runnable : s.registry.Runnable) (name : String) :
    (s.cancel name).1.registry.Runnable := by
  have sound : (Operation.cancelExecution name).Sound := trivial
  unfold cancel
  split
  · next locked => exact runnable_of_onRegistry runnable _ sound (fun _ => rfl) locked
  · next locked =>
    have after := runnable_of_onRegistry runnable _ sound (fun _ => rfl) locked
    dsimp only
    rwa [registry_cancelEngine]

theorem runnable_advance (runnable : s.registry.Runnable) (fuel : Nat) (name : String) :
    (s.advance fuel name).registry.Runnable := by
  unfold advance
  split
  · exact runnable
  · split
    · exact runnable
    · next engine status _ _ =>
      dsimp only [release]
      unfold recordEnd
      dsimp only
      split
      · next why _ =>
        have sound : (Operation.failExecution name why (some (engine.snapshot?.getD ∅))
          engine.steps).Sound := trivial
        exact runnable_onRegistry runnable _ sound fun _ => rfl
      · have sound : (Operation.completeExecution name (engine.snapshot?.getD ∅)
          engine.steps).Sound := trivial
        exact runnable_onRegistry runnable _ sound fun _ => rfl

theorem runnable_shutdown (runnable : s.registry.Runnable) : s.shutdown.registry.Runnable := by
  have each (names : List String) {s : Service} (runnable : s.registry.Runnable) :
      (names.foldl (fun s name => s.advance 1 name) s).registry.Runnable := by
    induction names generalizing s with
    | nil => exact runnable
    | cons name names ih => exact ih (runnable_advance runnable 1 name)
  have marked : s.cancelEngines.registry = s.registry := (foldl_cancelEngine _ s).1
  rw [shutdown_eq]
  refine each _ ?_
  rwa [marked]

theorem eq_file_of_deployable? {name : String} {entry : FileEntry} {contents : Text} {m : Manifest}
    (isDeployable : deployable? name entry = some (contents, m)) : entry = .file contents := by
  unfold deployable? at isDeployable
  split at isDeployable
  · cases isDeployable
  · split at isDeployable
    · split at isDeployable
      · cases isDeployable
        rfl
      · cases isDeployable
    · cases isDeployable

theorem runnable_loadFile (runnable : s.registry.Runnable) (parent name : String)
    (entry : FileEntry) (strict : ∀ contents, entry = .file contents → Yaml.Strict contents) :
    (s.loadFile parent name entry).registry.Runnable := by
  unfold loadFile
  split
  · exact runnable
  · next contents m isDeployable =>
    have strict := strict contents (eq_file_of_deployable? isDeployable)
    have deployed :=
      runnable_deploy runnable parent (idOfFile name) contents m.description none strict
    dsimp only
    split
    · next done =>
      rw [done] at deployed
      exact deployed
    · next done =>
      rw [done] at deployed
      split
      · exact runnable_update deployed _ contents m.description none strict
      · exact deployed

theorem runnable_loadDirectory (runnable : s.registry.Runnable) (parent : String)
    (listing : List (String × FileEntry))
    (strict : ∀ name contents, (name, .file contents) ∈ listing → Yaml.Strict contents) :
    (s.loadDirectory parent listing).registry.Runnable := by
  unfold loadDirectory
  induction listing generalizing s with
  | nil => exact runnable
  | cons file files ih =>
    rw [List.foldl_cons]
    refine ih (runnable_loadFile runnable parent file.1 file.2 ?_) ?_
    · rintro contents isFile
      exact strict file.1 contents (List.mem_cons.2 (.inl (Prod.ext rfl isFile.symm)))
    · exact fun name contents member => strict name contents (List.mem_cons_of_mem _ member)

/-! ## Histories -/

/-- One event in the history of a service. Of the texts that are handed in it is asked only that a
document of theirs is UTF-8. -/
inductive Step : Service → Service → Prop
  | deploy {s : Service} (parent : String) (id source description : Text) (labels : Option Labels)
      (strict : Yaml.Strict source) : Step s (s.deploy parent id source description labels).1
  | update {s : Service} (name : String) (source description : Text) (labels : Option Labels)
      (strict : Yaml.Strict source) : Step s (s.update name source description labels).1
  | delete {s : Service} (name : String) : Step s (s.delete name).1
  | program {s : Service} (name : String) : Step s (s.program name).1
  | execute {s : Service} (name : String) (argument : Text) : Step s (s.execute name argument).1
  | cancel {s : Service} (name : String) : Step s (s.cancel name).1
  /-- The run of an execution goes on. -/
  | advance {s : Service} (fuel : Nat) (name : String) : Step s (s.advance fuel name)
  | shutdown {s : Service} : Step s s.shutdown
  | loadDirectory {s : Service} (parent : String) (listing : List (String × FileEntry))
      (strict : ∀ name contents, (name, .file contents) ∈ listing → Yaml.Strict contents) :
    Step s (s.loadDirectory parent listing)
  /-- The medium of the database fails, works again or is closed. -/
  | medium {s : Service} {db : Database} (had : s.registry.database? = some db)
      (fault? : Option DatabaseError) :
    Step s { s with registry := { s.registry with database? := some { db with fault? } } }
  /-- Another service is started over the database. -/
  | reopen {s : Service} {db : Database} {r : Registry} (now : Instant)
      (had : s.registry.database? = some db) (opened : Registry.openFrom now db.close = .ok r)
      (budget : Int) (clock : Instant) : Step s (.new r budget clock)

/-- Some history leads from one service to the other. -/
def Reaches : Service → Service → Prop :=
  Relation.ReflTransGen Step

theorem runnable_step (runnable : s.registry.Runnable) (step : Step s s') :
    s'.registry.Runnable := by
  cases step with
  | deploy parent id source description labels strict =>
    exact runnable_deploy runnable parent id source description labels strict
  | update name source description labels strict =>
    exact runnable_update runnable name source description labels strict
  | delete name => exact runnable_delete runnable name
  | program name => rwa [(s.program_fst name).1]
  | execute name argument => exact runnable_execute runnable name argument
  | cancel name => exact runnable_cancel runnable name
  | advance fuel name => exact runnable_advance runnable fuel name
  | shutdown => exact runnable_shutdown runnable
  | loadDirectory parent listing strict =>
    exact runnable_loadDirectory runnable parent listing strict
  | medium had fault? =>
    refine runnable.congr rfl fun db' has => ?_
    cases has
    exact ⟨_, had, rfl⟩
  | reopen now had opened budget clock => exact runnable.opened had opened

theorem runnable_of_reaches (runnable : s.registry.Runnable) (reached : s.Reaches s') :
    s'.registry.Runnable := by
  induction reached with
  | refl => exact runnable
  | tail _ step ih => exact runnable_step ih step

/-! ## What a request can be refused for -/

variable {name : String} {argument : Text} {why : Problem}

/-- The parsed form of a program that can be run is kept or is parsed. -/
theorem program_of_runnable {p : Deployment} (held : s.registry.programs.get? name = some p)
    (runnable : p.Runnable) : ∃ s' m, s.program name = (s', .ok m) := by
  unfold program
  simp only [Registry.program, held]
  split
  · exact ⟨_, _, rfl⟩
  · obtain ⟨-, m, form⟩ := runnable.source
    obtain ⟨m', read, -⟩ := form p.id
    rw [read]
    exact ⟨_, _, rfl⟩

theorem execute_refused (runnable : s.registry.Runnable)
    (accepts : s.registry.Accepts (Resource.execution name (executionId (s.issued + 1))))
    (refused : (s.execute name argument).2 = .error why) :
    s.registry.programs.get? name = none ∧ why = Registry.programNotFound name ∨
      (∃ e, Memory.ofJson argument = .error e) ∧ why.refusal? = some .invalidArgument := by
  cases held : s.registry.programs.get? name with
  | none =>
    simp only [execute, program, Registry.program, held] at refused
    cases refused
    exact .inl ⟨rfl, rfl⟩
  | some p =>
    obtain ⟨s₁, m, found⟩ := program_of_runnable held (runnable.programs name p held).2
    refine .inr ?_
    cases given : Memory.ofJson argument with
    | error e =>
      simp only [execute, found, Manifest.initialStore, given] at refused
      cases refused
      exact ⟨⟨e, rfl⟩, rfl⟩
    | ok args =>
      have fit : m.initialStore argument = .ok (m.store.merge args) := by
        rw [Manifest.initialStore, given]
      obtain ⟨s₂, e, executed, -⟩ := execute_of_program found held fit accepts
      rw [executed] at refused
      cases refused

/-- After every history of a service over a registry that was empty at first: each program has a
name below some parent, with a valid identifier that is its own, and a source that is read as a
program under any name. The parsed form of a program that is there is always served. An execution,
if the database takes its record, is refused only because there is no such program or because the
argument is malformed. -/
theorem programs_stay_runnable (r : Registry) (budget : Int) (clock : Instant) (s : Service)
    (initial : r.Initial) (reached : (Service.new r budget clock).Reaches s) :
    (∀ name p, s.registry.programs.get? name = some p → p.name = name ∧
      (∃ parent id, name = Resource.program parent id ∧ Resource.checkProgramId id = .ok () ∧
        id = p.id) ∧
      ∀ given, ∃ m, Manifest.ofText given p.source = .ok m) ∧
    (∀ name, (s.registry.programs.get? name).isSome → ∃ m, (s.program name).2 = .ok m) ∧
    ∀ name argument why,
      s.registry.Accepts (Resource.execution name (executionId (s.issued + 1))) →
      (s.execute name argument).2 = .error why →
        s.registry.programs.get? name = none ∧ why = Registry.programNotFound name ∨
        (∃ e, Memory.ofJson argument = .error e) ∧ why.refusal? = some .invalidArgument := by
  have runnable : s.registry.Runnable := runnable_of_reaches initial.runnable reached
  refine ⟨fun name p held => ?_, fun name there => ?_, fun name argument why accepts refused => ?_⟩
  · obtain ⟨named, ⟨parent, isName, valid⟩, -, m, form⟩ := runnable.programs name p held
    refine ⟨named, ⟨parent, p.id, named.symm.trans isName, valid, rfl⟩, fun given => ?_⟩
    obtain ⟨m', read, -⟩ := form given
    exact ⟨m', read⟩
  · obtain ⟨p, held⟩ := Option.isSome_iff_exists.1 there
    obtain ⟨s', m, found⟩ := program_of_runnable held (runnable.programs name p held).2
    rw [found]
    exact ⟨m, rfl⟩
  · exact execute_refused runnable accepts refused

/-- A program that was deployed at the moment one. -/
def sampleSkip : Deployment :=
  ⟨Resource.program "l" "p", ∅, .active, Registry.revisionText 1, ⟨1⟩, ⟨1⟩, "skip", none⟩

theorem decode?_sampleSkip : Deployment.decode? sampleSkip.encode = some sampleSkip := by
  rw [Deployment.decode?_encode_eq (Deployment.toJson_eq _)]
  decide +kernel

theorem deploy_sampleSkip : ((Service.new .fresh 0 ⟨0⟩).deploy "l" "p" "skip" ∅ none).1.registry =
    Registry.changed .fresh (.program sampleSkip.name sampleSkip) := by
  have valid : Resource.checkProgramId "p" = .ok () :=
    Resource.checkProgramId_ofString (by decide) (by decide)
  have id : (Text.ofString "p").lossy = "p" := Text.lossy_ofString "p"
  simp only [deploy, valid, Manifest.ofText_skip, id]
  rfl

theorem reaches_sampleSkip :
    Registry.Reaches .fresh (Registry.changed .fresh (.program sampleSkip.name sampleSkip)) :=
  .single (.operation (.createProgram "l" "p" "skip" ∅ none) ⟨1⟩ (by decide) trivial)

theorem legible_sampleSkip :
    (Registry.changed .fresh (.program sampleSkip.name sampleSkip)).Legible := by
  refine ⟨fun name p held => ?_, fun name e recorded => (Table.get?_empty_ne recorded).elim⟩
  rw [Registry.changed, Registry.withProgram, Table.get?_set] at held
  split at held
  · cases held
    exact ⟨_, decode?_sampleSkip, .refl _⟩
  · exact (Table.get?_empty_ne held).elim

/-- A program is deployed, and the database is opened by another service. That one has no parsed
form of the program, and yet serves one and starts an execution. -/
theorem programs_stay_runnable_reopened :
    ∃ s : Service, (Service.new .fresh 0 ⟨0⟩).Reaches s ∧ s.parsed.get? sampleSkip.name = none ∧
      (∃ m, (s.program sampleSkip.name).2 = .ok m) ∧
      ∃ e, (s.execute sampleSkip.name ∅).2 = .ok e := by
  let r := Registry.changed .fresh (.program sampleSkip.name sampleSkip)
  have mirrored : r.Mirrored := Registry.initial_fresh.mirrored.reaches reaches_sampleSkip
  obtain ⟨db, had⟩ : ∃ db, r.database? = some db := ⟨_, rfl⟩
  have opened := Registry.openFrom_close mirrored had legible_sampleSkip ⟨2⟩
  let s := Service.new (r.reopened ⟨2⟩ db) 0 ⟨3⟩
  have reached : (Service.new .fresh 0 ⟨0⟩).Reaches s := by
    have strict : Yaml.Strict "skip" := by
      refine Yaml.strict_of_unmarked ?_
      rintro ⟨rest, mark | mark⟩ <;> cases mark
    have deployed := Step.deploy (s := .new .fresh 0 ⟨0⟩) "l" "p" "skip" ∅ none strict
    refine .tail (.single deployed) (.reopen ⟨2⟩ ?_ opened 0 ⟨3⟩)
    rw [deploy_sampleSkip]
    exact had
  have held : (s.registry.programs.get? sampleSkip.name).isSome := by
    have before : r.programs.get? sampleSkip.name = some sampleSkip := Table.get?_set_self ..
    have after : s.registry.programs.get? sampleSkip.name =
        (r.programs.get? sampleSkip.name).map Registry.reread := Registry.get?_programs_reopened
    rw [after, before]
    rfl
  have key : Database.keyError? (Resource.execution sampleSkip.name (executionId 1)) = none := by
    decide +kernel
  have accepts : s.registry.Accepts (Resource.execution sampleSkip.name (executionId 1)) := by
    intro db' has
    cases has
    exact ⟨rfl, key⟩
  have noArgument : Memory.ofJson ∅ = .ok ∅ := by
    rw [Memory.ofJson, Text.chars_of_isEmpty rfl]
    rfl
  obtain ⟨-, served, refusals⟩ :=
    programs_stay_runnable .fresh 0 ⟨0⟩ s Registry.initial_fresh reached
  refine ⟨s, reached, rfl, served _ held, ?_⟩
  cases answer : (s.execute sampleSkip.name ∅).2 with
  | ok e => exact ⟨e, rfl⟩
  | error why =>
    rcases refusals _ _ _ accepts answer with ⟨missing, -⟩ | ⟨⟨e, bad⟩, -⟩
    · rw [missing] at held
      cases held
    · cases noArgument.symm.trans bad

end Service

end ImpHost
