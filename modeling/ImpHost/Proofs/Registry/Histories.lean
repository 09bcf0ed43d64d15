import Mathlib.Logic.Relation
import ImpHost.Proofs.Registry.Opening
import ImpHost.Proofs.Registry.Operations

/-!
Histories of a registry.

A registry comes to be empty, in memory or over a new database. From then on operations are taken in
any order, refused or not, the medium of the database fails and works again as it likes, and the
database is closed and opened. `Registry.Reaches` relates a registry to those that some history
leads to.

Main statements: a registry and its database have the same records after every history, and a
restart ends the active executions and changes nothing else (`Registry.records_written_through`). A
refused operation leaves the registry as it was, but that an update which the database refuses keeps
the revision number that it has taken (`Registry.refusal_is_atomic`).
-/

namespace ImpHost

/-- The record that is written carries the name under which it is written. -/
def Change.Named : Change → Prop
  | .program name p => p.name = name
  | .removal _ => True
  | .execution name e => e.name = name

/-- An execution is recorded under a name that no execution has. -/
def Operation.Fresh (r : Registry) : Operation → Prop
  | .createExecution id program _ => r.executions.get? (Resource.execution program id) = none
  | _ => True

namespace Registry

/-- The registry over a database without records. -/
def fresh : Registry :=
  ⟨∅, ∅, 0, some .empty⟩

/-- A registry in which nothing was recorded yet. -/
inductive Initial : Registry → Prop
  | inMemory : Initial .empty
  | persistent {r : Registry} (now : Instant) (opened : openFrom now .empty = .ok r) : Initial r

/-- One event in the history of a registry. -/
inductive Step : Registry → Registry → Prop
  | operation {r : Registry} (op : Operation) (now : Instant) (set : now.isSet)
      (fresh : op.Fresh r) : Step r (op.run r now).1
  /-- The medium fails, works again or is closed. -/
  | medium {r : Registry} {db : Database} (had : r.database? = some db)
      (fault? : Option DatabaseError) : Step r { r with database? := some { db with fault? } }
  | reopen {r r' : Registry} {db : Database} (now : Instant) (set : now.isSet)
      (had : r.database? = some db) (legible : r.Legible)
      (opened : openFrom now db.close = .ok r') : Step r r'

/-- Some history leads from one registry to the other. -/
def Reaches : Registry → Registry → Prop :=
  Relation.ReflTransGen Step

variable {r r' start : Registry} {db : Database} {now : Instant} {op : Operation} {change : Change}
  {name : String}

/-! ## Records and texts -/

theorem openFrom_empty (now : Instant) : openFrom now .empty = .ok fresh := by
  have programs : decodeAll "program" Deployment.decode? ∅ = .ok (∅ : Table Deployment).values :=
    decodeAll_eq Deployment.encode .nil (fun _ => rfl) fun _ _ bound =>
      (Table.get?_empty_ne bound).elim
  have executions : decodeAll "execution" Execution.decode? ∅ = .ok (∅ : Table Execution).values :=
    decodeAll_eq Execution.encode .nil (fun _ => rfl) fun _ _ bound =>
      (Table.get?_empty_ne bound).elim
  refine openFrom_eq .empty programs executions ?_ ?_ ?_
  all_goals exact fun _ _ bound => (Table.get?_empty_ne bound).elim

/-- The records and their texts are all that it depends on. -/
theorem Mirrored.congr (mirrored : r.Mirrored) (programs : r'.programs = r.programs)
    (executions : r'.executions = r.executions)
    (database : ∀ db', r'.database? = some db' → ∃ db, r.database? = some db ∧
      db'.programs = db.programs ∧ db'.executions = db.executions) : r'.Mirrored := by
  refine ⟨?_, ?_, fun db' has => ?_⟩
  · rw [programs]
    exact mirrored.programs
  · rw [executions]
    exact mirrored.executions
  · obtain ⟨db, had, samePrograms, sameExecutions⟩ := database db' has
    obtain ⟨texts, ends, keys⟩ := mirrored.database db had
    refine ⟨?_, ?_, ?_⟩
    · rwa [samePrograms, programs]
    · rwa [sameExecutions, executions]
    · rwa [executions]

theorem mirrored_of_empty (programs : r.programs = ∅) (executions : r.executions = ∅)
    (database : r.database? = none ∨ r.database? = some .empty) : r.Mirrored := by
  refine ⟨?_, ?_, fun db had => ⟨?_, ?_, ?_⟩⟩
  · rw [programs]
    exact fun _ _ bound => (Table.get?_empty_ne bound).elim
  · rw [executions]
    exact fun _ _ bound => (Table.get?_empty_ne bound).elim
  · rcases database with none | empty
    · cases none.symm.trans had
    · cases empty.symm.trans had
      rw [programs]
      exact fun _ => rfl
  · rcases database with none | empty
    · cases none.symm.trans had
    · cases empty.symm.trans had
      rw [executions]
      exact fun _ => rfl
  · rw [executions]
    exact fun _ _ bound => (Table.get?_empty_ne bound).elim

theorem Initial.eq_empty_or_fresh (initial : start.Initial) : start = .empty ∨ start = fresh := by
  cases initial with
  | inMemory => exact .inl rfl
  | persistent now opened =>
    cases (openFrom_empty now).symm.trans opened
    exact .inr rfl

theorem Initial.mirrored (initial : start.Initial) : start.Mirrored := by
  rcases initial.eq_empty_or_fresh with rfl | rfl
  · exact mirrored_of_empty rfl rfl (.inl rfl)
  · exact mirrored_of_empty rfl rfl (.inr rfl)

theorem named_of_due (mirrored : r.Mirrored) (due : op.Due r now change) : change.Named := by
  have settled {name : String} {e : Execution} {steps : Int} {end_ : Execution → Execution}
      (old : r.executions.get? name = some e) (kept : ∀ e, (end_ e).name = e.name) :
      (({ e with steps }).settle now end_).name = name := by
    unfold Execution.settle
    split
    · exact (kept _).trans (mirrored.executions name e old)
    · exact mirrored.executions name e old
  cases due with
  | createProgram | createExecution => exact rfl
  | deleteProgram => exact trivial
  | @updateProgram name _ _ _ p old =>
    have same : p.name = name := mirrored.programs name p old
    exact same
  | completeExecution old | failExecution old => exact settled old fun _ => rfl
  | @cancelExecution name e old _ =>
    have same : e.name = name := mirrored.executions name e old
    exact same

/-- A change that is written through keeps records and texts together. -/
theorem Mirrored.changed (mirrored : r.Mirrored) (named : change.Named)
    (accepted : ∀ name e, change = .execution name e → r.Accepts name) :
    (r.changed change).Mirrored := by
  cases change with
  | program name p =>
    refine ⟨fun x q recorded => ?_, mirrored.executions, fun db' has => ?_⟩
    · rw [Registry.changed, withProgram, Table.get?_set] at recorded
      split at recorded
      · next same =>
        cases recorded
        exact named.trans same.symm
      · exact mirrored.programs x q recorded
    · obtain ⟨db, had, rfl⟩ := Option.map_eq_some_iff.1 has
      obtain ⟨texts, ends, keys⟩ := mirrored.database db had
      refine ⟨fun x => ?_, ends, keys⟩
      rw [Registry.changed, withProgram, Table.get?_set, Table.get?_set, texts]
      split <;> rfl
  | removal name =>
    refine ⟨fun x q recorded => ?_, mirrored.executions, fun db' has => ?_⟩
    · rw [Registry.changed, withoutProgram, Table.get?_erase] at recorded
      split at recorded
      · cases recorded
      · exact mirrored.programs x q recorded
    · obtain ⟨db, had, rfl⟩ := Option.map_eq_some_iff.1 has
      obtain ⟨texts, ends, keys⟩ := mirrored.database db had
      refine ⟨fun x => ?_, ends, keys⟩
      rw [Registry.changed, withoutProgram, Table.get?_erase, Table.get?_erase, texts]
      split <;> rfl
  | execution name e =>
    refine ⟨mirrored.programs, fun x q recorded => ?_, fun db' has => ?_⟩
    · rw [Registry.changed, withExecution, Table.get?_set] at recorded
      split at recorded
      · next same =>
        cases recorded
        exact named.trans same.symm
      · exact mirrored.executions x q recorded
    · obtain ⟨db, had, rfl⟩ := Option.map_eq_some_iff.1 has
      obtain ⟨texts, ends, keys⟩ := mirrored.database db had
      refine ⟨texts, fun x => ?_, fun x q recorded => ?_⟩
      · rw [Registry.changed, withExecution, Table.get?_set, Table.get?_set, ends]
        split <;> rfl
      · rw [Registry.changed, withExecution, Table.get?_set] at recorded
        split at recorded
        · next same =>
          rw [same]
          exact (accepted name e rfl db had).2
        · exact keys x q recorded

theorem Mirrored.step (mirrored : r.Mirrored) (step : Step r r') : r'.Mirrored := by
  cases step with
  | operation op now set fresh =>
    have course := op.run_cases r now
    generalize op.run r now = out at course
    cases course with
    | refused => exact mirrored
    | unwritten => exact mirrored.congr rfl rfl fun db had => ⟨db, had, rfl, rfl⟩
    | made due accepted => exact mirrored.changed (named_of_due mirrored due) accepted
  | medium had fault? =>
    refine mirrored.congr rfl rfl fun db' has => ?_
    cases has
    exact ⟨_, had, rfl, rfl⟩
  | reopen now set had legible opened =>
    cases (openFrom_close mirrored had legible now).symm.trans opened
    exact mirrored.reopened had legible now

theorem Mirrored.reaches (mirrored : r.Mirrored) (reached : r.Reaches r') : r'.Mirrored := by
  induction reached with
  | refl => exact mirrored
  | tail _ step ih => exact ih.step step

/-! ## A history

A program is deployed over a new database and executed. -/

def sampleProgram : Deployment :=
  ⟨Resource.program "l" "p", ∅, .active, revisionText 1, ⟨1⟩, ⟨1⟩, ∅, some ∅⟩

def sampleExecution : Execution :=
  ⟨Resource.execution sampleProgram.name "1", .active, "", "", none, ⟨2⟩, .unset, revisionText 1, 0⟩

/-- The registry after the program was deployed. -/
def sampleDeployed : Registry :=
  { fresh.withProgram sampleProgram.name sampleProgram with revisions := 1 }

/-- The registry while it is executed. -/
def sampleActive : Registry :=
  sampleDeployed.withExecution sampleExecution.name sampleExecution

theorem initial_fresh : fresh.Initial :=
  .persistent ⟨0⟩ (openFrom_empty ⟨0⟩)

theorem reaches_sampleDeployed : fresh.Reaches sampleDeployed :=
  .single (.operation (.createProgram "l" "p" ∅ ∅ (some ∅)) ⟨1⟩ (by decide) trivial)

theorem reaches_sampleActive : fresh.Reaches sampleActive :=
  reaches_sampleDeployed.tail
    (.operation (.createExecution "1" sampleProgram.name none) ⟨2⟩ (by decide) rfl)

theorem decode?_sampleProgram :
    Deployment.decode? sampleProgram.encode = some { sampleProgram with labels := none } := by
  rw [Deployment.decode?_encode]
  decide +kernel

theorem decode?_sampleExecution :
    Execution.decode? sampleExecution.encode = some sampleExecution := by
  rw [Execution.decode?_encode]
  decide +kernel

theorem legible_sampleActive : sampleActive.Legible := by
  refine ⟨fun name p recorded => ?_, fun name e recorded => ?_⟩
  · rw [sampleActive, withExecution, sampleDeployed, withProgram, Table.get?_set] at recorded
    split at recorded
    · cases recorded
      exact ⟨_, decode?_sampleProgram, rfl, fun _ => rfl⟩
    · exact (Table.get?_empty_ne recorded).elim
  · rw [sampleActive, withExecution, Table.get?_set] at recorded
    split at recorded
    · cases recorded
      exact decode?_sampleExecution
    · exact (Table.get?_empty_ne recorded).elim

/-! ## Writing through -/

/-- After every history the database has the text of each program and each execution that the
registry has, and no others. Closing it and opening it again gives the same programs and the same
executions, but that those which were active have failed, because they were cancelled; and doing it
once more changes nothing. -/
theorem records_written_through (start r : Registry) (db : Database) (initial : start.Initial)
    (reached : start.Reaches r) (had : r.database? = some db) :
    (∀ name, db.programs.get? name = (r.programs.get? name).map Deployment.encode) ∧
    (∀ name, db.executions.get? name = (r.executions.get? name).map Execution.encode) ∧
    (r.Legible → ∀ now, ∃ r' db', openFrom now db.close = .ok r' ∧ r'.database? = some db' ∧
      (∀ name, Option.Rel Deployment.Alike (r'.programs.get? name) (r.programs.get? name)) ∧
      (∀ name, r'.executions.get? name = (r.executions.get? name).map fun e =>
        if e.state = .active then
          { e with
            state := .failed
            failure? := some
              ⟨(Diagnostic.cancelled "execution interrupted by server shutdown").payload, ""⟩
            ended := now }
        else e) ∧
      (r'.Legible → ∀ later, openFrom later db'.close = .ok r')) := by
  have mirrored := initial.mirrored.reaches reached
  obtain ⟨programs, executions, _⟩ := mirrored.database db had
  refine ⟨programs, executions, fun legible now => ?_⟩
  refine ⟨r.reopened now db, _, openFrom_close mirrored had legible now, rfl, fun name => ?_,
    fun name => get?_executions_reopened, fun stillLegible later =>
      openFrom_reopened mirrored had legible rfl stillLegible later⟩
  cases read : (r.reopened now db).programs.get? name with
  | none =>
    rw [get?_programs_reopened, Option.map_eq_none_iff] at read
    rw [read]
    exact .none
  | some p =>
    obtain ⟨old, recorded, alike, _⟩ := legible.of_reread read
    rw [recorded]
    exact .some alike

/-- An active execution has failed once the database was opened again, and is as it was when the
database is opened another time. -/
theorem records_written_through_active : ∃ db r' db', sampleActive.database? = some db ∧
    openFrom ⟨3⟩ db.close = .ok r' ∧ r'.database? = some db' ∧
    ((r'.executions.get? sampleExecution.name).map fun e => (e.state, e.ended)) =
      some (.failed, ⟨3⟩) ∧
    openFrom ⟨4⟩ db'.close = .ok r' := by
  obtain ⟨_, _, restart⟩ := records_written_through fresh sampleActive _ initial_fresh
    reaches_sampleActive rfl
  obtain ⟨r', db', opened, has, _, executions, again⟩ := restart legible_sampleActive ⟨3⟩
  have mirrored := initial_fresh.mirrored.reaches reaches_sampleActive
  have legible : r'.Legible := by
    cases (openFrom_close mirrored rfl legible_sampleActive ⟨3⟩).symm.trans opened
    refine legible_sampleActive.reopened fun name e recorded _ => ?_
    rw [sampleActive, withExecution, Table.get?_set] at recorded
    split at recorded
    · cases recorded
      rw [Execution.decode?_encode]
      decide +kernel
    · exact (Table.get?_empty_ne recorded).elim
  refine ⟨_, r', db', rfl, opened, has, ?_, again legible ⟨4⟩⟩
  rw [executions]
  rfl

/-! ## Refusals -/

/-- A refused operation leaves the programs, the executions, the revision number and the database as
they were, except that an update of an existing program has taken its number when the database
refuses it. -/
theorem refusal_is_atomic (r : Registry) (now : Instant) (op : Operation) (why : Problem)
    (refused : (op.run r now).2 = some why) :
    (op.run r now).1 = if op.Revises r then { r with revisions := r.revisions + 1 } else r := by
  have course := op.run_cases r now
  generalize op.run r now = out at course refused
  cases course with
  | refused _ unrevised => exact (if_neg unrevised).symm
  | unwritten _ revises => exact (if_pos revises).symm
  | made => cases refused

/-- The registry after the program was deployed, when its database takes no more writes. -/
def sampleFaulty : Registry :=
  { sampleDeployed with
    database? := sampleDeployed.database?.map fun db => { db with fault? := some .notOpen } }

/-- Deploying another program, removing the program and updating it are all refused, and all but the
last leave nothing behind. -/
theorem refusal_is_atomic_faulty :
    ((Operation.createProgram "l" "q" ∅ ∅ none).run sampleFaulty ⟨3⟩).1 = sampleFaulty ∧
    ((Operation.deleteProgram sampleProgram.name).run sampleFaulty ⟨3⟩).1 = sampleFaulty ∧
    ((Operation.updateProgram sampleProgram.name ∅ ∅ none).run sampleFaulty ⟨3⟩).1 =
      { sampleFaulty with revisions := 2 } :=
  ⟨refusal_is_atomic _ _ _ _ rfl, refusal_is_atomic _ _ _ _ rfl, refusal_is_atomic _ _ _ _ rfl⟩

/-- There is a registry with a history and an update that it refuses, but not without a trace. -/
theorem refused_update_takes_number :
    ∃ (r : Registry) (op : Operation) (now : Instant) (why : Problem), fresh.Initial ∧
      fresh.Reaches r ∧ (op.run r now).2 = some why ∧ (op.run r now).1 ≠ r ∧
      (op.run r now).1.revisions = r.revisions + 1 := by
  have reached : fresh.Reaches sampleFaulty := reaches_sampleDeployed.tail (.medium rfl _)
  refine ⟨sampleFaulty, .updateProgram sampleProgram.name ∅ ∅ none, ⟨3⟩, _, initial_fresh, reached,
    rfl, fun same => ?_, rfl⟩
  have number : 2 = 1 := congrArg Registry.revisions same
  omega

end Registry

end ImpHost
