import ImpHost.Proofs.Registry.Histories
import ImpHost.Proofs.Registry.Reopening
import ImpHost.Proofs.Resource.Names

/-!
Listings of programs and executions.

What belongs to a program or a place is found by the front of its name. That this finds the right
records is a matter of how names are given: programs are deployed at places under identifiers, and
executions are named by UUIDs. `Registry.Chronicle` has the histories that keep to this, with
restarts and all, and with a log of the executions that were ever recorded; `Registry.Logged` says
what carries the names through them. A listing has each record once because a table has each name
once, and its order is strict because the names are different.

Main statement: `Registry.listings_are_exact`.
-/

namespace ImpHost

/-! ## Selections from a table -/

namespace Table

variable {α : Type} {t : Table α} {keep : String → Bool} {name : α → String}

/-- The values whose names are chosen. -/
def select (t : Table α) (keep : String → Bool) : List α :=
  (t.entries.filter fun e => keep e.1).map Prod.snd

theorem mem_select (named : ∀ x v, t.get? x = some v → name v = x) {v : α} :
    v ∈ t.select keep ↔ t.get? (name v) = some v ∧ keep (name v) = true := by
  constructor
  · intro member
    obtain ⟨⟨x, v⟩, chosen, rfl⟩ := List.mem_map.1 member
    obtain ⟨entry, kept⟩ := List.mem_filter.1 chosen
    have bound : t.get? x = some v := t.get?_eq_some_iff.2 entry
    dsimp only
    rw [named x v bound]
    exact ⟨bound, kept⟩
  · rintro ⟨bound, kept⟩
    exact List.mem_map.2 ⟨_, List.mem_filter.2 ⟨t.get?_eq_some_iff.1 bound, kept⟩, rfl⟩

theorem map_select (named : ∀ x v, t.get? x = some v → name v = x) :
    (t.select keep).map name = t.keys.filter keep := by
  have same (e : String × α) (member : e ∈ t.entries.filter fun e => keep e.1) :
      name e.2 = e.1 :=
    named e.1 e.2 (t.get?_eq_some_iff.2 (List.mem_filter.1 member).1)
  rw [select, List.map_map, keys, List.filter_map]
  exact List.map_congr_left same

/-- Values of different names are in strict order when they are sorted. -/
theorem pairwise_mergeSort_select (named : ∀ x v, t.get? x = some v → name v = x)
    {le : α → α → Bool} {before : α → α → Prop}
    (trans : ∀ a b c, le a b = true → le b c = true → le a c = true)
    (total : ∀ a b, (le a b || le b a) = true)
    (strict : ∀ a b, le a b = true → name a ≠ name b → before a b) :
    ((t.select keep).mergeSort le).Pairwise before := by
  have distinct : (((t.select keep).mergeSort le).map name).Nodup := by
    rw [((List.mergeSort_perm (t.select keep) le).map name).nodup_iff, map_select named]
    exact t.distinct.filter keep
  exact (List.pairwise_mergeSort trans total _).imp₂ strict (List.pairwise_map.1 distinct)

end Table

open Resource (IsSegment isProgramId isUuid place)

/-! ## Names that are given -/

/-- The name of a program at a place. -/
def Resource.NamesProgram (name : String) : Prop :=
  ∃ p l id : String, IsSegment p ∧ IsSegment l ∧ isProgramId id = true ∧
    name = Resource.program (place p l) id

/-- Programs are deployed at places under identifiers, and executions are named by UUIDs. -/
def Operation.WellNamed : Operation → Prop
  | .createProgram parent id _ _ _ => ∃ p l, IsSegment p ∧ IsSegment l ∧
      isProgramId id = true ∧ parent = place p l
  | .createExecution id _ _ => isUuid id = true
  | _ => True

/-- An execution as it was created: its program and its identifier. -/
structure Creation where
  program : String
  id : String
deriving DecidableEq

/-- The name of the execution that was created. -/
def Creation.name (c : Creation) : String :=
  Resource.execution c.program c.id

/-- The execution that an operation creates when it is not refused. -/
def Operation.creation? : Operation → Option Creation
  | .createExecution id program _ => some ⟨program, id⟩
  | _ => none

namespace Registry

/-- A history of a registry that gives names as it should, with a log of the executions that were
ever created. The database may fail, work again, and be closed and opened. -/
inductive Chronicle : Registry → List Creation → Prop
  | start {r : Registry} (initial : r.Initial) : Chronicle r []
  | operation {r : Registry} {log : List Creation} (before : Chronicle r log) (op : Operation)
      (now : Instant) (wellNamed : op.WellNamed) (fresh : op.Fresh r) :
    Chronicle (op.run r now).1
      (if (op.run r now).2 = none then log ++ op.creation?.toList else log)
  | medium {r : Registry} {log : List Creation} {db : Database} (before : Chronicle r log)
      (had : r.database? = some db) (fault? : Option DatabaseError) :
    Chronicle { r with database? := some { db with fault? } } log
  | reopen {r r' : Registry} {log : List Creation} {db : Database} (before : Chronicle r log)
      (now : Instant) (had : r.database? = some db) (opened : openFrom now db.close = .ok r') :
    Chronicle r' log

/-- The records in memory and in the database are of programs at places and of the executions in the
log, each under its own name, and no name was given twice. -/
structure Logged (r : Registry) (log : List Creation) : Prop where
  programs : ∀ name p, r.programs.get? name = some p → p.name = name ∧ Resource.NamesProgram name
  executions : ∀ name e, r.executions.get? name = some e → e.name = name
  recorded : ∀ name, (r.executions.get? name).isSome ↔ name ∈ log.map Creation.name
  database : ∀ db, r.database? = some db →
    (∀ name text, db.programs.get? name = some text →
      ∃ p : Deployment, (p.name = name ∧ Resource.NamesProgram name) ∧ text = p.encode) ∧
    NamesRecords db ∧
    ∀ name, (db.executions.get? name).isSome ↔ name ∈ log.map Creation.name
  distinct : (log.map Creation.name).Nodup
  wellNamed : ∀ c ∈ log, Resource.NamesProgram c.program ∧ isUuid c.id = true

variable {r r' : Registry} {log : List Creation} {now : Instant} {op : Operation} {db : Database}
  {name : String}

theorem Initial.logged (initial : r.Initial) : r.Logged [] := by
  have programs : r.programs = ∅ := by
    rcases initial.eq_empty_or_fresh with rfl | rfl <;> rfl
  have executions : r.executions = ∅ := by
    rcases initial.eq_empty_or_fresh with rfl | rfl <;> rfl
  have database (db : Database) (had : r.database? = some db) : db = .empty := by
    rcases initial.eq_empty_or_fresh with rfl | rfl <;> cases had
    rfl
  have unbound {α : Type} (name : String) :
      ((∅ : Table α).get? name).isSome ↔ name ∈ ([] : List Creation).map Creation.name :=
    iff_of_false Bool.false_ne_true List.not_mem_nil
  refine ⟨fun name p held => ?_, fun name e held => ?_, fun name => ?_, fun db had => ?_,
    List.nodup_nil, fun _ => nofun⟩
  · rw [programs] at held
    exact (Table.get?_empty_ne held).elim
  · rw [executions] at held
    exact (Table.get?_empty_ne held).elim
  · rw [executions]
    exact unbound name
  · cases database db had
    exact ⟨fun _ _ bound => (Table.get?_empty_ne bound).elim,
      fun _ _ bound => (Table.get?_empty_ne bound).elim, unbound⟩

/-- A program is recorded. -/
theorem Logged.program (logged : r.Logged log) {p : Deployment} (named : p.name = name)
    (wellNamed : Resource.NamesProgram name) : (r.changed (.program name p)).Logged log := by
  refine ⟨fun x q held => ?_, logged.executions, logged.recorded, fun db' has => ?_,
    logged.distinct, logged.wellNamed⟩
  · rw [changed, withProgram, Table.get?_set] at held
    split at held
    · next same =>
      cases held
      rw [same]
      exact ⟨named, wellNamed⟩
    · exact logged.programs x q held
  · obtain ⟨db, had, rfl⟩ := Option.map_eq_some_iff.1 has
    obtain ⟨programs, executions⟩ := logged.database db had
    refine ⟨fun x text bound => ?_, executions⟩
    rw [Table.get?_set] at bound
    split at bound
    · next same =>
      cases bound
      rw [same]
      exact ⟨p, ⟨named, wellNamed⟩, rfl⟩
    · exact programs x text bound

/-- A program is removed. -/
theorem Logged.removal (logged : r.Logged log) (name : String) :
    (r.changed (.removal name)).Logged log := by
  refine ⟨fun x q held => ?_, logged.executions, logged.recorded, fun db' has => ?_,
    logged.distinct, logged.wellNamed⟩
  · rw [changed, withoutProgram, Table.get?_erase] at held
    split at held
    · cases held
    · exact logged.programs x q held
  · obtain ⟨db, had, rfl⟩ := Option.map_eq_some_iff.1 has
    obtain ⟨programs, executions⟩ := logged.database db had
    refine ⟨fun x text bound => ?_, executions⟩
    rw [Table.get?_erase] at bound
    split at bound
    · cases bound
    · exact programs x text bound

/-- An execution is recorded, under a name of the log or under a new one. -/
theorem Logged.execution (logged : r.Logged log) {e : Execution} {log' : List Creation}
    (named : e.name = name)
    (names : ∀ x, x ∈ log'.map Creation.name ↔ x = name ∨ x ∈ log.map Creation.name)
    (distinct : (log'.map Creation.name).Nodup)
    (wellNamed : ∀ c ∈ log', Resource.NamesProgram c.program ∧ isUuid c.id = true) :
    (r.changed (.execution name e)).Logged log' := by
  have bound {α : Type} {t : Table α} {v : α}
      (known : ∀ x, (t.get? x).isSome ↔ x ∈ log.map Creation.name) (x : String) :
      ((t.set name v).get? x).isSome ↔ x ∈ log'.map Creation.name := by
    rw [names, Table.get?_set, ← known]
    split
    · next same => exact iff_of_true rfl (.inl same)
    · next other => exact (or_iff_right other).symm
  refine ⟨logged.programs, fun x f held => ?_, bound logged.recorded, fun db' has => ?_, distinct,
    wellNamed⟩
  · rw [changed, withExecution, Table.get?_set] at held
    split at held
    · next same =>
      cases held
      exact named.trans same.symm
    · exact logged.executions x f held
  · obtain ⟨db, had, rfl⟩ := Option.map_eq_some_iff.1 has
    obtain ⟨programs, executions, known⟩ := logged.database db had
    refine ⟨programs, fun x text isText => ?_, bound known⟩
    rw [Table.get?_set] at isText
    split at isText
    · next same =>
      cases isText
      exact ⟨e, named.trans same.symm, rfl⟩
    · exact executions x text isText

/-- The record of an execution is replaced by one of the same name. -/
theorem Logged.replaced (logged : r.Logged log) {e old : Execution} (named : e.name = old.name)
    (recorded : r.executions.get? name = some old) :
    (r.changed (.execution name e)).Logged log := by
  have member : name ∈ log.map Creation.name := (logged.recorded name).1 (by rw [recorded]; rfl)
  refine logged.execution (named.trans (logged.executions name old recorded)) (fun x => ?_)
    logged.distinct logged.wellNamed
  exact ⟨.inr, fun known => known.elim (fun same => same ▸ member) id⟩

/-- An execution is created. -/
theorem Logged.created (logged : r.Logged log) {e : Execution} {c : Creation}
    (named : e.name = c.name) (wellNamed : Resource.NamesProgram c.program ∧ isUuid c.id = true)
    (fresh : r.executions.get? c.name = none) :
    (r.changed (.execution c.name e)).Logged (log ++ [c]) := by
  have new : c.name ∉ log.map Creation.name := by
    rw [← logged.recorded, fresh]
    exact Bool.false_ne_true
  refine logged.execution named (fun x => ?_) ?_ fun d member => ?_
  · rw [List.map_append, List.mem_append, List.map_singleton, List.mem_singleton, or_comm]
  · rw [List.map_append, List.map_singleton, List.nodup_append]
    refine ⟨logged.distinct, List.pairwise_singleton _ _, fun x old y isNew same => new ?_⟩
    rwa [← List.mem_singleton.1 isNew, ← same]
  · rcases List.mem_append.1 member with old | isNew
    · exact logged.wellNamed d old
    · rw [List.mem_singleton.1 isNew]
      exact wellNamed

theorem Logged.due (logged : r.Logged log) {change : Change} (due : op.Due r now change)
    (wellNamed : op.WellNamed) (fresh : op.Fresh r) :
    (r.changed change).Logged (log ++ op.creation?.toList) := by
  have same : log ++ ([] : List Creation) = log := List.append_nil log
  cases due with
  | createProgram =>
    obtain ⟨p, l, project, location, valid, rfl⟩ := wellNamed
    change Logged _ (log ++ [])
    rw [same]
    exact logged.program rfl ⟨p, l, _, project, location, valid, rfl⟩
  | updateProgram old =>
    change Logged _ (log ++ [])
    rw [same]
    exact logged.program (logged.programs _ _ old).1 (logged.programs _ _ old).2
  | deleteProgram =>
    change Logged _ (log ++ [])
    rw [same]
    exact logged.removal _
  | createExecution deployed =>
    exact logged.created (c := ⟨_, _⟩) rfl ⟨(logged.programs _ _ deployed).2, wellNamed⟩ fresh
  | completeExecution old | failExecution old =>
    change Logged _ (log ++ [])
    rw [same]
    refine logged.replaced ?_ old
    unfold Execution.settle
    split <;> rfl
  | @cancelExecution name e old =>
    have kept : ({ e with state := .cancelled, ended := now } : Execution).name = e.name := rfl
    change Logged _ (log ++ [])
    rw [same]
    exact logged.replaced kept old

theorem Logged.operation (logged : r.Logged log) (wellNamed : op.WellNamed) (fresh : op.Fresh r) :
    (op.run r now).1.Logged
      (if (op.run r now).2 = none then log ++ op.creation?.toList else log) := by
  have course := op.run_cases r now
  generalize op.run r now = out at course
  cases course with
  | refused => exact logged
  | unwritten =>
    exact ⟨logged.programs, logged.executions, logged.recorded, logged.database, logged.distinct,
      logged.wellNamed⟩
  | made due _ => exact logged.due due wellNamed fresh

/-- A restart keeps the names of all records. -/
theorem Logged.reopen (logged : r.Logged log) (had : r.database? = some db)
    (opened : openFrom now db.close = .ok r') : r'.Logged log := by
  obtain ⟨programs, records, known⟩ := logged.database db had
  obtain ⟨named, sameNames, db', has, records', sameRecords⟩ :=
    executions_of_openFrom opened records
  obtain ⟨db₁, has₁, samePrograms⟩ := database_of_openFrom opened
  cases has.symm.trans has₁
  refine ⟨fun name p held => ?_, named, fun name => ?_, fun db₂ has₂ => ?_, logged.distinct,
    logged.wellNamed⟩
  · have encoded (key : String) (text : Text) (bound : db.close.programs.get? key = some text) :
        ∃ p : Deployment, Resource.NamesProgram p.name ∧ text = p.encode := by
      obtain ⟨p, ⟨rfl, wellNamed⟩, isText⟩ := programs key text bound
      exact ⟨p, wellNamed, isText⟩
    obtain ⟨isName, q, wellNamed, same, -⟩ := programs_of_openFrom opened encoded held
    rw [← same, isName] at wellNamed
    exact ⟨isName, wellNamed⟩
  · rw [sameNames]
    exact known name
  · cases has.symm.trans has₂
    refine ⟨?_, records', fun name => ?_⟩
    · rw [samePrograms]
      exact programs
    · rw [sameRecords]
      exact known name

theorem Chronicle.logged (chronicle : Chronicle r log) : r.Logged log := by
  induction chronicle with
  | start initial => exact initial.logged
  | operation _ op now wellNamed fresh ih => exact ih.operation wellNamed fresh
  | medium _ had fault? ih =>
    refine ⟨ih.programs, ih.executions, ih.recorded, fun db' has => ?_, ih.distinct, ih.wellNamed⟩
    cases has
    have kept := ih.database _ had
    exact kept
  | reopen _ now had opened ih => exact ih.reopen had opened

/-! ## Orders -/

end Registry

/-- The one execution started after the other, or at the same moment under a name that comes
first. -/
def Execution.Precedes (e f : Execution) : Prop :=
  f.started.nanos < e.started.nanos ∨ e.started.nanos = f.started.nanos ∧ e.name < f.name

theorem Execution.newerFirst_iff (e f : Execution) : e.newerFirst f = true ↔
    f.started.nanos < e.started.nanos ∨ e.started.nanos = f.started.nanos ∧ e.name ≤ f.name := by
  have moment : e.started = f.started ↔ e.started.nanos = f.started.nanos :=
    ⟨congrArg _, fun same => by cases h : e.started; cases h' : f.started; simp_all⟩
  unfold newerFirst
  split
  · next same =>
    rw [Bool.not_eq_true', decide_eq_false_iff_not, String.not_lt, moment.1 same]
    exact ⟨fun le => .inr ⟨rfl, le⟩, fun either => either.elim (fun lt => by omega) And.right⟩
  · next other =>
    rw [decide_eq_true_iff]
    exact ⟨.inl, fun either => either.resolve_right fun same => other (moment.2 same.1)⟩

theorem Execution.newerFirst_trans (e f g : Execution) (first : e.newerFirst f = true)
    (second : f.newerFirst g = true) : e.newerFirst g = true := by
  rw [newerFirst_iff] at first second ⊢
  rcases first with first | ⟨same, first⟩ <;> rcases second with second | ⟨same', second⟩
  · exact .inl (by omega)
  · exact .inl (by omega)
  · exact .inl (by omega)
  · exact .inr ⟨same.trans same', String.le_trans first second⟩

theorem Execution.newerFirst_total (e f : Execution) :
    (e.newerFirst f || f.newerFirst e) = true := by
  rw [Bool.or_eq_true, newerFirst_iff, newerFirst_iff]
  rcases Int.lt_trichotomy e.started.nanos f.started.nanos with earlier | same | later
  · exact .inr (.inl earlier)
  · exact (String.le_total e.name f.name).imp (fun le => .inr ⟨same, le⟩)
      fun le => .inr ⟨same.symm, le⟩
  · exact .inl (.inl later)

theorem Execution.precedes_of_newerFirst (e f : Execution) (first : e.newerFirst f = true)
    (apart : e.name ≠ f.name) : e.Precedes f := by
  rcases (newerFirst_iff e f).1 first with later | ⟨same, le⟩
  · exact .inl later
  · exact .inr ⟨same, String.not_le.1 fun back => apart (String.le_antisymm le back)⟩

namespace Registry

variable {r : Registry} {log : List Creation} {p l id : String}

/-! ## Listings -/

theorem values_eq_select {α : Type} (t : Table α) : t.values = t.select fun _ => true := by
  rw [Table.values, Table.select, List.filter_eq_self.2 fun _ _ => rfl]

/-- What is listed of the executions whose names are chosen. -/
theorem Logged.listed (logged : r.Logged log) (keep : String → Bool) :
    let listed := (r.executions.select keep).mergeSort Execution.newerFirst
    listed.Pairwise Execution.Precedes ∧
      (listed.map Execution.name).Perm ((log.map Creation.name).filter keep) ∧
      ∀ e ∈ listed, r.executions.get? e.name = some e := by
  intro listed
  have perm : listed.Perm (r.executions.select keep) := List.mergeSort_perm _ _
  refine ⟨Table.pairwise_mergeSort_select logged.executions Execution.newerFirst_trans
    Execution.newerFirst_total Execution.precedes_of_newerFirst, ?_, fun e member => ?_⟩
  · refine (perm.map Execution.name).trans ?_
    rw [Table.map_select logged.executions]
    refine List.Perm.filter keep ?_
    refine (List.perm_ext_iff_of_nodup r.executions.distinct logged.distinct).2 fun name => ?_
    rw [← logged.recorded]
    exact (r.executions.isSome_get?_iff name).symm
  · exact ((Table.mem_select logged.executions).1 (perm.mem_iff.1 member)).1

/-- What is named below the executions of a program was created for that program. -/
theorem Logged.isBelow_name_iff (logged : r.Logged log) (project : IsSegment p)
    (location : IsSegment l) (valid : isProgramId id = true) {c : Creation} (member : c ∈ log) :
    Resource.isBelow (Resource.executionsOf (Resource.program (place p l) id)) c.name = true ↔
      c.program = Resource.program (place p l) id := by
  obtain ⟨⟨p', l', id', project', location', valid', isProgram⟩, uuid⟩ := logged.wellNamed c member
  have execution := Resource.isSegment_of_isUuid uuid
  constructor
  · intro below
    rw [Creation.name, isProgram, Resource.isBelow_execution_iff project location
      (Resource.isSegment_of_isProgramId valid) project' location'
      (Resource.isSegment_of_isProgramId valid') execution] at below
    obtain ⟨rfl, rfl, rfl⟩ := below
    exact isProgram
  · intro same
    rw [Creation.name, same]
    exact Resource.isBelow_append execution _

theorem filter_map_of_mem {α β : Type} {l : List α} {f : α → β} {keep : β → Bool}
    {chosen : α → Bool} (each : ∀ a ∈ l, keep (f a) = chosen a) :
    (l.map f).filter keep = (l.filter chosen).map f := by
  rw [List.filter_map]
  exact congrArg (List.map f) (List.filter_congr each)

theorem Logged.filter_names (logged : r.Logged log) (project : IsSegment p)
    (location : IsSegment l) (valid : isProgramId id = true) :
    (log.map Creation.name).filter
        (Resource.isBelow (Resource.executionsOf (Resource.program (place p l) id))) =
      (log.filter fun c => c.program = Resource.program (place p l) id).map Creation.name := by
  have each (c : Creation) (member : c ∈ log) :
      Resource.isBelow (Resource.executionsOf (Resource.program (place p l) id)) c.name =
        decide (c.program = Resource.program (place p l) id) := by
    rw [Bool.eq_iff_iff, decide_eq_true_iff]
    exact logged.isBelow_name_iff project location valid member
  exact filter_map_of_mem each

/-- The programs below a place are the ones that are deployed there, in strict order. -/
theorem Logged.programsBelow (logged : r.Logged log) (project : IsSegment p)
    (location : IsSegment l) :
    (r.programsBelow (place p l)).Pairwise (fun d d' => d.name < d'.name) ∧
      ∀ d, d ∈ r.programsBelow (place p l) ↔ r.programs.get? d.name = some d ∧
        ∃ id : String, isProgramId id = true ∧ d.name = Resource.program (place p l) id := by
  have named (name : String) (d : Deployment) (held : r.programs.get? name = some d) :
      d.name = name := (logged.programs name d held).1
  have strict (d d' : Deployment) (notAfter : (!decide (d'.name < d.name)) = true)
      (apart : d.name ≠ d'.name) : d.name < d'.name := by
    rw [Bool.not_eq_true', decide_eq_false_iff_not, String.not_lt] at notAfter
    exact String.not_le.1 fun back => apart (String.le_antisymm notAfter back)
  refine ⟨Table.pairwise_mergeSort_select named ?_ ?_ strict, fun d => ?_⟩
  · intro a b c first second
    exact Table.notAfter_trans (a.name, a) (b.name, b) (c.name, c) first second
  · intro a b
    exact Table.notAfter_total (a.name, a) (b.name, b)
  have listed : d ∈ r.programsBelow (place p l) ↔ r.programs.get? d.name = some d ∧
      Resource.isBelow (Resource.programsOf (place p l)) d.name = true :=
    (List.mergeSort_perm ..).mem_iff.trans (Table.mem_select named)
  rw [listed]
  refine and_congr_right fun held => ?_
  obtain ⟨-, p', l', id, project', location', valid, isName⟩ := logged.programs d.name d held
  constructor
  · intro below
    rw [isName, Resource.isBelow_program_iff project location project' location'
      (Resource.isSegment_of_isProgramId valid)] at below
    obtain ⟨rfl, rfl⟩ := below
    exact ⟨id, valid, isName⟩
  · rintro ⟨id', valid', same⟩
    rw [same]
    exact Resource.isBelow_append (Resource.isSegment_of_isProgramId valid') _

/-- The programs of a place are listed once each and in strict order of their names, and no others.
The executions of a program are listed once each, all that were ever created for it, whatever has
become of the program since, and no others; the newest first, and those of one moment by their
names. The recent executions are all executions in this order, or the first of them. -/
theorem listings_are_exact (r : Registry) (log : List Creation) (chronicle : Chronicle r log) :
    (∀ p l, IsSegment p → IsSegment l →
      (r.programsBelow (place p l)).Pairwise (fun d d' => d.name < d'.name) ∧
      (∀ d, d ∈ r.programsBelow (place p l) ↔ r.programs.get? d.name = some d ∧
        ∃ id : String, isProgramId id = true ∧ d.name = Resource.program (place p l) id) ∧
      ∀ d ∈ r.programsBelow (place p l), ∀ p' l' id : String, IsSegment p' → IsSegment l' →
        isProgramId id = true → d.name = Resource.program (place p' l') id → p' = p ∧ l' = l) ∧
    (∀ p l id : String, IsSegment p → IsSegment l → isProgramId id = true →
      let listed := r.executionsOf (Resource.program (place p l) id)
      listed.Pairwise Execution.Precedes ∧
      (listed.map Execution.name).Perm
        ((log.filter fun c => c.program = Resource.program (place p l) id).map Creation.name) ∧
      ∀ e ∈ listed, r.executions.get? e.name = some e) ∧
    ((r.recentExecutions 0).Pairwise Execution.Precedes ∧
      ((r.recentExecutions 0).map Execution.name).Perm (log.map Creation.name) ∧
      ∀ e ∈ r.recentExecutions 0, r.executions.get? e.name = some e) ∧
    ∀ k : Int, 0 < k → r.recentExecutions k = (r.recentExecutions 0).take k.toNat := by
  have logged := chronicle.logged
  refine ⟨fun p l project location => ?_, fun p l id project location valid => ?_, ?_,
    fun k positive => if_pos positive⟩
  · obtain ⟨ordered, members⟩ := logged.programsBelow project location
    refine ⟨ordered, members, fun d member p' l' id project' location' valid isName => ?_⟩
    obtain ⟨-, id', valid', isName'⟩ := (members d).1 member
    have below : Resource.isBelow (Resource.programsOf (place p l))
        (Resource.program (place p' l') id) = true := by
      rw [← isName, isName']
      exact Resource.isBelow_append (Resource.isSegment_of_isProgramId valid') _
    obtain ⟨rfl, rfl⟩ := (Resource.isBelow_program_iff project location project' location'
      (Resource.isSegment_of_isProgramId valid)).1 below
    exact ⟨rfl, rfl⟩
  · obtain ⟨ordered, names, recorded⟩ := logged.listed
      (Resource.isBelow (Resource.executionsOf (Resource.program (place p l) id)))
    rw [logged.filter_names project location valid] at names
    exact ⟨ordered, names, recorded⟩
  · have all : r.recentExecutions 0 =
        (r.executions.select fun _ => true).mergeSort Execution.newerFirst :=
      congrArg (List.mergeSort · Execution.newerFirst) (values_eq_select r.executions)
    obtain ⟨ordered, names, recorded⟩ := logged.listed fun _ => true
    rw [List.filter_eq_self.2 fun _ _ => rfl] at names
    rw [all]
    exact ⟨ordered, names, recorded⟩

/-! ## Names with the same front -/

/-- An operation that is not refused goes on with a history. -/
theorem Chronicle.made {r' : Registry} (before : Chronicle r log) (op : Operation) (now : Instant)
    (wellNamed : op.WellNamed) (fresh : op.Fresh r) (made : op.run r now = (r', none)) :
    Chronicle r' (log ++ op.creation?.toList) := by
  have next := Chronicle.operation before op now wellNamed fresh
  rwa [made, if_pos rfl] at next

/-- Two programs of a project called `workflows`. The one's name is the front of the other's. -/
def foo : String := Resource.program (place "workflows" "l") "foo"

def fooBar : String := Resource.program (place "workflows" "l") "foo-bar"

/-- An execution of each. -/
def sampleCreations : List Creation :=
  [⟨fooBar, "00000000-0000-4000-8000-000000000001"⟩, ⟨foo, "00000000-0000-4000-8000-000000000002"⟩]

/-- Both programs are deployed and executed, and then the one is removed. -/
theorem chronicle_samples : ∃ r, Chronicle r sampleCreations ∧
    (r.programs.get? fooBar).map Deployment.name = some fooBar ∧ r.programs.get? foo = none := by
  have project : IsSegment "workflows" := ⟨by decide, by decide⟩
  have location : IsSegment "l" := ⟨by decide, by decide⟩
  have valid {id : String} (small : id.utf8ByteSize ≤ Resource.maxIdLength)
      (isId : Resource.isId id.toList = true) : isProgramId id = true :=
    Resource.checkProgramId_eq_ok_iff.1 (Resource.checkProgramId_ofString small isId)
  have first := (Chronicle.start .inMemory).made
    (.createProgram (place "workflows" "l") "foo" "skip" ∅ none) ⟨1⟩
    ⟨_, _, project, location, valid (by decide) (by decide), rfl⟩ trivial rfl
  have second := first.made (.createProgram (place "workflows" "l") "foo-bar" "skip" ∅ none) ⟨2⟩
    ⟨_, _, project, location, valid (by decide) (by decide), rfl⟩ trivial rfl
  have third := second.made
    (.createExecution "00000000-0000-4000-8000-000000000001" fooBar none) ⟨3⟩
    (by decide +kernel : isUuid _ = true) rfl rfl
  have fourth := third.made (.createExecution "00000000-0000-4000-8000-000000000002" foo none) ⟨4⟩
    (by decide +kernel : isUuid _ = true) rfl rfl
  have fifth := fourth.made (.deleteProgram foo) ⟨5⟩ trivial trivial rfl
  exact ⟨_, fifth, rfl, rfl⟩

/-- The listing of each program has its own execution, also of the one that was removed, and only
the other program is still listed. -/
theorem listings_are_exact_alike : ∃ r, Chronicle r sampleCreations ∧
    (r.executionsOf foo).map Execution.name =
      [foo ++ "/executions/00000000-0000-4000-8000-000000000002"] ∧
    (r.executionsOf fooBar).map Execution.name =
      [fooBar ++ "/executions/00000000-0000-4000-8000-000000000001"] ∧
    ∃ d ∈ r.programsBelow (place "workflows" "l"), d.name = fooBar ∧
      ∀ d' ∈ r.programsBelow (place "workflows" "l"), d'.name ≠ foo := by
  obtain ⟨r, chronicle, deployed, removed⟩ := chronicle_samples
  have project : IsSegment "workflows" := ⟨by decide, by decide⟩
  have location : IsSegment "l" := ⟨by decide, by decide⟩
  have valid {id : String} (small : id.utf8ByteSize ≤ Resource.maxIdLength)
      (isId : Resource.isId id.toList = true) : isProgramId id = true :=
    Resource.checkProgramId_eq_ok_iff.1 (Resource.checkProgramId_ofString small isId)
  obtain ⟨programs, executions, -⟩ := listings_are_exact r sampleCreations chronicle
  obtain ⟨-, members, -⟩ := programs "workflows" "l" project location
  obtain ⟨-, ofFoo, -⟩ := executions "workflows" "l" "foo" project location
    (valid (by decide) (by decide))
  obtain ⟨-, ofFooBar, -⟩ := executions "workflows" "l" "foo-bar" project location
    (valid (by decide) (by decide))
  refine ⟨r, chronicle, List.perm_singleton.1 ofFoo, List.perm_singleton.1 ofFooBar, ?_⟩
  obtain ⟨d, held, isName⟩ := Option.map_eq_some_iff.1 deployed
  refine ⟨d, (members d).2 ⟨isName ▸ held, "foo-bar", valid (by decide) (by decide), isName⟩,
    isName, fun d' member same => ?_⟩
  have held' := ((members d').1 member).1
  rw [same, removed] at held'
  cases held'

end Registry

end ImpHost
