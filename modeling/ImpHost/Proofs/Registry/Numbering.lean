import Mathlib.Logic.Function.Basic
import ImpHost.Proofs.Registry.Histories
import ImpHost.Proofs.Registry.Rereading
import ImpHost.Proofs.Registry.Revisions

/-!
Revision numbers from one restart to the next.

A registry counts its revisions, and after a restart it goes on from the greatest number that it
finds in its database. A number whose program was deleted before can come again then, but no two
programs that are there ever have one number. What carries this through failed writes and restarts
is that the programs in memory and the records in the database are numbered alike, each name by a
number of its own (`Registry.NumberedBy`).

The registry counts without bound, while numbers are read from texts as numbers of 64 bits; so a
restart is taken only while the count has 64 bits.

Main statement: `Registry.revisions_ascend`.
-/

namespace ImpHost.Registry

variable {r r' start : Registry} {db : Database} {now : Instant} {op : Operation} {p : Deployment}
  {name : String} {number : String → Nat}

/-! ## Histories with restarts -/

/-- One event while a registry is open: an operation, refused or not, or the medium of its database
fails, works again or is closed. -/
inductive Event : Registry → Registry → Prop
  | operation {r : Registry} (op : Operation) (now : Instant) : Event r (op.run r now).1
  | medium {r : Registry} {db : Database} (had : r.database? = some db)
      (fault? : Option DatabaseError) : Event r { r with database? := some { db with fault? } }

/-- The registry comes to be the other one without a restart. -/
def Lasts : Registry → Registry → Prop :=
  Relation.ReflTransGen Event

/-- One event or one restart. A restart is taken while the count of revisions has 64 bits. -/
inductive Onward : Registry → Registry → Prop
  | event {r r' : Registry} (event : Event r r') : Onward r r'
  | restart {r r' : Registry} {db : Database} (now : Instant) (had : r.database? = some db)
      (counted : r.revisions < Value.halfRange) (opened : openFrom now db.close = .ok r') :
    Onward r r'

/-- The registry comes to be the other one, over any number of restarts. -/
def Continues : Registry → Registry → Prop :=
  Relation.ReflTransGen Onward

/-- A program is deployed or updated with success: `p` is answered, and the registry is `r'`. -/
inductive Puts (r r' : Registry) (p : Deployment) : Prop
  | created {now : Instant} {parent id : String} {source description : Text}
      {labels : Option Labels}
      (done : r.createProgram now parent id source description labels = (r', .ok p))
  | updated {now : Instant} {name : String} {source description : Text} {labels : Option Labels}
      (done : r.updateProgram now name source description labels = (r', .ok p))

/-! ## Names and their numbers -/

/-- There is a program of that name, in memory or as a record of the database. -/
def Knows (r : Registry) (name : String) : Prop :=
  (r.programs.get? name).isSome ∨
    ∃ db, r.database? = some db ∧ (db.programs.get? name).isSome

/-- Programs and records have the revisions that their names are numbered by. Each of these numbers
was given out, and to one name only. -/
structure NumberedBy (r : Registry) (number : String → Nat) : Prop where
  programs : ∀ name p, r.programs.get? name = some p →
    p.name = name ∧ p.revision = revisionText (number name)
  records : ∀ db, r.database? = some db → ∀ name text, db.programs.get? name = some text →
    ∃ p : Deployment, p.name = name ∧ p.revision = revisionText (number name) ∧ text = p.encode
  given : ∀ name, r.Knows name → 1 ≤ number name ∧ number name ≤ r.revisions
  distinct : ∀ name name', r.Knows name → r.Knows name' → number name = number name' → name = name'

/-- If the names are known already, nothing but the count can have changed. -/
theorem NumberedBy.congr (numbered : r.NumberedBy number) (programs : r'.programs = r.programs)
    (records : ∀ db', r'.database? = some db' → ∃ db, r.database? = some db ∧
      db'.programs = db.programs) (counted : r.revisions ≤ r'.revisions) :
    r'.NumberedBy number := by
  have known (name : String) (knows : r'.Knows name) : r.Knows name := by
    rcases knows with held | ⟨db', has, bound⟩
    · rw [programs] at held
      exact .inl held
    · obtain ⟨db, had, same⟩ := records db' has
      rw [same] at bound
      exact .inr ⟨db, had, bound⟩
  refine ⟨?_, fun db' has => ?_, fun name knows => ?_, fun name name' knows knows' => ?_⟩
  · rw [programs]
    exact numbered.programs
  · obtain ⟨db, had, same⟩ := records db' has
    rw [same]
    exact numbered.records db had
  · obtain ⟨positive, le⟩ := numbered.given name (known name knows)
    exact ⟨positive, Nat.le_trans le counted⟩
  · exact numbered.distinct name name' (known name knows) (known name' knows')

theorem Initial.numberedBy (initial : r.Initial) (number : String → Nat) :
    r.NumberedBy number := by
  have programs : r.programs = ∅ := by
    rcases initial.eq_empty_or_fresh with rfl | rfl <;> rfl
  have records (db : Database) (had : r.database? = some db) : db.programs = ∅ := by
    rcases initial.eq_empty_or_fresh with rfl | rfl <;> cases had
    rfl
  have unknown (name : String) : ¬ r.Knows name := by
    rintro (held | ⟨db, had, bound⟩)
    · rw [programs] at held
      cases held
    · rw [records db had] at bound
      cases bound
  refine ⟨fun name p held => ?_, fun db had name text bound => ?_, fun name knows => ?_,
    fun name _ knows => ?_⟩
  · rw [programs] at held
    exact (Table.get?_empty_ne held).elim
  · rw [records db had] at bound
    exact (Table.get?_empty_ne bound).elim
  · exact (unknown name knows).elim
  · exact (unknown name knows).elim

/-- A program that is recorded gets the next number, which no other name has. -/
theorem NumberedBy.recorded (numbered : r.NumberedBy number) (named : p.name = name)
    (revision : p.revision = revisionText (r.revisions + 1)) :
    (r.changed (.program name p)).NumberedBy
      (Function.update number name (r.revisions + 1)) := by
  have own : Function.update number name (r.revisions + 1) name = r.revisions + 1 :=
    Function.update_self ..
  have kept {x : String} (other : x ≠ name) :
      Function.update number name (r.revisions + 1) x = number x :=
    Function.update_of_ne other ..
  have known {x : String} (knows : (r.changed (.program name p)).Knows x) (other : x ≠ name) :
      r.Knows x := by
    rcases knows with held | ⟨db', has, bound⟩
    · rw [changed, withProgram, Table.get?_set_of_ne _ other] at held
      exact .inl held
    · obtain ⟨db, had, rfl⟩ := Option.map_eq_some_iff.1 has
      rw [Table.get?_set_of_ne _ other] at bound
      exact .inr ⟨db, had, bound⟩
  have older {x : String} (knows : (r.changed (.program name p)).Knows x) (other : x ≠ name) :
      number x < r.revisions + 1 :=
    Nat.lt_succ_of_le (numbered.given x (known knows other)).2
  refine ⟨fun x q held => ?_, fun db' has x text bound => ?_, fun x knows => ?_,
    fun x y knows knows' same => ?_⟩
  · rw [changed, withProgram, Table.get?_set] at held
    split at held
    · next isName =>
      cases held
      rw [isName, own]
      exact ⟨named, revision⟩
    · next other =>
      rw [kept other]
      exact numbered.programs x q held
  · obtain ⟨db, had, rfl⟩ := Option.map_eq_some_iff.1 has
    rw [Table.get?_set] at bound
    split at bound
    · next isName =>
      cases bound
      rw [isName, own]
      exact ⟨p, named, revision, rfl⟩
    · next other =>
      rw [kept other]
      exact numbered.records db had x text bound
  · by_cases isName : x = name
    · rw [isName, own]
      exact ⟨Nat.le_add_left 1 _, Nat.le_refl _⟩
    · obtain ⟨positive, _⟩ := numbered.given x (known knows isName)
      rw [kept isName]
      exact ⟨positive, Nat.le_of_lt (older knows isName)⟩
  · by_cases isName : x = name <;> by_cases isName' : y = name
    · exact isName.trans isName'.symm
    · rw [isName, own, kept isName'] at same
      exact absurd same (Nat.ne_of_gt (older knows' isName'))
    · rw [isName', own, kept isName] at same
      exact absurd same (Nat.ne_of_lt (older knows isName))
    · rw [kept isName, kept isName'] at same
      exact numbered.distinct x y (known knows isName) (known knows' isName') same

theorem NumberedBy.removed (numbered : r.NumberedBy number) (name : String) :
    (r.changed (.removal name)).NumberedBy number := by
  have known {x : String} (knows : (r.changed (.removal name)).Knows x) : r.Knows x := by
    rcases knows with held | ⟨db', has, bound⟩
    · rw [changed, withoutProgram, Table.get?_erase] at held
      split at held
      · cases held
      · exact .inl held
    · obtain ⟨db, had, rfl⟩ := Option.map_eq_some_iff.1 has
      rw [Table.get?_erase] at bound
      split at bound
      · cases bound
      · exact .inr ⟨db, had, bound⟩
  refine ⟨fun x q held => ?_, fun db' has x text bound => ?_, fun x knows => ?_,
    fun x y knows knows' => ?_⟩
  · rw [changed, withoutProgram, Table.get?_erase] at held
    split at held
    · cases held
    · exact numbered.programs x q held
  · obtain ⟨db, had, rfl⟩ := Option.map_eq_some_iff.1 has
    rw [Table.get?_erase] at bound
    split at bound
    · cases bound
    · exact numbered.records db had x text bound
  · exact numbered.given x (known knows)
  · exact numbered.distinct x y (known knows) (known knows')

/-- After every event the names are numbered again. -/
theorem NumberedBy.event (numbered : r.NumberedBy number) (event : Event r r') :
    ∃ number', r'.NumberedBy number' := by
  cases event with
  | operation op now =>
    have course := op.run_cases r now
    generalize op.run r now = out at course
    cases course with
    | refused => exact ⟨number, numbered⟩
    | unwritten =>
      exact ⟨number, numbered.congr rfl (fun db had => ⟨db, had, rfl⟩) (Nat.le_succ _)⟩
    | made due _ =>
      cases due with
      | createProgram => exact ⟨_, numbered.recorded rfl rfl⟩
      | @updateProgram name _ _ _ p old =>
        have named : p.name = name := (numbered.programs name p old).1
        exact ⟨_, numbered.recorded named rfl⟩
      | deleteProgram => exact ⟨number, numbered.removed _⟩
      | createExecution | completeExecution | failExecution | cancelExecution =>
        refine ⟨number, numbered.congr rfl (fun db' has => ?_) (Nat.le_refl _)⟩
        obtain ⟨db, had, rfl⟩ := Option.map_eq_some_iff.1 has
        exact ⟨db, had, rfl⟩
  | medium had fault? =>
    refine ⟨number, numbered.congr rfl (fun db' has => ?_) (Nat.le_refl _)⟩
    cases has
    exact ⟨_, had, rfl⟩

/-- After a restart the names have the numbers that they had, and the count has reached all of
them. -/
theorem NumberedBy.restart (numbered : r.NumberedBy number) (had : r.database? = some db)
    (counted : r.revisions < Value.halfRange) (opened : openFrom now db.close = .ok r') :
    r'.NumberedBy number := by
  have known {x : String} (bound : (db.programs.get? x).isSome) : r.Knows x := .inr ⟨db, had, bound⟩
  have records := numbered.records db had
  obtain ⟨db'', has'', same⟩ := database_of_openFrom opened
  -- What memory has after the restart was read from the database.
  have held {x : String} {q : Deployment} (found : r'.programs.get? x = some q) :
      q.name = x ∧ q.revision = revisionText (number x) ∧ (db.programs.get? x).isSome := by
    have encoded (key : String) (text : Text) (bound : db.close.programs.get? key = some text) :
        ∃ p : Deployment, (p.revision = revisionText (number p.name) ∧
          (db.programs.get? p.name).isSome) ∧ text = p.encode := by
      obtain ⟨p, named, revision, rfl⟩ := records key text bound
      have there : (db.programs.get? key).isSome := Option.isSome_of_mem bound
      rw [← named] at revision there
      exact ⟨p, ⟨revision, there⟩, rfl⟩
    obtain ⟨isName, p, ⟨revision, there⟩, name, sameRevision, -⟩ :=
      programs_of_openFrom opened encoded found
    rw [← name, isName] at revision there
    exact ⟨isName, sameRevision.trans revision, there⟩
  have recorded {x : String} (knows : r'.Knows x) : (db.programs.get? x).isSome := by
    rcases knows with found | ⟨db', has, bound⟩
    · obtain ⟨q, found⟩ := Option.isSome_iff_exists.1 found
      exact (held found).2.2
    · cases has''.symm.trans has
      rwa [same] at bound
  refine ⟨fun x q found => ?_, fun db' has => ?_, fun x knows => ?_, fun x y knows knows' => ?_⟩
  · obtain ⟨isName, revision, -⟩ := held found
    exact ⟨isName, revision⟩
  · cases has''.symm.trans has
    rw [same]
    exact records
  · obtain ⟨text, bound⟩ := Option.isSome_iff_exists.1 (recorded knows)
    obtain ⟨positive, le⟩ := numbered.given x (known (recorded knows))
    obtain ⟨p, named, revision, rfl⟩ := records x text bound
    obtain ⟨ps, read, -, count⟩ := of_openFrom opened
    obtain ⟨q, member, decoded⟩ := exists_of_decodeAll read bound
    have number : revisionNumber? q.revision = some (number x : Int) := by
      rw [(Deployment.of_decode?_encode decoded).2.1, revision]
      exact revisionNumber?_revisionText (Nat.lt_of_le_of_lt le counted)
    rw [count]
    exact ⟨positive, le_lastRevision member number⟩
  · exact numbered.distinct x y (known (recorded knows)) (known (recorded knows'))

theorem NumberedBy.continues (numbered : r.NumberedBy number) (continued : r.Continues r') :
    ∃ number', r'.NumberedBy number' := by
  induction continued with
  | refl => exact ⟨number, numbered⟩
  | tail _ onward ih =>
    obtain ⟨number', numbered'⟩ := ih
    cases onward with
    | event event => exact numbered'.event event
    | restart now had counted opened => exact ⟨number', numbered'.restart had counted opened⟩

/-! ## New numbers -/

/-- A program that is put has the next number. -/
theorem Puts.next (puts : r.Puts r' p) :
    p.revision = revisionText (r.revisions + 1) ∧ r'.revisions = r.revisions + 1 := by
  cases puts with
  | created done =>
    unfold createProgram at done
    dsimp only at done
    split at done
    · cases done
    · split at done
      · next put =>
        cases of_putProgram put
        cases done
        exact ⟨rfl, rfl⟩
      · cases done
  | updated done =>
    unfold updateProgram at done
    split at done
    · cases done
    · dsimp only at done
      split at done
      · next put =>
        cases of_putProgram put
        cases done
        exact ⟨rfl, rfl⟩
      · cases done

theorem Event.revisions_le (event : Event r r') : r.revisions ≤ r'.revisions := by
  cases event with
  | operation op now =>
    have course := op.run_cases r now
    generalize op.run r now = out at course
    cases course with
    | refused => exact Nat.le_refl _
    | unwritten => exact Nat.le_succ _
    | @made change =>
      cases change with
      | program => exact Nat.le_succ _
      | removal | execution => exact Nat.le_refl _
  | medium => exact Nat.le_refl _

theorem updateProgram_of_accepts (held : r.programs.get? name = some p) (accepts : r.Accepts name)
    (now : Instant) (source description : Text) (labels : Option Labels) :
    r.updateProgram now name source description labels =
      (r.changed (.program name (revised p now (r.revisions + 1) source description labels)),
        .ok (revised p now (r.revisions + 1) source description labels)) := by
  have taken : ({ r with revisions := r.revisions + 1 }).Accepts name := accepts
  simp only [updateProgram, held, putProgram_of_accepts taken]
  rfl

/-- The count never goes back without a restart. -/
theorem Lasts.revisions_le (lasts : r.Lasts r') : r.revisions ≤ r'.revisions := by
  induction lasts with
  | refl => exact Nat.le_refl _
  | tail _ event ih => exact Nat.le_trans ih event.revisions_le

/-- After every history of a registry that was empty at first, with refused operations, failed
writes and restarts in it: each program has the text of a number as its revision, from one up to the
count of revisions, and no two programs have the same one. A program that is then deployed or
updated with success has a greater number than every program that is there, and a smaller one than
every program that is deployed or updated later, up to the next restart. -/
theorem revisions_ascend (start r : Registry) (initial : start.Initial)
    (reached : start.Continues r) :
    (∀ name p, r.programs.get? name = some p →
      ∃ n, 1 ≤ n ∧ n ≤ r.revisions ∧ p.revision = revisionText n) ∧
    (∀ name name' p p', r.programs.get? name = some p → r.programs.get? name' = some p' →
      p.revision = p'.revision → name = name') ∧
    ∀ r' p, r.Puts r' p → ∃ n, p.revision = revisionText n ∧
      (∀ name q m, r.programs.get? name = some q → q.revision = revisionText m → m < n) ∧
      ∀ later last q m, r'.Lasts later → later.Puts last q → q.revision = revisionText m →
        n < m := by
  obtain ⟨number, numbered⟩ := (initial.numberedBy fun _ => 0).continues reached
  have known {name : String} {p : Deployment} (held : r.programs.get? name = some p) :
      r.Knows name := .inl (Option.isSome_of_mem held)
  refine ⟨fun name p held => ?_, fun name name' p p' held held' same => ?_, fun r' p puts => ?_⟩
  · obtain ⟨positive, le⟩ := numbered.given name (known held)
    exact ⟨number name, positive, le, (numbered.programs name p held).2⟩
  · rw [(numbered.programs name p held).2, (numbered.programs name' p' held').2] at same
    exact numbered.distinct name name' (known held) (known held') (revisionText_injective same)
  · obtain ⟨revision, counted⟩ := puts.next
    refine ⟨r.revisions + 1, revision, fun name q m held isNumber => ?_,
      fun later last q m lasts putsLater isNumber => ?_⟩
    · have number_eq : number name = m :=
        revisionText_injective ((numbered.programs name q held).2.symm.trans isNumber)
      have le := (numbered.given name (known held)).2
      omega
    · have number_eq : later.revisions + 1 = m :=
        revisionText_injective (putsLater.next.1.symm.trans isNumber)
      have le := lasts.revisions_le
      omega

/-- A program is deployed and executed, the database is opened again, and the program is updated. It
has a greater number then than the one that was read from its record. -/
theorem revisions_ascend_restarted :
    ∃ r r' p q n, fresh.Continues r ∧ r.programs.get? sampleProgram.name = some p ∧
      p.revision = revisionText 1 ∧ r.Puts r' q ∧ q.name = sampleProgram.name ∧
      q.revision = revisionText n ∧ 1 < n := by
  have deployed : Event fresh sampleDeployed :=
    .operation (.createProgram "l" "p" ∅ ∅ (some ∅)) ⟨1⟩
  have executed : Event sampleDeployed sampleActive :=
    .operation (.createExecution "1" sampleProgram.name none) ⟨2⟩
  have mirrored := initial_fresh.mirrored.reaches reaches_sampleActive
  obtain ⟨db, had⟩ : ∃ db, sampleActive.database? = some db := ⟨_, rfl⟩
  have opened := openFrom_close mirrored had legible_sampleActive ⟨3⟩
  let r := sampleActive.reopened ⟨3⟩ db
  have reached : fresh.Continues r :=
    .tail (.tail (.single (.event deployed)) (.event executed))
      (.restart ⟨3⟩ had (by decide) opened)
  let p := { sampleProgram with labels := none }
  have held : r.programs.get? sampleProgram.name = some p := by
    have before : sampleActive.programs.get? sampleProgram.name = some sampleProgram := rfl
    rw [get?_programs_reopened, before, Option.map_some, reread, decode?_sampleProgram]
    rfl
  have accepts : r.Accepts sampleProgram.name := by
    intro db' has
    cases has
    exact ⟨rfl, by decide +kernel⟩
  have updated := Puts.updated (updateProgram_of_accepts held accepts ⟨4⟩ ∅ ∅ none)
  obtain ⟨-, -, numbers⟩ := revisions_ascend fresh r initial_fresh reached
  obtain ⟨n, revision, greater, -⟩ := numbers _ _ updated
  exact ⟨r, _, p, _, n, reached, held, rfl, updated, rfl, revision, greater _ p 1 held rfl⟩

end ImpHost.Registry
