import ImpHost.Proofs.Table
import ImpHost.Registry.Basic

/-!
The operations of a registry, as one family.

An operation that succeeds changes one record, in the database first and then in memory. What it
writes is a `Change`, and `Operation.run_cases` says all that an operation can do: it is refused and
nothing happens, it is an update that the database refuses, or it makes the change that is due.
Proofs about histories of a registry look at the changes and never inside the operations.
-/

namespace ImpHost

namespace Registry

variable {r r' : Registry} {name : String}

/-! ## Writing through -/

/-- The database, if there is one, takes writes under the key. -/
def Accepts (r : Registry) (key : String) : Prop :=
  ∀ db, r.database? = some db → db.fault? = none ∧ Database.keyError? key = none

/-- The registry with the record of a program, in memory and in the database. -/
def withProgram (r : Registry) (name : String) (p : Deployment) : Registry :=
  { r with
    programs := r.programs.set name p
    database? := r.database?.map fun db => { db with programs := db.programs.set name p.encode } }

/-- The registry without the record of a program. -/
def withoutProgram (r : Registry) (name : String) : Registry :=
  { r with
    programs := r.programs.erase name
    database? := r.database?.map fun db => { db with programs := db.programs.erase name } }

/-- The registry with the record of an execution, in memory and in the database. -/
def withExecution (r : Registry) (name : String) (e : Execution) : Registry :=
  { r with
    executions := r.executions.set name e
    database? := r.database?.map fun db =>
      { db with executions := db.executions.set name e.encode } }

theorem of_putProgram {p : Deployment} (put : r.putProgram name p = .ok r') :
    r' = r.withProgram name p := by
  unfold putProgram at put
  split at put
  · next absent =>
    cases put
    rw [withProgram, absent]
    rfl
  · next db had =>
    unfold Database.putProgram at put
    split at put
    · next written =>
      cases put
      split at written
      · cases written
      · cases written
        rw [withProgram, had]
        rfl
    · cases put

theorem of_eraseProgram (erased : r.eraseProgram name = .ok r') : r' = r.withoutProgram name := by
  unfold eraseProgram at erased
  split at erased
  · next absent =>
    cases erased
    rw [withoutProgram, absent]
    rfl
  · next db had =>
    unfold Database.eraseProgram at erased
    split at erased
    · next written =>
      cases erased
      split at written
      · cases written
      · cases written
        rw [withoutProgram, had]
        rfl
    · cases erased

theorem of_putExecution {e : Execution} (put : r.putExecution name e = .ok r') :
    r' = r.withExecution name e ∧ r.Accepts name := by
  unfold putExecution at put
  split at put
  · next absent =>
    cases put
    refine ⟨?_, fun db had => by cases absent.symm.trans had⟩
    rw [withExecution, absent]
    rfl
  · next db had =>
    unfold Database.putExecution at put
    split at put
    · next written =>
      cases put
      split at written
      · cases written
      · next accepted =>
        cases written
        refine ⟨?_, fun db' had' => ?_⟩
        · rw [withExecution, had]
          rfl
        · cases had.symm.trans had'
          exact Option.or_eq_none_iff.1 accepted
    · cases put

theorem putProgram_of_accepts {p : Deployment} (accepts : r.Accepts name) :
    r.putProgram name p = .ok (r.withProgram name p) := by
  cases had : r.database? with
  | none =>
    simp only [putProgram, withProgram, had]
    rfl
  | some db =>
    obtain ⟨healthy, key⟩ := accepts db had
    simp only [putProgram, withProgram, had, Database.putProgram, healthy, key,
      Option.or_none, Option.map_some]

theorem putExecution_of_accepts {e : Execution} (accepts : r.Accepts name) :
    r.putExecution name e = .ok (r.withExecution name e) := by
  cases had : r.database? with
  | none =>
    simp only [putExecution, withExecution, had]
    rfl
  | some db =>
    obtain ⟨healthy, key⟩ := accepts db had
    simp only [putExecution, withExecution, had, Database.putExecution, healthy, key,
      Option.or_none, Option.map_some]

theorem finish_of_accepts {e : Execution} (recorded : r.executions.get? name = some e)
    (accepts : r.Accepts name) (now : Instant) (steps : Int) (end_ : Execution → Execution) :
    r.finish now name steps end_ =
      (r.withExecution name (({ e with steps }).settle now end_), .ok ()) := by
  simp only [finish, recorded, putExecution_of_accepts accepts]

/-- The same fault and the same keys refuse a write. -/
theorem Accepts.congr {r' : Registry} (accepts : r.Accepts name)
    (faults : r'.database?.map Database.fault? = r.database?.map Database.fault?) :
    r'.Accepts name := by
  intro db' had'
  rw [had', Option.map_some] at faults
  obtain ⟨db, had, same⟩ := Option.map_eq_some_iff.1 faults.symm
  obtain ⟨healthy, key⟩ := accepts db had
  exact ⟨same.symm.trans healthy, key⟩

theorem Accepts.withExecution (accepts : r.Accepts name) (key : String) (e : Execution) :
    (r.withExecution key e).Accepts name := by
  refine accepts.congr ?_
  rw [Registry.withExecution, Option.map_map]
  rfl

theorem Accepts.withProgram (accepts : r.Accepts name) (key : String) (p : Deployment) :
    (r.withProgram key p).Accepts name := by
  refine accepts.congr ?_
  rw [Registry.withProgram, Option.map_map]
  rfl

end Registry

/-! ## Operations and their changes -/

/-- An operation of a registry, with its arguments. -/
inductive Operation where
  | createProgram (parent id : String) (source description : Text) (labels : Option Labels)
  | updateProgram (name : String) (source description : Text) (labels : Option Labels)
  | deleteProgram (name : String)
  | createExecution (id program : String) (argument? : Option Memory)
  | completeExecution (name : String) (result : Memory) (steps : Int)
  | failExecution (name : String) (why : Problem) (left? : Option Memory) (steps : Int)
  | cancelExecution (name : String)

/-- What an operation writes when it is not refused. -/
inductive Change where
  | program (name : String) (p : Deployment)
  | removal (name : String)
  | execution (name : String) (e : Execution)

namespace Registry

/-- What is left of an outcome when nobody asks for what was answered: the registry after it and
why it was refused, if it was. -/
def Outcome.verdict {α : Type} (out : Outcome α) : Registry × Option Problem :=
  match out with
  | (r, .ok _) => (r, none)
  | (r, .error why) => (r, some why)

/-- The registry after a change. Each record of a program has a revision number of its own. -/
def changed (r : Registry) : Change → Registry
  | .program name p => { r.withProgram name p with revisions := r.revisions + 1 }
  | .removal name => r.withoutProgram name
  | .execution name e => r.withExecution name e

end Registry

namespace Operation

open Registry

/-- Takes an operation at the moment `now`. -/
def run (r : Registry) (now : Instant) : Operation → Registry × Option Problem
  | .createProgram parent id source description labels =>
    Outcome.verdict (r.createProgram now parent id source description labels)
  | .updateProgram name source description labels =>
    Outcome.verdict (r.updateProgram now name source description labels)
  | .deleteProgram name => Outcome.verdict (r.deleteProgram name)
  | .createExecution id program argument? =>
    Outcome.verdict (r.createExecution now id program argument?)
  | .completeExecution name result steps =>
    Outcome.verdict (r.completeExecution now name result steps)
  | .failExecution name why left? steps =>
    Outcome.verdict (r.failExecution now name why left? steps)
  | .cancelExecution name => Outcome.verdict (r.cancelExecution now name)

/-- The change that is due when an operation is not refused. -/
inductive Due (r : Registry) (now : Instant) : Operation → Change → Prop
  | createProgram {parent id : String} {source description : Text} {labels : Option Labels}
      (new : r.programs.get? (Resource.program parent id) = none) :
    Due r now (.createProgram parent id source description labels)
      (.program (Resource.program parent id)
        { name := Resource.program parent id, description, state := .active
          revision := revisionText (r.revisions + 1), created := now, updated := now, source
          labels })
  | updateProgram {name : String} {source description : Text} {labels : Option Labels}
      {p : Deployment} (old : r.programs.get? name = some p) :
    Due r now (.updateProgram name source description labels)
      (.program name (revised p now (r.revisions + 1) source description labels))
  | deleteProgram {name : String} {p : Deployment} (old : r.programs.get? name = some p) :
    Due r now (.deleteProgram name) (.removal name)
  | createExecution {id program : String} {argument? : Option Memory} {p : Deployment}
      (deployed : r.programs.get? program = some p) :
    Due r now (.createExecution id program argument?)
      (.execution (Resource.execution program id)
        { name := Resource.execution program id, state := .active
          argument := (argument?.map fun m => m.toJson.render).getD "", result := ""
          failure? := none, started := now, ended := .unset, revision := p.revision, steps := 0 })
  | completeExecution {name : String} {result : Memory} {steps : Int} {e : Execution}
      (old : r.executions.get? name = some e) :
    Due r now (.completeExecution name result steps)
      (.execution name (({ e with steps }).settle now fun e =>
        { e with state := .succeeded, result := result.toJson.render }))
  | failExecution {name : String} {why : Problem} {left? : Option Memory} {steps : Int}
      {e : Execution} (old : r.executions.get? name = some e) :
    Due r now (.failExecution name why left? steps)
      (.execution name (({ e with steps }).settle now fun e =>
        { e with
          state := .failed
          failure? := some ⟨payload why, (left?.map fun m : Memory => m.toJson.render).getD ""⟩ }))
  | cancelExecution {name : String} {e : Execution} (old : r.executions.get? name = some e)
      (active : e.state = .active) :
    Due r now (.cancelExecution name)
      (.execution name { e with state := .cancelled, ended := now })

/-- The operation updates a program that exists. -/
def Revises (r : Registry) : Operation → Prop
  | .updateProgram name _ _ _ => (r.programs.get? name).isSome
  | _ => False

instance (r : Registry) (op : Operation) : Decidable (op.Revises r) :=
  match op with
  | .updateProgram name _ _ _ => inferInstanceAs (Decidable ((r.programs.get? name).isSome = true))
  | .createProgram .. | .deleteProgram .. | .createExecution .. | .completeExecution ..
  | .failExecution .. | .cancelExecution .. => inferInstanceAs (Decidable False)

/-- How an operation can go. -/
inductive Course (r : Registry) (now : Instant) (op : Operation) :
    Registry × Option Problem → Prop
  | refused (why : Problem) (unrevised : ¬ op.Revises r) : Course r now op (r, some why)
  /-- The database refuses an update after its number was taken. -/
  | unwritten (why : Problem) (revises : op.Revises r) :
    Course r now op ({ r with revisions := r.revisions + 1 }, some why)
  | made {change : Change} (due : op.Due r now change)
      (accepted : ∀ name e, change = .execution name e → r.Accepts name) :
    Course r now op (r.changed change, none)

variable {r : Registry} {now : Instant} {name : String}

/-- The end of an execution is written, or nothing happens. -/
theorem course_of_finish {op : Operation} {steps : Int} {end_ : Execution → Execution}
    (unrevised : ¬ op.Revises r)
    (due : ∀ e, r.executions.get? name = some e →
      op.Due r now (.execution name (({ e with steps }).settle now end_))) :
    op.Course r now (Outcome.verdict (r.finish now name steps end_)) := by
  unfold finish
  split
  · exact .refused _ unrevised
  · next e old =>
    split
    · next put =>
      obtain ⟨rfl, accepts⟩ := of_putExecution put
      refine .made (due e old) fun name' e' eq => ?_
      cases eq
      exact accepts
    · exact .refused _ unrevised

/-- All that an operation can do. -/
theorem run_cases (r : Registry) (now : Instant) (op : Operation) :
    op.Course r now (op.run r now) := by
  cases op with
  | createProgram parent id source description labels =>
    rw [run, Registry.createProgram]
    split
    · exact .refused _ not_false
    · next new =>
      dsimp only
      split
      · next put =>
        cases of_putProgram put
        exact .made (.createProgram (Option.not_isSome_iff_eq_none.1 new))
          fun _ _ other => by cases other
      · exact .refused _ not_false
  | updateProgram name source description labels =>
    rw [run, Registry.updateProgram]
    split
    · next absent =>
      refine .refused _ fun revises => ?_
      rw [Revises, absent] at revises
      cases revises
    · next p old =>
      dsimp only
      split
      · next put =>
        cases of_putProgram put
        exact .made (.updateProgram old) fun _ _ other => by cases other
      · exact .unwritten _ (by rw [Revises, old]; rfl)
  | deleteProgram name =>
    rw [run, Registry.deleteProgram]
    split
    · exact .refused _ not_false
    · next found =>
      obtain ⟨p, old⟩ := Option.ne_none_iff_exists'.1 (mt Option.isNone_iff_eq_none.2 found)
      split
      · next erased =>
        cases of_eraseProgram erased
        exact .made (.deleteProgram old) fun _ _ other => by cases other
      · exact .refused _ not_false
  | createExecution id program argument? =>
    rw [run, Registry.createExecution]
    split
    · exact .refused _ not_false
    · next p deployed =>
      dsimp only
      split
      · next put =>
        obtain ⟨rfl, accepts⟩ := of_putExecution put
        refine .made (.createExecution deployed) fun name e eq => ?_
        cases eq
        exact accepts
      · exact .refused _ not_false
  | completeExecution name result steps =>
    exact course_of_finish not_false fun e old => .completeExecution old
  | failExecution name why left? steps =>
    exact course_of_finish not_false fun e old => .failExecution old
  | cancelExecution name =>
    rw [run, Registry.cancelExecution]
    split
    · exact .refused _ not_false
    · next e old =>
      split
      · next active =>
        split
        · next put =>
          obtain ⟨rfl, accepts⟩ := of_putExecution put
          refine .made (.cancelExecution old active) fun name' e' eq => ?_
          cases eq
          exact accepts
        · exact .refused _ not_false
      · exact .refused _ not_false

end Operation

end ImpHost
