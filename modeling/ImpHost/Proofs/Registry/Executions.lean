import ImpHost.Proofs.Registry.Operations

/-!
What the operations of a registry do to the records of executions. Each operation has one lemma
that says all of it, and proofs about services do not look inside the operations.
-/

namespace ImpHost.Registry

/-- The database, if there is one, has no fault and has taken the name of each execution before, so
that it refuses no later record of an execution. -/
def Healthy (r : Registry) : Prop :=
  ∀ db, r.database? = some db → db.fault? = none ∧
    ∀ name e, r.executions.get? name = some e → Database.keyError? name = none

/-- The records of executions stay as they are. -/
def Keeps (r r' : Registry) : Prop :=
  r'.executions = r.executions ∧ (r.Healthy → r'.Healthy)

/-- The record of one execution is written, and the others stay as they are. -/
def Writes (r : Registry) (name : String) (e : Execution) (r' : Registry) : Prop :=
  r'.executions = r.executions.set name e ∧ (r.Healthy → r'.Healthy)

theorem Keeps.refl (r : Registry) : r.Keeps r :=
  ⟨rfl, id⟩

variable {r r' : Registry} {name : String}

theorem keeps_of_putProgram {p : Deployment} (put : r.putProgram name p = .ok r') :
    r.Keeps r' := by
  cases of_putProgram put
  refine ⟨rfl, fun healthy db' has => ?_⟩
  obtain ⟨db, had, rfl⟩ := Option.map_eq_some_iff.1 has
  exact healthy db had

theorem keeps_of_eraseProgram (erased : r.eraseProgram name = .ok r') : r.Keeps r' := by
  cases of_eraseProgram erased
  refine ⟨rfl, fun healthy db' has => ?_⟩
  obtain ⟨db, had, rfl⟩ := Option.map_eq_some_iff.1 has
  exact healthy db had

theorem writes_of_putExecution {e : Execution} (put : r.putExecution name e = .ok r') :
    r.Writes name e r' := by
  obtain ⟨rfl, accepts⟩ := of_putExecution put
  refine ⟨rfl, fun healthy db' has => ?_⟩
  obtain ⟨db, had, rfl⟩ := Option.map_eq_some_iff.1 has
  obtain ⟨noFault, keys⟩ := healthy db had
  refine ⟨noFault, fun other e' recorded => ?_⟩
  rw [withExecution, Table.get?_set] at recorded
  split at recorded
  · next same =>
    rw [same]
    exact (accepts db had).2
  · exact keys other e' recorded

/-- A healthy registry writes every further record of an execution. -/
theorem Healthy.putExecution {old : Execution} (healthy : r.Healthy)
    (recorded : r.executions.get? name = some old) (e : Execution) :
    ∃ r', r.putExecution name e = .ok r' := by
  unfold Registry.putExecution
  split
  · exact ⟨_, rfl⟩
  · next db eq =>
    obtain ⟨noFault, keys⟩ := healthy db eq
    have accepted : db.fault?.or (Database.keyError? name) = none := by
      rw [noFault, keys name old recorded, Option.none_or]
    rw [Database.putExecution, accepted]
    exact ⟨_, rfl⟩

theorem Healthy.accepts {e : Execution} (healthy : r.Healthy)
    (recorded : r.executions.get? name = some e) : r.Accepts name := by
  intro db had
  obtain ⟨noFault, keys⟩ := healthy db had
  exact ⟨noFault, keys name e recorded⟩

/-! ## Programs -/

section

variable (r : Registry) (now : Instant)

theorem keeps_createProgram (parent id : String) (source description : Text)
    (labels : Option Labels) :
    r.Keeps (r.createProgram now parent id source description labels).1 := by
  unfold createProgram
  dsimp only
  split
  · exact .refl r
  · split
    · next put =>
      obtain ⟨same, healthy⟩ := keeps_of_putProgram put
      exact ⟨same, healthy⟩
    · exact .refl r

theorem keeps_updateProgram (name : String) (source description : Text) (labels : Option Labels) :
    r.Keeps (r.updateProgram now name source description labels).1 := by
  unfold updateProgram
  split
  · exact .refl r
  · dsimp only
    split
    · next put =>
      obtain ⟨same, healthy⟩ := keeps_of_putProgram put
      exact ⟨same, healthy⟩
    · exact ⟨rfl, id⟩

theorem keeps_deleteProgram (name : String) : r.Keeps (r.deleteProgram name).1 := by
  unfold deleteProgram
  split
  · exact .refl r
  · split
    · next erased => exact keeps_of_eraseProgram erased
    · exact .refl r

end

/-! ## Executions -/

section

variable (r : Registry) (now : Instant)

/-- A new execution is active and its record is written, or nothing happens. -/
theorem createExecution_cases (id program : String) (argument? : Option Memory) :
    (∃ why, r.createExecution now id program argument? = (r, .error why)) ∨
      ∃ r' e, r.createExecution now id program argument? = (r', .ok e) ∧
        e.name = Resource.execution program id ∧ e.state = .active ∧ r.Writes e.name e r' := by
  unfold createExecution
  split
  · exact .inl ⟨_, rfl⟩
  · dsimp only
    split
    · next put => exact .inr ⟨_, _, rfl, rfl, rfl, writes_of_putExecution put⟩
    · exact .inl ⟨_, rfl⟩

/-- An active execution is recorded as cancelled, or nothing happens. -/
theorem cancelExecution_cases (name : String) :
    (∃ why, r.cancelExecution now name = (r, .error why)) ∨
      ∃ r' e, r.cancelExecution now name = (r', .ok ()) ∧ r.executions.get? name = some e ∧
        e.state = .active ∧ r.Writes name { e with state := .cancelled, ended := now } r' := by
  unfold cancelExecution
  split
  · exact .inl ⟨_, rfl⟩
  · next e recorded =>
    split
    · next active =>
      split
      · next put => exact .inr ⟨_, e, rfl, recorded, active, writes_of_putExecution put⟩
      · exact .inl ⟨_, rfl⟩
    · exact .inl ⟨_, rfl⟩

variable {r}

theorem Healthy.createExecution (healthy : r.Healthy) (id program : String)
    (argument? : Option Memory) : (r.createExecution now id program argument?).1.Healthy := by
  rcases r.createExecution_cases now id program argument? with
    ⟨why, out⟩ | ⟨r', e, out, _, _, _, kept⟩
  · rw [out]
    exact healthy
  · rw [out]
    exact kept healthy

theorem Healthy.cancelExecution (healthy : r.Healthy) (name : String) :
    (r.cancelExecution now name).1.Healthy := by
  rcases r.cancelExecution_cases now name with ⟨why, out⟩ | ⟨r', e, out, _, _, _, kept⟩
  · rw [out]
    exact healthy
  · rw [out]
    exact kept healthy

theorem Healthy.finish {e : Execution} (healthy : r.Healthy)
    (recorded : r.executions.get? name = some e) (steps : Int) (end_ : Execution → Execution) :
    r.Writes name (({ e with steps }).settle now end_) (r.finish now name steps end_).1 := by
  obtain ⟨r', put⟩ := healthy.putExecution recorded (({ e with steps }).settle now end_)
  rw [Registry.finish, recorded]
  dsimp only
  rw [put]
  exact writes_of_putExecution put

end

end ImpHost.Registry
