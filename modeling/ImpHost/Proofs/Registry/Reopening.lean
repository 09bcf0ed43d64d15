import ImpHost.Proofs.Json.Numbers
import ImpHost.Proofs.Registry.Rereading

/-!
Executions after their records were written and read.

The name of an execution comes back from its record, whatever the other fields are read as
(`Execution.name_of_decode?_encode`). So a database with the records of some executions is opened as
a registry of executions with just these names (`Registry.isSome_executions_of_openFrom`), and the
database of that registry has records of the same names (`Registry.executions_of_openFrom`).
-/

namespace ImpHost

namespace Execution

open Json

variable {e e' : Execution} {key : String}

/-! ## The record of an execution -/

/-- The fields of a record after the name. -/
def laterFields (e : Execution) : List (String × Json) :=
  [("state", .string e.state.name)]
    ++ Json.unlessEmpty "argument" e.argument
    ++ Json.unlessEmpty "result" e.result
    ++ (match e.failure? with
      | some f => [("error", f.toJson)]
      | none => [])
    ++ [("startTime", .string e.started.exactStamp), ("endTime", .string e.ended.exactStamp),
      ("workflowRevisionId", .string e.revision), ("steps", .int e.steps)]

theorem toJson_eq (e : Execution) :
    e.toJson = .object (("name", .string e.name) :: e.laterFields) := by
  rw [toJson, laterFields]
  cases e.failure? <;> rfl

theorem mem_unlessEmpty {s : String} {field : String × Json}
    (member : field ∈ Json.unlessEmpty key s) : field = (key, .string s) := by
  unfold Json.unlessEmpty at member
  split at member
  · cases member
  · exact List.mem_singleton.1 member

theorem readAs_failure (f : ExecutionFailure) (depth : Nat) :
    ReadAs (depth + 1) f.toJson f.toJson := by
  have each (field : String × Json)
      (member :
        field ∈ [("payload", Json.string f.payload)] ++ Json.unlessEmpty "context" f.context) :
      ReadInObject depth field.2 field.2 := by
    rcases List.mem_append.1 member with payload | context
    · cases List.mem_singleton.1 payload
      exact (readAs_string _).inObject
    · cases mem_unlessEmpty context
      exact (readAs_string _).inObject
  have whole := ReadAs.object (f := fun v => v) each
  rw [List.map_id'] at whole
  exact whole

/-- The keys of the fields after the name. -/
def laterKeys : List String :=
  ["state", "argument", "result", "error", "startTime", "endTime", "workflowRevisionId", "steps"]

theorem laterFields_spec {field : String × Json} (member : field ∈ e.laterFields) :
    field.1 ∈ laterKeys ∧ ReadInObject 9999 field.2 field.2 := by
  simp only [laterFields, List.mem_append, List.mem_cons, List.not_mem_nil, or_false] at member
  rcases member with (((rfl | argument) | result) | failure) | rfl | rfl | rfl | rfl
  · exact ⟨by simp [laterKeys], (readAs_string _).inObject⟩
  · cases mem_unlessEmpty argument
    exact ⟨by simp [laterKeys], (readAs_string _).inObject⟩
  · cases mem_unlessEmpty result
    exact ⟨by simp [laterKeys], (readAs_string _).inObject⟩
  · split at failure
    · cases List.mem_singleton.1 failure
      exact ⟨by simp [laterKeys], (readAs_failure _ 9998).inObject⟩
    · cases failure
  · exact ⟨by simp [laterKeys], (readAs_string _).inObject⟩
  · exact ⟨by simp [laterKeys], (readAs_string _).inObject⟩
  · exact ⟨by simp [laterKeys], (readAs_string _).inObject⟩
  · exact ⟨by simp [laterKeys], readInObject_int 9999 _⟩

/-- A record is read field by field. -/
theorem decode?_encode_eq (e : Execution) : decode? e.encode =
    e.laterFields.foldlM (fun e f => e.applyField f.1 f.2) { blank with name := e.name } := by
  have each (field : String × Json)
      (member : field ∈ ("name", Json.string e.name) :: e.laterFields) :
      ReadInObject 9999 field.2 field.2 := by
    rcases List.mem_cons.1 member with rfl | later
    · exact (readAs_string _).inObject
    · exact (laterFields_spec later).2
  have whole := parse?_of_readAs (ReadAs.object (f := fun v => v) each)
  have named : applyField blank "name" (.string e.name) = some { blank with name := e.name } := rfl
  rw [decode?_encode, toJson_eq, whole, Option.bind_some, Json.record, List.map_cons,
    List.foldlM_cons, named]
  simp

/-! ## The name -/

/-- A field leaves the name as it is unless it is the name. -/
theorem applyField_name {v : Json} (applied : e.applyField key v = some e')
    (other : Json.names "name" key = false) : e'.name = e.name := by
  have of_map {α : Type} {o : Option α} {set : α → Execution} (applied : o.map set = some e') :
      ∃ a, e' = set a := by
    obtain ⟨a, -, rfl⟩ := Option.map_eq_some_iff.1 applied
    exact ⟨a, rfl⟩
  unfold applyField at applied
  rw [other, if_neg Bool.false_ne_true] at applied
  split_ifs at applied
  · obtain ⟨_, rfl⟩ := of_map applied
    rfl
  · obtain ⟨_, rfl⟩ := of_map applied
    rfl
  · obtain ⟨_, rfl⟩ := of_map applied
    rfl
  · obtain ⟨_, rfl⟩ := of_map applied
    rfl
  · obtain ⟨_, rfl⟩ := of_map applied
    rfl
  · obtain ⟨_, rfl⟩ := of_map applied
    rfl
  · obtain ⟨_, rfl⟩ := of_map applied
    rfl
  · obtain ⟨_, rfl⟩ := of_map applied
    rfl
  · cases applied
    rfl

theorem foldlM_applyField_name {fields : List (String × Json)}
    (others : ∀ f ∈ fields, Json.names "name" f.1 = false)
    (read : fields.foldlM (fun e f => e.applyField f.1 f.2) e = some e') : e'.name = e.name := by
  induction fields generalizing e with
  | nil =>
    cases read
    rfl
  | cons f fields ih =>
    rw [List.foldlM_cons] at read
    obtain ⟨e₁, applied, read⟩ := Option.bind_eq_some_iff.1 read
    have first := applyField_name applied (others f List.mem_cons_self)
    exact (ih (fun f member => others f (List.mem_cons_of_mem _ member)) read).trans first

/-- The name of an execution comes back from its record. -/
theorem name_of_decode?_encode (read : decode? e.encode = some e') : e'.name = e.name := by
  have others : ∀ key ∈ laterKeys, Json.names "name" key = false := by decide +kernel
  have later (f : String × Json) (member : f ∈ e.laterFields) : Json.names "name" f.1 = false :=
    others f.1 (laterFields_spec member).1
  rw [decode?_encode_eq] at read
  have same := foldlM_applyField_name later read
  exact same

end Execution

/-! ## Opening a database of records -/

namespace Registry

variable {r : Registry} {now : Instant} {db db' : Database} {name : String}

/-- Each record of an execution is kept under the name that it carries. -/
def NamesRecords (db : Database) : Prop :=
  ∀ name text, db.executions.get? name = some text →
    ∃ e : Execution, e.name = name ∧ text = e.encode

/-- Records that are written over others keep the names. -/
theorem foldlM_putExecution_names {es : List Execution} {text : Execution → Text}
    (known : ∀ e ∈ es, (db.executions.get? e.name).isSome)
    (written : es.foldlM (fun db e =>
      (db.putExecution e.name (text e)).mapError fun why => Problem.plain why.text) db = .ok db') :
    (∀ name, (db'.executions.get? name).isSome = (db.executions.get? name).isSome) ∧
      ∀ name record, db'.executions.get? name = some record →
        db.executions.get? name = some record ∨ ∃ e ∈ es, e.name = name ∧ record = text e := by
  induction es generalizing db with
  | nil =>
    cases written
    exact ⟨fun _ => rfl, fun _ _ => .inl⟩
  | cons e es ih =>
    rw [List.foldlM_cons] at written
    obtain ⟨db₁, put, written⟩ := bind_eq_ok.1 written
    have isDb : db₁.executions = db.executions.set e.name (text e) := by
      unfold Database.putExecution at put
      split at put
      · cases put
      · cases put
        rfl
    have sameNames (name : String) :
        (db₁.executions.get? name).isSome = (db.executions.get? name).isSome := by
      rw [isDb, Table.get?_set]
      split
      · next same =>
        rw [same, known e List.mem_cons_self]
        rfl
      · rfl
    obtain ⟨names, records⟩ := ih
      (fun f member => by rw [sameNames]; exact known f (List.mem_cons_of_mem _ member)) written
    refine ⟨fun name => (names name).trans (sameNames name), fun name record bound => ?_⟩
    rcases records name record bound with before | ⟨f, member, later⟩
    · rw [isDb, Table.get?_set] at before
      split at before
      · next same =>
        cases before
        exact .inr ⟨e, List.mem_cons_self, same.symm, rfl⟩
      · exact .inl before
    · exact .inr ⟨f, List.mem_cons_of_mem _ member, later⟩

/-- The executions of a registry that was opened have the names of the records in its database, and
each is kept under its own. The database has records of these names again. -/
theorem executions_of_openFrom (opened : openFrom now db = .ok r) (names : NamesRecords db) :
    (∀ name e, r.executions.get? name = some e → e.name = name) ∧
    (∀ name, (r.executions.get? name).isSome = (db.executions.get? name).isSome) ∧
    ∃ db', r.database? = some db' ∧ NamesRecords db' ∧
      ∀ name, (db'.executions.get? name).isSome = (db.executions.get? name).isSome := by
  unfold openFrom at opened
  obtain ⟨ps, -, opened⟩ := bind_eq_ok.1 opened
  obtain ⟨es, read, opened⟩ := bind_eq_ok.1 opened
  obtain ⟨db', written, opened⟩ := bind_eq_ok.1 opened
  cases opened
  have read : decodeAll "execution" Execution.decode? db.executions = .ok es := read
  have bound {e : Execution} (member : e ∈ es) : (db.executions.get? e.name).isSome := by
    obtain ⟨key, text, isText, decoded⟩ := of_decodeAll read member
    obtain ⟨e', rfl, rfl⟩ := names key text isText
    rw [Execution.name_of_decode?_encode decoded, isText]
    rfl
  have listed {name : String} (bound : (db.executions.get? name).isSome) :
      ∃ e ∈ es, e.name = name := by
    obtain ⟨text, isText⟩ := Option.isSome_iff_exists.1 bound
    obtain ⟨e, member, decoded⟩ := exists_of_decodeAll read isText
    obtain ⟨e', rfl, rfl⟩ := names name text isText
    exact ⟨e, member, Execution.name_of_decode?_encode decoded⟩
  have active (e : Execution) (member : e ∈ es.filter fun e => e.state = .active) :
      (db.reopen.executions.get? e.name).isSome := bound (List.mem_filter.1 member).1
  obtain ⟨sameNames, records⟩ := foldlM_putExecution_names active written
  refine ⟨fun name e found => ?_, fun name => ?_, db', rfl, fun name record found => ?_, sameNames⟩
  · obtain ⟨e', -, same⟩ := List.mem_map.1 (Table.mem_of_get?_ofList found)
    cases same
    rfl
  · have keys : ((es.map fun e => e.settle now interrupted).map fun e => (e.name, e)).map Prod.fst =
        es.map Execution.name := by
      simp only [List.map_map]
      exact List.map_congr_left fun e _ => name_afterRestart e
    rw [Bool.eq_iff_iff, Table.isSome_get?_ofList, keys, List.mem_map]
    constructor
    · rintro ⟨e, member, rfl⟩
      exact bound member
    · exact listed
  · rcases records name record found with before | ⟨e, -, isName, isText⟩
    · exact names name record before
    · exact ⟨_, (name_afterRestart e).trans isName, isText⟩

end Registry

end ImpHost
