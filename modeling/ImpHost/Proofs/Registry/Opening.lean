import ImpHost.Proofs.Table
import ImpHost.Proofs.Text
import ImpHost.Registry.Open

/-!
Opening a registry from the database of another one.

`Registry.Mirrored` says that a database has the text of every record of a registry and nothing
else. The order of names leaves no choice in what order such a database is read, so opening it gives
one registry only: `Registry.reopened`, which has the same records, with the active executions ended
(`Registry.openFrom_close`). It is mirrored again by its own database
(`Registry.Mirrored.reopened`), and opening that one gives the registry back as it is
(`Registry.openFrom_reopened`).

That a record is read as it was written is asked of the records at hand (`Registry.Legible`).
-/

namespace ImpHost

/-! ## Programs with the same labels -/

namespace Deployment

/-- The label under a key. -/
def label? (p : Deployment) (key : String) : Option String :=
  p.labels.bind (·.get? key)

/-- The programs are the same, but that the labels may be kept in another order, and no labels as
an empty map or as none. -/
def Alike (p q : Deployment) : Prop :=
  { p with labels := q.labels } = q ∧ ∀ key, p.label? key = q.label? key

theorem Alike.refl (p : Deployment) : p.Alike p :=
  ⟨rfl, fun _ => rfl⟩

variable {p q : Deployment}

theorem Alike.name_eq (alike : p.Alike q) : p.name = q.name := by
  rw [← alike.1]

/-- The field of a record that has the labels, if there are any. -/
def labelsField (labels : Option Labels) : List (String × Json) :=
  let l := labels.getD ∅
  if l.entries.isEmpty then [] else [("labels", .object (Labels.fields l))]

theorem toJson_eq (p : Deployment) :
    p.toJson = .object ([("name", .string p.name)]
      ++ (if p.description.isEmpty then [] else [("description", .bytes p.description)])
      ++ [("state", .string p.state.name), ("revisionId", .string p.revision),
        ("createTime", .string p.created.exactStamp), ("updateTime", .string p.updated.exactStamp),
        ("sourceContents", .bytes p.source)]
      ++ labelsField p.labels) := by
  rw [toJson]
  cases p.labels <;> rfl

theorem labelsField_congr {l l' : Option Labels}
    (same : ∀ key, l.bind (·.get? key) = l'.bind (·.get? key)) :
    labelsField l = labelsField l' := by
  have getD (l : Option Labels) (key : String) :
      (l.getD ∅).get? key = l.bind (·.get? key) := by
    cases l <;> rfl
  have answers (key : String) : (l.getD ∅).get? key = (l'.getD ∅).get? key := by
    rw [getD, getD, same]
  have empty : (l.getD ∅).entries.isEmpty = (l'.getD ∅).entries.isEmpty :=
    (Table.perm_of_get?_eq answers).isEmpty_eq
  have fields : Labels.fields (l.getD ∅) = Labels.fields (l'.getD ∅) :=
    congrArg (List.map _) (Table.sorted_congr answers)
  rw [labelsField, labelsField, empty, fields]

/-- What is read of a record is what is read of its characters. -/
theorem decode?_encode (p : Deployment) :
    decode? p.encode = (Json.parse? (p.toJson.write [])).bind (Json.record applyField blank) := by
  rw [decode?, encode, Text.chars_ofString, Json.render, String.toList_ofList]

/-- Programs that are alike are written alike. -/
theorem Alike.encode_eq (alike : p.Alike q) : p.encode = q.encode := by
  have labels : labelsField p.labels = labelsField q.labels := labelsField_congr alike.2
  have same : p.toJson = q.toJson := by
    rw [← alike.1, toJson_eq, toJson_eq, labels]
  exact congrArg (fun j : Json => Text.ofString j.render) same

end Deployment

theorem Execution.decode?_encode (e : Execution) :
    decode? e.encode = (Json.parse? (e.toJson.write [])).bind (Json.record applyField blank) := by
  rw [decode?, encode, Text.chars_ofString, Json.render, String.toList_ofList]

/-! ## Databases that have the records of a registry -/

/-- The database has the text of each record of the registry under its name, and nothing else. The
names of executions are keys that it has taken. -/
structure Database.Mirrors (db : Database) (r : Registry) : Prop where
  programs : ∀ name, db.programs.get? name = (r.programs.get? name).map Deployment.encode
  executions : ∀ name, db.executions.get? name = (r.executions.get? name).map Execution.encode
  keys : ∀ name e, r.executions.get? name = some e → Database.keyError? name = none

namespace Registry

/-- Each record is kept under the name that it carries, in memory and in the database, if there is
one. -/
structure Mirrored (r : Registry) : Prop where
  programs : ∀ name p, r.programs.get? name = some p → p.name = name
  executions : ∀ name e, r.executions.get? name = some e → e.name = name
  database : ∀ db, r.database? = some db → db.Mirrors r

/-- Each record is read as it was written. -/
structure Legible (r : Registry) : Prop where
  programs : ∀ name p, r.programs.get? name = some p →
    ∃ p', Deployment.decode? p.encode = some p' ∧ p'.Alike p
  executions : ∀ name e, r.executions.get? name = some e → Execution.decode? e.encode = some e

/-! ## Reading records -/

section

variable {α : Type} {decode? : Text → Option α}

theorem mapM_decode {sort : String} {encode : α → Text} {l : List (String × α)}
    (legible : ∀ p ∈ l, decode? (encode p.2) = some p.2) :
    ((l.map fun p => (p.1, encode p.2)).mapM fun (key, text) =>
      match decode? text with
      | some record => Except.ok record
      | none =>
        .error (Problem.plain ("decoding " ++ sort ++ " " ++ key ++ ": malformed record"))) =
      .ok (l.map Prod.snd) := by
  induction l with
  | nil => rfl
  | cons p rest ih =>
    have first := legible p List.mem_cons_self
    have others := ih fun q member => legible q (List.mem_cons_of_mem _ member)
    rw [List.map_cons, List.mapM_cons, others]
    simp only [first]
    rfl

/-- Texts are read in the order of their keys. -/
theorem decodeAll_eq {sort : String} {t : Table Text} {u : Table α} (encode : α → Text)
    (inOrder : u.InKeyOrder) (texts : ∀ x, t.get? x = (u.get? x).map encode)
    (legible : ∀ x a, u.get? x = some a → decode? (encode a) = some a) :
    decodeAll sort decode? t = .ok u.values := by
  have byKey_eq : byKey t = u.entries.map fun p => (p.1, encode p.2) := by
    have same (x : String) : t.get? x = (u.map encode).get? x := by
      rw [texts, Table.get?_map]
    calc byKey t = (u.map encode).sorted := Table.sorted_congr same
      _ = (u.map encode).entries := Table.sorted_of_inKeyOrder (inOrder.map encode)
  rw [decodeAll, byKey_eq]
  exact mapM_decode fun p member => legible p.1 p.2 (u.get?_eq_some_iff.2 member)

end

/-- A table of records that are kept under the names that they carry. -/
theorem ofList_values {α : Type} {name : α → String} {t : Table α}
    (named : ∀ x a, t.get? x = some a → name a = x) :
    Table.ofList (t.values.map fun a => (name a, a)) = t := by
  have entries : t.values.map (fun a => (name a, a)) = t.entries := by
    rw [Table.values, List.map_map]
    refine (List.map_congr_left fun p member => ?_).trans (List.map_id t.entries)
    exact Prod.ext (named p.1 p.2 (t.get?_eq_some_iff.2 member)) rfl
  rw [entries, Table.ofList_entries]

/-! ## The registry that is opened -/

/-- A record of an execution after the database was closed and opened again. -/
def afterRestart (now : Instant) (e : Execution) : Execution :=
  e.settle now interrupted

/-- A record of a program after it was written and read. -/
def reread (p : Deployment) : Deployment :=
  (Deployment.decode? p.encode).getD .blank

variable {now : Instant}

theorem afterRestart_of_active {e : Execution} (active : e.state = .active) :
    afterRestart now e = { interrupted e with ended := now } :=
  if_pos active

theorem afterRestart_of_not_active {e : Execution} (isOver : e.state ≠ .active) :
    afterRestart now e = e :=
  if_neg isOver

theorem name_afterRestart (e : Execution) : (afterRestart now e).name = e.name := by
  unfold afterRestart Execution.settle
  split <;> rfl

theorem state_afterRestart (e : Execution) : (afterRestart now e).state ≠ .active := by
  by_cases active : e.state = .active
  · rw [afterRestart_of_active active]
    nofun
  · rwa [afterRestart_of_not_active active]

/-- The texts of the active executions of `es` after a restart. -/
def endings (now : Instant) (es : Table Execution) : List (String × Text) :=
  (es.values.filter fun e => e.state = .active).map fun e =>
    (e.name, (afterRestart now e).encode)

/-- The registry that is opened from records in key order. -/
def restarted (now : Instant) (db : Database) (ps : Table Deployment) (es : Table Execution) :
    Registry :=
  { programs := ps
    executions := es.map (afterRestart now)
    revisions := lastRevision ps.values
    database? := some { db.reopen with executions := db.executions.setAll (endings now es) } }

theorem foldlM_putExecution (db : Database) {es : List Execution} (noFault : db.fault? = none)
    (keys : ∀ e ∈ es, Database.keyError? e.name = none) (text : Execution → Text) :
    es.foldlM (fun db e =>
        (db.putExecution e.name (text e)).mapError fun why => Problem.plain why.text) db =
      .ok { db with executions := db.executions.setAll (es.map fun e => (e.name, text e)) } := by
  induction es generalizing db with
  | nil => rfl
  | cons e rest ih =>
    have accepted : db.fault?.or (Database.keyError? e.name) = none := by
      rw [noFault, keys e List.mem_cons_self]
      rfl
    have put : db.putExecution e.name (text e) =
        .ok { db with executions := db.executions.set e.name (text e) } := by
      rw [Database.putExecution, accepted]
    rw [List.foldlM_cons, put]
    exact ih _ noFault fun e' member => keys e' (List.mem_cons_of_mem _ member)

/-- The records of a database make up the registry that is opened from it. -/
theorem openFrom_eq (db : Database) {ps : Table Deployment} {es : Table Execution}
    (programs : decodeAll "program" Deployment.decode? db.programs = .ok ps.values)
    (executions : decodeAll "execution" Execution.decode? db.executions = .ok es.values)
    (programNames : ∀ x p, ps.get? x = some p → p.name = x)
    (executionNames : ∀ x e, es.get? x = some e → e.name = x)
    (keys : ∀ x e, es.get? x = some e → Database.keyError? x = none) :
    openFrom now db = .ok (restarted now db ps es) := by
  have accepted (e : Execution) (member : e ∈ es.values.filter fun e => e.state = .active) :
      Database.keyError? e.name = none := by
    obtain ⟨⟨x, e'⟩, bound, rfl⟩ := List.mem_map.1 (List.mem_filter.1 member).1
    have recorded := es.get?_eq_some_iff.2 bound
    rw [executionNames x e' recorded]
    exact keys x e' recorded
  have settled : (es.values.map (afterRestart now)) = (es.map (afterRestart now)).values := by
    simp only [Table.values, Table.map, List.map_map]
    rfl
  have settledNames (x : String) (e : Execution) (recorded : (es.map (afterRestart now)).get? x =
      some e) : e.name = x := by
    rw [Table.get?_map] at recorded
    obtain ⟨e', old, rfl⟩ := Option.map_eq_some_iff.1 recorded
    rw [name_afterRestart]
    exact executionNames x e' old
  have put := foldlM_putExecution db.reopen rfl accepted fun e => (afterRestart now e).encode
  have programs' : decodeAll "program" Deployment.decode? db.reopen.programs = .ok ps.values :=
    programs
  have executions' : decodeAll "execution" Execution.decode? db.reopen.executions = .ok es.values :=
    executions
  have asExecutions : Table.ofList ((es.values.map (afterRestart now)).map fun e => (e.name, e)) =
      es.map (afterRestart now) := by
    rw [settled]
    exact ofList_values settledNames
  unfold openFrom
  dsimp only
  rw [programs', executions']
  simp only [bind, Except.bind]
  unfold afterRestart at put asExecutions
  rw [put, ofList_values programNames, asExecutions]
  rfl

/-- The registry that is opened from the database `db` of the registry `r`. -/
def reopened (now : Instant) (db : Database) (r : Registry) : Registry :=
  restarted now db (r.programs.inOrder.map reread) r.executions.inOrder

variable {r : Registry} {db : Database} {name : String}

theorem Legible.of_reread (legible : r.Legible) {p : Deployment}
    (read : (r.programs.inOrder.map reread).get? name = some p) :
    ∃ old, r.programs.get? name = some old ∧ p.Alike old ∧
      Deployment.decode? p.encode = some p := by
  rw [Table.get?_map, Table.get?_inOrder] at read
  obtain ⟨old, recorded, rfl⟩ := Option.map_eq_some_iff.1 read
  obtain ⟨p, decoded, alike⟩ := legible.programs name old recorded
  have eq : reread old = p := by rw [reread, decoded]; rfl
  rw [eq, alike.encode_eq]
  exact ⟨old, recorded, alike, decoded⟩

theorem get?_programs_reopened : (r.reopened now db).programs.get? name =
    (r.programs.get? name).map reread := by
  rw [reopened, restarted, Table.get?_map, Table.get?_inOrder]

theorem get?_executions_reopened : (r.reopened now db).executions.get? name =
    (r.executions.get? name).map (afterRestart now) := by
  rw [reopened, restarted, Table.get?_map, Table.get?_inOrder]

/-- Only the records that a restart has changed can be illegible after it. -/
theorem Legible.reopened (legible : r.Legible)
    (ended : ∀ name e, r.executions.get? name = some e → e.state = .active →
      Execution.decode? (afterRestart now e).encode = some (afterRestart now e)) :
    (r.reopened now db).Legible := by
  refine ⟨fun name p read => ?_, fun name e recorded => ?_⟩
  · obtain ⟨_, _, _, decoded⟩ := legible.of_reread read
    exact ⟨p, decoded, .refl p⟩
  · rw [get?_executions_reopened] at recorded
    obtain ⟨old, before, rfl⟩ := Option.map_eq_some_iff.1 recorded
    by_cases active : old.state = .active
    · exact ended name old before active
    · rw [afterRestart_of_not_active active]
      exact legible.executions name old before

/-- The programs that are read have the texts of the programs that were written. -/
theorem Legible.encode_reread (legible : r.Legible) (name : String) :
    (r.programs.get? name).map Deployment.encode =
      ((r.programs.inOrder.map reread).get? name).map Deployment.encode := by
  cases read : (r.programs.inOrder.map reread).get? name with
  | none =>
    rw [Table.get?_map, Table.get?_inOrder, Option.map_eq_none_iff] at read
    rw [read]
  | some p =>
    obtain ⟨old, recorded, alike, _⟩ := legible.of_reread read
    rw [recorded]
    exact congrArg some alike.encode_eq.symm

/-- Opening the database of a registry succeeds. -/
theorem openFrom_close (mirrored : r.Mirrored) (had : r.database? = some db) (legible : r.Legible)
    (now : Instant) : openFrom now db.close = .ok (r.reopened now db) := by
  have mirrors := mirrored.database db had
  refine openFrom_eq db.close ?_ ?_ ?_ ?_ ?_
  · refine decodeAll_eq Deployment.encode (r.programs.inKeyOrder_inOrder.map _) ?_ ?_
    · exact fun name => (mirrors.programs name).trans (legible.encode_reread name)
    · intro name p read
      obtain ⟨_, _, _, decoded⟩ := legible.of_reread read
      exact decoded
  · refine decodeAll_eq Execution.encode r.executions.inKeyOrder_inOrder ?_ ?_
    · intro name
      rw [Table.get?_inOrder]
      exact mirrors.executions name
    · intro name e recorded
      rw [Table.get?_inOrder] at recorded
      exact legible.executions name e recorded
  · intro name p read
    obtain ⟨old, recorded, alike, _⟩ := legible.of_reread read
    rw [alike.name_eq]
    exact mirrored.programs name old recorded
  · intro name e recorded
    rw [Table.get?_inOrder] at recorded
    exact mirrored.executions name e recorded
  · intro name e recorded
    rw [Table.get?_inOrder] at recorded
    exact mirrors.keys name e recorded

/-! ## The database of the registry that is opened -/

theorem mem_endings {es : Table Execution} (named : ∀ x e, es.get? x = some e → e.name = x)
    {text : Text} : (name, text) ∈ endings now es ↔
      ∃ e, es.get? name = some e ∧ e.state = .active ∧ (afterRestart now e).encode = text := by
  unfold endings
  rw [List.mem_map]
  constructor
  · rintro ⟨e, member, eq⟩
    obtain ⟨rfl, rfl⟩ := Prod.mk.inj eq
    obtain ⟨member, active⟩ := List.mem_filter.1 member
    obtain ⟨⟨x, e⟩, bound, rfl⟩ := List.mem_map.1 member
    have recorded := es.get?_eq_some_iff.2 bound
    rw [named x e recorded]
    exact ⟨e, recorded, of_decide_eq_true active, rfl⟩
  · rintro ⟨e, recorded, active, rfl⟩
    have member : e ∈ es.values := List.mem_map.2 ⟨_, es.get?_eq_some_iff.1 recorded, rfl⟩
    exact ⟨e, List.mem_filter.2 ⟨member, decide_eq_true active⟩, by rw [named name e recorded]⟩

theorem nodup_endings {es : Table Execution} (named : ∀ x e, es.get? x = some e → e.name = x) :
    ((endings now es).map Prod.fst).Nodup := by
  have names : es.values.map Execution.name = es.keys := by
    rw [Table.values, List.map_map]
    exact List.map_congr_left fun p member => named p.1 p.2 (es.get?_eq_some_iff.2 member)
  have sub : ((endings now es).map Prod.fst).Sublist es.keys := by
    rw [endings, List.map_map, ← names]
    exact List.filter_sublist.map _
  exact es.distinct.sublist sub

theorem lookup_endings {es : Table Execution} (named : ∀ x e, es.get? x = some e → e.name = x)
    (x : String) : (endings now es).lookup x = (es.get? x).bind fun e =>
      if e.state = .active then some (afterRestart now e).encode else none := by
  refine Option.ext fun text => ?_
  rw [Table.lookup_eq_some_iff_mem (nodup_endings named), mem_endings named,
    Option.bind_eq_some_iff]
  refine exists_congr fun e => and_congr_right fun _ => ?_
  split
  · next active => rw [Option.some.injEq, and_iff_right active]
  · next isOver => exact iff_of_false (fun ending => isOver ending.1) nofun

/-- After a restart the database has the end of each execution that was active, and the others as
they were. -/
theorem get?_setAll_endings {es : Table Execution} {t : Table Text}
    (named : ∀ x e, es.get? x = some e → e.name = x)
    (texts : ∀ x, t.get? x = (es.get? x).map Execution.encode) (x : String) :
    (t.setAll (endings now es)).get? x =
      ((es.get? x).map (afterRestart now)).map Execution.encode := by
  rw [Table.get?_setAll _ (nodup_endings named), texts, lookup_endings named]
  cases es.get? x with
  | none => rfl
  | some e =>
    rw [Option.bind_some, Option.map_some, Option.map_some, Option.map_some]
    by_cases active : e.state = .active
    · rw [if_pos active]
      rfl
    · rw [if_neg active, afterRestart_of_not_active active]
      rfl

/-- The registry that is opened is mirrored by its database. -/
theorem Mirrored.reopened (mirrored : r.Mirrored) (had : r.database? = some db)
    (legible : r.Legible) (now : Instant) : (r.reopened now db).Mirrored := by
  have mirrors := mirrored.database db had
  have inOrder (name : String) (e : Execution)
      (recorded : r.executions.inOrder.get? name = some e) : e.name = name := by
    rw [Table.get?_inOrder] at recorded
    exact mirrored.executions name e recorded
  refine ⟨?_, ?_, ?_⟩
  · intro name p read
    obtain ⟨old, recorded, alike, _⟩ := legible.of_reread read
    rw [alike.name_eq]
    exact mirrored.programs name old recorded
  · intro name e recorded
    rw [get?_executions_reopened] at recorded
    obtain ⟨old, before, rfl⟩ := Option.map_eq_some_iff.1 recorded
    rw [name_afterRestart]
    exact mirrored.executions name old before
  · intro db' has
    cases has
    refine ⟨?_, ?_, ?_⟩
    · exact fun name => (mirrors.programs name).trans (legible.encode_reread name)
    · intro name
      have texts (x : String) : db.executions.get? x =
          (r.executions.inOrder.get? x).map Execution.encode := by
        rw [Table.get?_inOrder]
        exact mirrors.executions x
      rw [get?_executions_reopened, ← r.executions.get?_inOrder]
      exact get?_setAll_endings inOrder texts name
    · intro name e recorded
      rw [get?_executions_reopened] at recorded
      obtain ⟨old, recorded, _⟩ := Option.map_eq_some_iff.1 recorded
      exact mirrors.keys name old recorded

/-- The registry that was opened is what its database opens as. -/
theorem openFrom_reopened {db' : Database} (mirrored : r.Mirrored) (had : r.database? = some db)
    (legible : r.Legible) (has : (r.reopened now db).database? = some db')
    (stillLegible : (r.reopened now db).Legible) (later : Instant) :
    openFrom later db'.close = .ok (r.reopened now db) := by
  have mirrored' := mirrored.reopened had legible now
  have mirrors := mirrored'.database db' has
  have isOver (name : String) (e : Execution)
      (recorded : (r.reopened now db).executions.get? name = some e) : e.state ≠ .active := by
    rw [get?_executions_reopened] at recorded
    obtain ⟨old, _, rfl⟩ := Option.map_eq_some_iff.1 recorded
    exact state_afterRestart old
  have opened : openFrom later db'.close = .ok
      (restarted later db'.close (r.reopened now db).programs (r.reopened now db).executions) := by
    refine openFrom_eq db'.close ?_ ?_ mirrored'.programs mirrored'.executions mirrors.keys
    · refine decodeAll_eq Deployment.encode (r.programs.inKeyOrder_inOrder.map _)
        mirrors.programs ?_
      intro name p read
      obtain ⟨_, _, _, decoded⟩ := legible.of_reread read
      exact decoded
    · exact decodeAll_eq Execution.encode (r.executions.inKeyOrder_inOrder.map _) mirrors.executions
        stillLegible.executions
  have ended : (r.reopened now db).executions.map (afterRestart later) =
      (r.reopened now db).executions := by
    refine Table.ext ?_
    refine (List.map_congr_left fun p member => ?_).trans (List.map_id _)
    have recorded := (Table.get?_eq_some_iff _).2 member
    exact Prod.ext rfl (afterRestart_of_not_active (isOver p.1 p.2 recorded))
  have quiet : endings later (r.reopened now db).executions = [] := by
    rw [endings, List.map_eq_nil_iff, List.filter_eq_nil_iff]
    intro e member active
    obtain ⟨p, bound, rfl⟩ := List.mem_map.1 member
    exact isOver p.1 p.2 ((Table.get?_eq_some_iff _).2 bound) (of_decide_eq_true active)
  rw [opened, restarted, ended, quiet]
  cases has
  rfl

end Registry

end ImpHost
