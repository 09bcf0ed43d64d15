import Mathlib.Tactic.SplitIfs
import ImpHost.Proofs.Json.Reading
import ImpHost.Proofs.Registry.Opening
import ImpHost.Proofs.Registry.Revisions

/-!
Programs after their records were written and read.

The name, the revision and the source of a program come back from its record, the source as UTF-8,
whatever the other fields are read as (`Deployment.of_decode?_encode`). So a database with the
records of some programs is opened as a registry of programs with their names, revisions and sources
(`Registry.programs_of_openFrom`), and the opening leaves these records as they are
(`Registry.database_of_openFrom`).
-/

namespace ImpHost

namespace Deployment

open Json

/-! ## The record of a program -/

/-- What is read of a value in a record. -/
def rereadValue : Json → Json
  | .bytes t => .string t.lossy
  | v => v

theorem readAs_labels (l : Labels) (depth : Nat) :
    ReadAs (depth + 1) (.object (Labels.fields l)) (.object (Labels.fields l)) := by
  have each (field : String × Json) (member : field ∈ Labels.fields l) :
      ReadAs depth field.2 (rereadValue field.2) := by
    obtain ⟨entry, _, rfl⟩ := List.mem_map.1 member
    exact readAs_string entry.2
  have same : (Labels.fields l).map (fun field => (field.1, rereadValue field.2)) =
      Labels.fields l := by
    simp only [Labels.fields, List.map_map]
    rfl
  have whole := ReadAs.object fun field member => (each field member).inObject
  rwa [same] at whole

variable {p q : Deployment} {fields : List (String × Json)}

theorem readAs_field (isRecord : p.toJson = .object fields) {field : String × Json}
    (member : field ∈ fields) : ReadAs 9999 field.2 (rereadValue field.2) := by
  rw [toJson_eq] at isRecord
  cases isRecord
  simp only [List.mem_append, List.mem_cons, List.not_mem_nil, or_false] at member
  rcases member with ((rfl | description) | rfl | rfl | rfl | rfl | rfl) | labels
  · exact readAs_string _
  · split at description
    · cases description
    · cases List.mem_singleton.1 description
      exact readAs_bytes _
  · exact readAs_string _
  · exact readAs_string _
  · exact readAs_string _
  · exact readAs_string _
  · exact readAs_bytes _
  · unfold labelsField at labels
    dsimp only at labels
    split at labels
    · cases labels
    · cases List.mem_singleton.1 labels
      exact readAs_labels _ 9998

/-- A record is read field by field. -/
theorem decode?_encode_eq (isRecord : p.toJson = .object fields) :
    decode? p.encode = fields.foldlM (fun q f => q.applyField f.1 (rereadValue f.2)) blank := by
  have whole := ReadAs.object fun _ member => (readAs_field isRecord member).inObject
  have read := parse?_of_readAs whole
  rw [decode?_encode, isRecord, read]
  exact List.foldlM_map ..

/-! ## What each field is read as -/

/-- The keys of a record, in order. -/
def keys : List String :=
  ["name", "description", "state", "revisionId", "createTime", "updateTime", "sourceContents",
    "labels"]

theorem keys_sublist (isRecord : p.toJson = .object fields) :
    (fields.map Prod.fst).Sublist keys := by
  rw [toJson_eq] at isRecord
  cases isRecord
  have description : ((if p.description.isEmpty then [] else
      [("description", Json.bytes p.description)]).map Prod.fst).Sublist ["description"] := by
    split
    · exact List.nil_sublist _
    · exact List.Sublist.refl _
  have labels : ((labelsField p.labels).map Prod.fst).Sublist ["labels"] := by
    unfold labelsField
    dsimp only
    split
    · exact List.nil_sublist _
    · exact List.Sublist.refl _
  simp only [List.map_append]
  exact (((List.Sublist.refl ["name"]).append description).append
    (List.Sublist.refl _)).append labels

/-- Different keys of a record name different fields. -/
theorem names_of_ne {key other : String} (isKey : key ∈ keys) (isOther : other ∈ keys)
    (apart : other ≠ key) : Json.names key other = false := by
  have all : ∀ key ∈ keys, ∀ other ∈ keys, other ≠ key → Json.names key other = false := by
    decide +kernel
  exact all key isKey other isOther apart

/-- A field changes nothing but what it names. -/
theorem applyField_keeps {key : String} {v : Json} (applied : p.applyField key v = some q) :
    (Json.names "name" key = false → q.name = p.name) ∧
      (Json.names "revisionId" key = false → q.revision = p.revision) ∧
      (Json.names "sourceContents" key = false → q.source = p.source) := by
  have of_map {α : Type} {o : Option α} {set : α → Deployment} (applied : o.map set = some q) :
      ∃ a, q = set a := by
    obtain ⟨a, -, rfl⟩ := Option.map_eq_some_iff.1 applied
    exact ⟨a, rfl⟩
  unfold applyField at applied
  split_ifs at applied with name _ _ revision _ _ source
  · obtain ⟨a, rfl⟩ := of_map applied
    simp [name]
  · obtain ⟨a, rfl⟩ := of_map applied
    simp
  · obtain ⟨a, rfl⟩ := of_map applied
    simp
  · obtain ⟨a, rfl⟩ := of_map applied
    simp [revision]
  · obtain ⟨a, rfl⟩ := of_map applied
    simp
  · obtain ⟨a, rfl⟩ := of_map applied
    simp
  · obtain ⟨a, rfl⟩ := of_map applied
    simp [source]
  · obtain ⟨a, rfl⟩ := of_map applied
    simp
  · cases applied
    simp

section

variable {α : Type} {get : Deployment → α} {key : String} {a : α}

theorem applyFields_keep
    (keeps : ∀ p q other w, applyField p other w = some q → Json.names key other = false →
      get q = get p)
    (others : ∀ f ∈ fields, Json.names key f.1 = false)
    (read : fields.foldlM (fun q f => q.applyField f.1 (rereadValue f.2)) p = some q) :
    get q = get p := by
  induction fields generalizing p with
  | nil =>
    cases read
    rfl
  | cons f fields ih =>
    rw [List.foldlM_cons] at read
    obtain ⟨p', applied, read⟩ := Option.bind_eq_some_iff.1 read
    have first := keeps p p' f.1 _ applied (others f List.mem_cons_self)
    exact (ih (fun f member => others f (List.mem_cons_of_mem _ member)) read).trans first

/-- What a field of a record says is what is read, since no later field speaks of it. -/
theorem eq_of_decode?_encode (v : Json) (isRecord : p.toJson = .object fields)
    (member : (key, v) ∈ fields)
    (sets : ∀ p q, applyField p key (rereadValue v) = some q → get q = a)
    (keeps : ∀ p q other w, applyField p other w = some q → Json.names key other = false →
      get q = get p)
    (read : decode? p.encode = some q) : get q = a := by
  have ordered := keys_sublist isRecord
  rw [decode?_encode_eq isRecord] at read
  obtain ⟨before, after, rfl⟩ := List.append_of_mem member
  rw [List.foldlM_append] at read
  obtain ⟨p₁, -, read⟩ := Option.bind_eq_some_iff.1 read
  rw [List.foldlM_cons] at read
  obtain ⟨p₂, set, read⟩ := Option.bind_eq_some_iff.1 read
  have distinct : keys.Nodup := by decide
  have later : ((key, v) :: after).map Prod.fst |>.Sublist keys := by
    rw [List.map_append] at ordered
    exact (List.sublist_append_right _ _).trans ordered
  have notAfter := (List.nodup_cons.1 (distinct.sublist later)).1
  have others (f : String × Json) (among : f ∈ after) : Json.names key f.1 = false := by
    have isKey : f.1 ∈ after.map Prod.fst := List.mem_map_of_mem among
    refine names_of_ne (later.subset List.mem_cons_self)
      (later.subset (List.mem_cons_of_mem _ isKey)) fun same => notAfter ?_
    rwa [same] at isKey
  exact (applyFields_keep keeps others read).trans (sets p₁ p₂ set)

end

/-- The name, the revision and the source of a program come back from its record. -/
theorem of_decode?_encode (read : decode? p.encode = some q) :
    q.name = p.name ∧ q.revision = p.revision ∧ q.source = Text.ofString p.source.lossy := by
  have isRecord := toJson_eq p
  refine ⟨?_, ?_, ?_⟩
  · have keeps (p q : Deployment) (key : String) (v : Json)
        (applied : p.applyField key v = some q) := (applyField_keeps applied).1
    refine eq_of_decode?_encode (.string p.name) isRecord (by simp) ?_ keeps read
    rintro p₁ p₂ ⟨⟩
    rfl
  · have keeps (p q : Deployment) (key : String) (v : Json)
        (applied : p.applyField key v = some q) := (applyField_keeps applied).2.1
    refine eq_of_decode?_encode (.string p.revision) isRecord (by simp) ?_ keeps read
    rintro p₁ p₂ ⟨⟩
    rfl
  · have keeps (p q : Deployment) (key : String) (v : Json)
        (applied : p.applyField key v = some q) := (applyField_keeps applied).2.2
    refine eq_of_decode?_encode (.bytes p.source) isRecord (by simp) ?_ keeps read
    rintro p₁ p₂ ⟨⟩
    rfl

end Deployment

namespace Registry

/-! ## Opening a database of records -/

section

variable {α : Type} {sort : String} {decode? : Text → Option α}

theorem map_decode_of_mapM {l : List (String × Text)} {as : List α}
    (read : (l.mapM fun (key, text) =>
      match decode? text with
      | some record => Except.ok record
      | none =>
        .error (Problem.plain ("decoding " ++ sort ++ " " ++ key ++ ": malformed record"))) =
      .ok as) : (l.map fun entry => decode? entry.2) = as.map some := by
  induction l generalizing as with
  | nil =>
    cases read
    rfl
  | cons entry l ih =>
    rw [List.mapM_cons] at read
    obtain ⟨a, first, read⟩ := bind_eq_ok.1 read
    obtain ⟨rest, others, read⟩ := bind_eq_ok.1 read
    cases read
    rw [List.map_cons, List.map_cons, ih others]
    dsimp only at first
    split at first
    · next decoded =>
      cases first
      rw [decoded]
    · cases first

/-- Each record that is read has its text in the table. -/
theorem of_decodeAll {t : Table Text} {as : List α} (read : decodeAll sort decode? t = .ok as)
    {a : α} (member : a ∈ as) : ∃ key text, t.get? key = some text ∧ decode? text = some a := by
  have among : some a ∈ as.map some := List.mem_map_of_mem member
  rw [← map_decode_of_mapM read] at among
  obtain ⟨⟨key, text⟩, bound, decoded⟩ := List.mem_map.1 among
  exact ⟨key, text, t.get?_eq_some_iff.2 (t.sorted_perm.subset bound), decoded⟩

/-- Each text in the table is read. -/
theorem exists_of_decodeAll {t : Table Text} {as : List α}
    (read : decodeAll sort decode? t = .ok as) {key : String} {text : Text}
    (bound : t.get? key = some text) : ∃ a ∈ as, decode? text = some a := by
  have among : (key, text) ∈ byKey t := t.sorted_perm.mem_iff.2 (t.get?_eq_some_iff.1 bound)
  have decoded : decode? text ∈ (byKey t).map fun entry => decode? entry.2 :=
    List.mem_map_of_mem among
  rw [map_decode_of_mapM read] at decoded
  obtain ⟨a, member, isRecord⟩ := List.mem_map.1 decoded
  exact ⟨a, member, isRecord.symm⟩

end

variable {r : Registry} {now : Instant} {db : Database}

theorem programs_of_foldlM_putExecution {es : List Execution} {text : Execution → Text}
    {db' : Database}
    (written : es.foldlM (fun db e =>
      (db.putExecution e.name (text e)).mapError fun why => Problem.plain why.text) db = .ok db') :
    db'.programs = db.programs := by
  induction es generalizing db with
  | nil =>
    cases written
    rfl
  | cons e es ih =>
    rw [List.foldlM_cons] at written
    obtain ⟨db₁, put, written⟩ := bind_eq_ok.1 written
    rw [ih written]
    unfold Database.putExecution at put
    split at put
    · cases put
    · cases put
      rfl

/-- Opening a database leaves the records of programs as they are. -/
theorem database_of_openFrom (opened : openFrom now db = .ok r) :
    ∃ db', r.database? = some db' ∧ db'.programs = db.programs := by
  unfold openFrom at opened
  obtain ⟨ps, programs, opened⟩ := bind_eq_ok.1 opened
  obtain ⟨es, executions, opened⟩ := bind_eq_ok.1 opened
  obtain ⟨db', written, opened⟩ := bind_eq_ok.1 opened
  cases opened
  have kept : db'.programs = db.reopen.programs := programs_of_foldlM_putExecution written
  exact ⟨db', rfl, kept⟩

/-- A program of a registry that was opened has the name, the revision and the source of a record
of the database. -/
theorem programs_of_openFrom {P : Deployment → Prop} (opened : openFrom now db = .ok r)
    (encoded : ∀ key text, db.programs.get? key = some text → ∃ p, P p ∧ text = p.encode)
    {name : String} {q : Deployment} (held : r.programs.get? name = some q) :
    q.name = name ∧ ∃ p, P p ∧ q.name = p.name ∧ q.revision = p.revision ∧
      q.source = Text.ofString p.source.lossy := by
  obtain ⟨ps, read, programs, -⟩ := of_openFrom opened
  rw [programs] at held
  obtain ⟨q', member, same⟩ := List.mem_map.1 (Table.mem_of_get?_ofList held)
  cases same
  obtain ⟨key, text, bound, decoded⟩ := of_decodeAll read member
  obtain ⟨p, holds, rfl⟩ := encoded key text bound
  exact ⟨rfl, p, holds, Deployment.of_decode?_encode decoded⟩

end Registry

end ImpHost
