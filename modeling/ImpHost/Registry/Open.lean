import ImpHost.Registry.Basic

/-!
Opening a registry from its database. The records are read in key order and taken under the names
they carry. Executions that were active when the database was closed have been interrupted: they
are recorded as failed.
-/

namespace ImpHost.Registry

/-- Entries by key, in byte order. -/
def byKey (t : Table Text) : List (String × Text) :=
  t.entries.mergeSort fun a b => !decide (b.1 < a.1)

/-- Reads records in key order. -/
def decodeAll {α : Type} (sort : String) (decode? : Text → Option α) (t : Table Text) :
    Except Problem (List α) :=
  (byKey t).mapM fun (key, text) =>
    match decode? text with
    | some record => .ok record
    | none => .error (.plain ("decoding " ++ sort ++ " " ++ key ++ ": malformed record"))

/-- The number at the front of a revision, which a dash has to follow. -/
def revisionNumber? (revision : String) : Option Int :=
  let cs := revision.toList.dropWhile fun c => Text.isSpace c && c != '\n'
  let sign := cs.takeWhile fun c => c == '+' || c == '-'
  let digits := (cs.drop (sign.take 1).length).takeWhile Text.isAsciiDigit
  match cs.drop ((sign.take 1).length + digits.length) with
  | '-' :: _ => Json.parseInt? (String.ofList (sign.take 1 ++ digits))
  | _ => none

/-- The greatest revision number among programs. -/
def lastRevision (programs : List Deployment) : Nat :=
  programs.foldl (fun n p => max n ((revisionNumber? p.revision).getD 0).toNat) 0

/-- How an execution ended that was active when the database was closed. -/
def interrupted (e : Execution) : Execution :=
  let why := Diagnostic.cancelled "execution interrupted by server shutdown"
  { e with state := .failed, failure? := some ⟨why.payload, ""⟩ }

/-- The registry with the records of a database, opened at the moment `now`. -/
def openFrom (now : Instant) (db : Database) : Except Problem Registry := do
  let db := db.reopen
  let programs ← decodeAll "program" Deployment.decode? db.programs
  let executions ← decodeAll "execution" Execution.decode? db.executions
  let settled := executions.map fun e => e.settle now interrupted
  let db ← (executions.filter fun e => e.state = .active).foldlM (fun db e =>
    (db.putExecution e.name (e.settle now interrupted).encode).mapError fun why =>
      Problem.plain why.text) db
  return {
    programs := Table.ofList (programs.map fun p => (p.name, p))
    executions := Table.ofList (settled.map fun e => (e.name, e))
    revisions := lastRevision programs
    database? := some db }

end ImpHost.Registry
