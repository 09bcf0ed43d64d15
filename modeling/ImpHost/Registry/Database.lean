import ImpHost.Table
import ImpHost.Text.Basic

/-!
Databases: two durable maps from keys to the texts of records. A write either takes effect or fails
and changes nothing. A database with a fault refuses every write.
-/

namespace ImpHost

/-- Why a database refuses a write. -/
inductive DatabaseError where
  | notOpen
  | keyRequired
  | keyTooLarge
  /-- The medium itself failed. -/
  | medium (why : String)
deriving DecidableEq

/-- The wording of a refusal. -/
def DatabaseError.text : DatabaseError → String
  | .notOpen => "database not open"
  | .keyRequired => "key required"
  | .keyTooLarge => "key too large"
  | .medium why => why

/-- A database. -/
structure Database where
  programs : Table Text
  executions : Table Text
  /-- What every write fails with, if anything. -/
  fault? : Option DatabaseError
deriving DecidableEq

namespace Database

/-- The open database without records. -/
def empty : Database :=
  ⟨∅, ∅, none⟩

/-- How many bytes a key may have. -/
def maxKeySize : Nat := 32768

/-- Why a key cannot be written. -/
def keyError? (key : String) : Option DatabaseError :=
  if key.isEmpty then some .keyRequired
  else if maxKeySize < key.utf8ByteSize then some .keyTooLarge
  else none

/-- Writes the record of a program. -/
def putProgram (db : Database) (key : String) (record : Text) : Except DatabaseError Database :=
  match db.fault?.or (keyError? key) with
  | some why => .error why
  | none => .ok { db with programs := db.programs.set key record }

/-- Removes the record of a program. -/
def eraseProgram (db : Database) (key : String) : Except DatabaseError Database :=
  match db.fault? with
  | some why => .error why
  | none => .ok { db with programs := db.programs.erase key }

/-- Writes the record of an execution. -/
def putExecution (db : Database) (key : String) (record : Text) : Except DatabaseError Database :=
  match db.fault?.or (keyError? key) with
  | some why => .error why
  | none => .ok { db with executions := db.executions.set key record }

/-- The database after it was closed. -/
def close (db : Database) : Database :=
  { db with fault? := some .notOpen }

/-- The database after it was opened. -/
def reopen (db : Database) : Database :=
  { db with fault? := none }

end Database

end ImpHost
