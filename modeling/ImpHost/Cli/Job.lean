import ImpHost.Cli.Log
import ImpHost.Engine
import ImpHost.Manifest.Basic
import ImpHost.Time.Span

/-!
Jobs: runs of a program that a command line asks for. A job is driven by its host, which lets the
engine of the job go on until it ends; `Job.opening` and `Job.closing` say what is written before
and after that.
-/

namespace ImpHost.Cli

/-- What a command line writes, and the problem with which it fails. -/
structure Output where
  out : String
  err : String
  problem? : Option Problem
deriving DecidableEq

namespace Output

/-- The output of a command line that succeeds. -/
def written (out : String) : Output :=
  ⟨out, "", none⟩

/-- The output of a command line that fails, after what it has written to `err`. -/
def failedAfter (err : String) (p : Problem) : Output :=
  ⟨"", err ++ "Error: " ++ p.message ++ "\n", some p⟩

/-- The output of a command line that fails. -/
def failed (p : Problem) : Output :=
  failedAfter "" p

end Output

/-- A run of a program. -/
structure Job where
  /-- The name of the program. -/
  name : Text
  /-- The engine, whose run has begun. -/
  engine : Engine
  /-- How long the run may take; it may take any time unless this is above zero. -/
  timeout : Span
  /-- Whether the store is written as JSON. -/
  json : Bool
  level : LogLevel

namespace Job

/-- The context of a job whose host asks it `rate` times in a microsecond. -/
def context (rate : Nat) (j : Job) : Context :=
  if 0 < j.timeout.nanos then .endsAt (j.timeout.nanos.toNat * rate / 1000 + 1) .deadline
  else .background

/-- A store as a job writes it: a line for each variable, or one line of JSON. -/
def storeText (j : Job) (m : Memory) : String :=
  if j.json then m.toJson.render ++ "\n"
  else String.join (m.entries.map fun (x, v) => x ++ " = " ++ v.render ++ "\n")

/-- Lines for debugging, provided that the level of the job shows them. -/
def debug (j : Job) (stamp : String) (lines : List (String × List (String × Text))) : String :=
  if j.level.showsDebug then
    String.join (lines.map fun (message, fields) => debugLine stamp message fields)
  else ""

/-- What is written before the run goes on. -/
def opening (j : Job) (stamp : String) : String :=
  j.debug stamp [("execution started",
    [("max_steps", .ofString (toString j.engine.budget)), ("program", j.name)])]

/-- The output after the engine has come to its end, with the problem in which it ended. -/
def closing (j : Job) (stamp elapsed : String) (engine : Engine) (problem? : Option Problem) :
    Output :=
  let m := engine.snapshot?.getD ∅
  let steps := Text.ofString (toString engine.steps)
  let counts := [("program", j.name), ("steps", steps),
    ("variables", Text.ofString (toString m.size))]
  let ending := match problem? with
    | none => ("execution finished", counts)
    | some p => ("execution failed", ("error", Text.ofString p.message) :: counts)
  let lines := j.debug stamp [ending,
    ("run complete", [("duration", .ofString elapsed), ("program", j.name), ("steps", steps)])]
  match problem? with
  | none => ⟨j.storeText m, lines, none⟩
  | some p => .failedAfter (lines ++ "store at failure:\n" ++ j.storeText m) p

end Job

end ImpHost.Cli
