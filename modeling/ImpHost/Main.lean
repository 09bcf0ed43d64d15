import ImpHost.Cli.Start
import Std.Time.DateTime.Timestamp

/-!
The command line as a program: it looks up what a command line may ask for, drives the job that the
command line comes to, and writes what there is to write.
-/

namespace ImpHost.Main

/-- The variables that a command line may ask for. -/
def variableNames : List String :=
  ["LOG_LEVEL", "IMP_MAX_STEPS", "IMP_DATA", "HOST", "PORT", "GRPC_PORT", "PROJECT", "LOCATION",
    "PROGRAMS_DIR"]

/-- The paths that an argument may name: all of it, or what follows its first equals sign, with the
directory of each. -/
def pathsIn (argument : String) : List String :=
  let value := String.ofList ((argument.toList.dropWhile (· != '=')).drop 1)
  [argument, value].flatMap fun path => path :: (Path.parent? path).toList

/-- The number of the system error that a path leads to a directory. -/
def isDirectoryCode : UInt32 := 21

/-- What stands at a path. -/
def lookAt (path : String) : IO (Except FileError FileEntry) := do
  try
    return .ok (.file ⟨← IO.FS.readBinFile path⟩)
  catch
    | .inappropriateType _ code _ =>
      return if code = isDirectoryCode then .ok .directory else .error .notDirectory
    | _ => return .error .missing

/-- The standard input, up to `limit` bytes, after those of `read`. -/
partial def readInput (stdin : IO.FS.Stream) (limit : Nat) (read : ByteArray) : IO ByteArray := do
  if limit ≤ read.size then return read
  let more ← stdin.read (limit - read.size).toUSize
  if more.isEmpty then return read else readInput stdin limit (read ++ more)

/-- What the command line `arguments` finds around it. -/
def environment (arguments : List String) : IO Cli.Environment := do
  let values ← variableNames.mapM fun x => do return (x, (← IO.getEnv x).getD "")
  let named := arguments ++ (values.lookup "IMP_DATA").toList
  let found ← (named.flatMap pathsIn).mapM fun path => do return (path, ← lookAt path)
  let input ← if arguments.contains Cli.inputPath then
      readInput (← IO.getStdin) (maxSourceSize + 1) .empty
    else pure .empty
  return {
    lookup := fun x => (values.lookup x).getD ""
    files := fun path => (found.lookup path).getD (.error .missing)
    input := ⟨input⟩ }

/-- The moment to the second. -/
def stamp : IO String := do
  let now ← Std.Time.Timestamp.now
  return (Instant.mk now.toNanosecondsSinceUnixEpoch.val).stamp

/-- Lets an engine go on until it ends, or until the moment `deadline?` has come. -/
partial def drive (deadline? : Option Nat) (e : Engine) : IO (Engine × Engine.Status) := do
  let now ← IO.monoNanosNow
  let context := if deadline?.any (· ≤ now) then Context.endsAt 0 .deadline else .background
  match e.advance context 10000 with
  | (e, .running) => drive deadline? e
  | ended => return ended

/-- Drives a job to its end. -/
def runJob (job : Cli.Job) : IO Cli.Output := do
  IO.eprint (job.opening (← stamp))
  let begun ← IO.monoNanosNow
  let limit := job.timeout.nanos.toNat
  let (engine, status) ← drive (if limit = 0 then none else some (begun + limit)) job.engine
  let elapsed := (← IO.monoNanosNow) - begun
  return job.closing (← stamp) (Cli.elapsedText elapsed) engine status.problem?

/-- The output of what a command line comes to. Serving needs a network, which there is none of. -/
def outputOf : Cli.Start → IO Cli.Output
  | .done output => return output
  | .running job => runJob job
  | .serving settings =>
    return .failed (.plain ("listening on " ++ settings.address ++ ": no network"))

end ImpHost.Main

/-- Runs a command line. Its status is one if it fails. -/
def main (arguments : List String) : IO UInt32 := do
  let env ← ImpHost.Main.environment arguments
  let output ← ImpHost.Main.outputOf (ImpHost.Cli.start env arguments)
  IO.print output.out
  IO.eprint output.err
  return if output.problem?.isSome then 1 else 0
