import ImpHost.Text.Quoted
import ImpHost.Time.Instant

/-!
Log lines, as in `time=… level=debug msg="run complete" steps=3`.
-/

namespace ImpHost.Cli

/-- The levels of log lines, the gravest first. -/
inductive LogLevel where
  | panic
  | fatal
  | error
  | warning
  | info
  | debug
  | trace
deriving DecidableEq

namespace LogLevel

/-- The level with a name, in whatever case. -/
def ofName? (name : String) : Option LogLevel :=
  match String.ofList (name.toList.map Text.lowerChar) with
  | "panic" => some .panic
  | "fatal" => some .fatal
  | "error" => some .error
  | "warn" | "warning" => some .warning
  | "info" => some .info
  | "debug" => some .debug
  | "trace" => some .trace
  | _ => none

/-- Whether lines for debugging are shown at a level. -/
def showsDebug (l : LogLevel) : Bool :=
  l = .debug || l = .trace

end LogLevel

/-- A number of parts of a unit that has `10 ^ places` of them, without trailing zeros. -/
def fractional (places n : Nat) : String :=
  let rest := (Instant.padded places (n % Nat.pow 10 places)).toList.reverse.dropWhile (· == '0')
  toString (n / Nat.pow 10 places)
    ++ (if rest.isEmpty then "" else "." ++ String.ofList rest.reverse)

/-- How long something took: in one unit below a second, and in hours, minutes and seconds from
there on. -/
def elapsedText (nanos : Nat) : String :=
  if nanos = 0 then "0s"
  else if nanos < 1000 then toString nanos ++ "ns"
  else if nanos < 1000000 then fractional 3 nanos ++ "\u00b5s"
  else if nanos < 1000000000 then fractional 6 nanos ++ "ms"
  else
    let minutes := nanos / 60000000000
    (if 60 ≤ minutes then toString (minutes / 60) ++ "h" else "")
      ++ (if 0 < minutes then toString (minutes % 60) ++ "m" else "")
      ++ fractional 9 (nanos % 60000000000) ++ "s"

/-- The characters that a value may have without being quoted. -/
def isPlainLogChar (c : Char) : Bool :=
  c.isAlphanum || ['-', '.', '_', '/', '@', '^', '+'].contains c

/-- A value in a log line. -/
def logValue (t : Text) : String :=
  if t.chars.all isPlainLogChar then t.lossy else t.quote

/-- A line for debugging, with its fields in order. -/
def debugLine (stamp message : String) (fields : List (String × Text)) : String :=
  let all := ("time", Text.ofString stamp) :: ("level", Text.ofString "debug")
    :: ("msg", Text.ofString message) :: fields
  " ".intercalate (all.map fun (k, v) => k ++ "=" ++ logValue v) ++ "\n"

end ImpHost.Cli
