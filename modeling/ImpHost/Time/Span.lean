import ImpHost.Double.Basic
import ImpHost.Time.Instant

/-!
Spans of time as a reader sees them: how long ago something was, and how long something took.
-/

namespace ImpHost

/-- A span of time, in nanoseconds. -/
structure Span where
  nanos : Int
deriving DecidableEq

namespace Span

/-- The span of a second. -/
def second : Int := Instant.second

/-- The span of a minute. -/
def minute : Int := 60 * second

/-- The span of an hour. -/
def hour : Int := 60 * minute

/-- The span of a day. -/
def day : Int := 24 * hour

/-- The span from `t` to `u`. -/
def between (t u : Instant) : Span :=
  ⟨t.nanosUntil u⟩

/-- A number of units that have passed. -/
def passed (n : Int) (unit : String) : String :=
  if n = 1 then "1 " ++ unit ++ " ago" else toString n ++ " " ++ unit ++ "s ago"

/-- How long ago something was, in the greatest unit that has passed. -/
def ago (d : Span) : String :=
  if d.nanos < minute then "just now"
  else if d.nanos < hour then passed (d.nanos / minute) "minute"
  else if d.nanos < day then passed (d.nanos / hour) "hour"
  else passed (d.nanos / day) "day"

/-- A span of zero or more seconds in double precision: the whole seconds, and the rest of them
rounded before it is added. -/
def inSeconds (d : Nat) : Double :=
  let unit := second.toNat
  match Double.ofQuotient false (d % unit) unit with
  | .finite _ m e =>
    let (a, b) := Double.scaled m 1 (-e)
    .ofQuotient false (d / unit * b + a) b
  | other => other

/-- A nonnegative number with one decimal place; a half goes to the even neighbour. -/
def onePlace : Double → String
  | .finite _ m e =>
    let (a, b) := Double.scaled m 1 (-e)
    let tenths := Double.roundQuotient (10 * a) b
    toString (tenths / 10) ++ "." ++ toString (tenths % 10)
  | _ => ""

/-- How long something took: in milliseconds below a second, in seconds with one place below a
minute, and in minutes and seconds from there on. -/
def render (d : Span) : String :=
  if d.nanos < second then toString (d.nanos.tdiv 1000000) ++ "ms"
  else if d.nanos < minute then onePlace (inSeconds d.nanos.toNat) ++ "s"
  else toString (d.nanos / minute) ++ "m " ++ toString (d.nanos / second % 60) ++ "s"

end Span

namespace Instant

/-- How long before `now` a moment was; a dash if it is not set. -/
def ago (now t : Instant) : String :=
  if t.isSet then (Span.between t now).ago else "-"

/-- How long something took that began at `start`. It is running if its end is not set. -/
def lasting (now start finish : Instant) : String :=
  if finish.isSet then (Span.between start finish).render
  else (Span.between start now).render ++ " (running)"

end Instant

end ImpHost
