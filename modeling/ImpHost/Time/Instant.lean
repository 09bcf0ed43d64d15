import ImpHost.Text.CharClass
import ImpHost.Text.Decimal
import ImpHost.Time.Calendar

/-!
Moments in time, to the nanosecond. The first moment of the year 1 stands for a time that is not
set. Moments are shown in universal time, and written and read as in `2006-01-02T15:04:05.5Z`.
-/

namespace ImpHost

/-- A moment, in nanoseconds from the start of 1970. -/
structure Instant where
  nanos : Int
deriving DecidableEq

namespace Instant

/-- The nanoseconds of a second. -/
def second : Int := 1000000000

/-- The moment `n` seconds after the start of 1970. -/
def ofSeconds (n : Int) : Instant :=
  ⟨n * second⟩

/-- The moment that stands for a time that is not set. -/
def unset : Instant :=
  ofSeconds (-62135596800)

instance : Inhabited Instant := ⟨unset⟩

/-- Whether a time is set. -/
def isSet (t : Instant) : Bool :=
  t != unset

/-- The nanoseconds from `t` to `u`. -/
def nanosUntil (t u : Instant) : Int :=
  u.nanos - t.nanos

/-- At least `width` digits of `n`, with zeros in front. -/
def padded (width n : Nat) : String :=
  let digits := toString n
  String.ofList (List.replicate (width - digits.length) '0') ++ digits

/-- At least four digits of a year, after its sign. -/
def yearText (year : Int) : String :=
  (if year < 0 then "-" else "") ++ padded 4 year.natAbs

/-- The day of a moment. -/
def date (t : Instant) : Date :=
  .ofDay (t.nanos / (86400 * second))

/-- The second of its day in which a moment is. -/
def secondOfDay (t : Instant) : Nat :=
  (t.nanos / second % 86400).toNat

/-- The nanoseconds since the second of a moment began. -/
def nanoOfSecond (t : Instant) : Nat :=
  (t.nanos % second).toNat

/-- The date in digits. -/
def dateText (t : Instant) : String :=
  yearText t.date.year ++ "-" ++ padded 2 t.date.month ++ "-" ++ padded 2 t.date.day

/-- The time of day in digits, to the second. -/
def clockText (t : Instant) : String :=
  let s := t.secondOfDay
  padded 2 (s / 3600) ++ ":" ++ padded 2 (s / 60 % 60) ++ ":" ++ padded 2 (s % 60)

/-- A moment as a reader sees it; a dash if it is not set. -/
def render (t : Instant) : String :=
  if t.isSet then t.dateText ++ " " ++ t.clockText else "-"

/-- The moment to the second, as protocols write it. -/
def stamp (t : Instant) : String :=
  t.dateText ++ "T" ++ t.clockText ++ "Z"

/-- The moment to the nanosecond, without trailing zeros. -/
def exactStamp (t : Instant) : String :=
  let n := t.nanoOfSecond
  let fraction := ((padded 9 n).toList.reverse.dropWhile (· == '0')).reverse
  t.dateText ++ "T" ++ t.clockText
    ++ (if fraction.isEmpty then "" else "." ++ String.ofList fraction) ++ "Z"

/-! ## Reading -/

/-- The value of a digit. -/
def digit? (c : Char) : Option Nat :=
  if Text.isAsciiDigit c then some (c.toNat - '0'.toNat) else none

/-- A number of two digits at the front. -/
def twoDigits? : List Char → Option (Nat × List Char)
  | a :: b :: rest => do
    let a ← digit? a
    let b ← digit? b
    return (10 * a + b, rest)
  | _ => none

/-- A number of one or two digits at the front. -/
def oneOrTwoDigits? (cs : List Char) : Option (Nat × List Char) :=
  match twoDigits? cs with
  | some r => some r
  | none =>
    match cs with
    | a :: rest => (digit? a).map fun a => (a, rest)
    | [] => none

/-- A number of four digits at the front. -/
def fourDigits? (cs : List Char) : Option (Nat × List Char) := do
  let (a, cs) ← twoDigits? cs
  let (b, cs) ← twoDigits? cs
  return (100 * a + b, cs)

/-- What follows the mark `c`. -/
def after? (c : Char) : List Char → Option (List Char)
  | d :: rest => if d == c then some rest else none
  | [] => none

/-- The nanoseconds of a fraction of a second at the front. Digits after the ninth do not count. -/
def fraction : List Char → Nat × List Char
  | c :: d :: rest =>
    if (c == '.' || c == ',') && Text.isAsciiDigit d then
      let digits := (d :: rest).takeWhile Text.isAsciiDigit
      let kept := digits.take 9
      let n := Text.digitsValue kept
      (n * Nat.pow 10 (9 - kept.length), (d :: rest).drop digits.length)
    else (0, c :: d :: rest)
  | cs => (0, cs)

/-- The seconds by which a zone at the end is ahead of universal time. -/
def zone? : List Char → Option Int
  | ['Z'] => some 0
  | sign :: cs => do
    let (hours, cs) ← twoDigits? cs
    let (minutes, cs) ← (after? ':' cs).bind twoDigits?
    let ahead : Int := (hours * 60 + minutes) * 60
    if !cs.isEmpty || 24 < hours || 60 < minutes then none
    else if sign == '+' then some ahead
    else if sign == '-' then some (-ahead)
    else none
  | [] => none

/-- The moment that a stamp denotes. The hour may have one digit, and a comma may stand for the
point. -/
def parse? (cs : List Char) : Option Instant := do
  let (year, cs) ← fourDigits? cs
  let (month, cs) ← (after? '-' cs).bind twoDigits?
  let (day, cs) ← (after? '-' cs).bind twoDigits?
  let (hour, cs) ← (after? 'T' cs).bind oneOrTwoDigits?
  let (minute, cs) ← (after? ':' cs).bind twoDigits?
  let (sec, cs) ← (after? ':' cs).bind twoDigits?
  let (nanos, cs) := fraction cs
  let ahead ← zone? cs
  let date : Date := ⟨year, month, day⟩
  if date.isValid && hour < 24 && minute < 60 && sec < 60 then
    some ⟨(date.toDay * 86400 + ((hour * 60 + minute) * 60 + sec : Nat) - ahead) * second + nanos⟩
  else none

end Instant

end ImpHost
