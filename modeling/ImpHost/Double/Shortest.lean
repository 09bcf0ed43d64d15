import ImpHost.Double.Basic

/-!
Numbers of double precision as text: the fewest digits that read back as the number, and of those
the nearest. The digits are found on the grid of each length in turn, where only the two neighbours
of the number need to be tested.
-/

namespace ImpHost.Double

/-- The quotient `a / b` times `10 ^ e`, as a quotient of integers. -/
def scaleTen (a b : Nat) (e : Int) : Nat × Nat :=
  if 0 ≤ e then (a * Nat.pow 10 e.toNat, b) else (a, b * Nat.pow 10 (-e).toNat)

/-- The position after the first digit of `a / b`: the least `k` with `a / b < 10 ^ k`, sought
from `k` upwards. -/
def leadingPosition (a b : Nat) : (fuel : Nat) → (k : Int) → Int
  | 0, k => k
  | fuel + 1, k =>
    if (scaleTen a b (-k)).1 < (scaleTen a b (-k)).2 then k
    else leadingPosition a b fuel (k + 1)

/-- The decimal `n * 10 ^ e` that reads back as `number`, with as few digits as possible but at
least `count`. The number is `a / b`, and `k` is the position after its first digit. -/
def shortestFrom (number : Double) (a b : Nat) (k : Int) : (fuel : Nat) → (count : Nat) → Nat × Int
  | 0, count => ((scaleTen a b (count - k)).1 / (scaleTen a b (count - k)).2, k - count)
  | fuel + 1, count =>
    let e := k - count
    let (x, y) := scaleTen a b (-e)
    let low := x / y
    let lowReads := ofDecimal false low e == number
    let highReads := ofDecimal false (low + 1) e == number
    if lowReads && (!highReads || 2 * (x % y) ≤ y) then (low, e)
    else if highReads then (low + 1, e)
    else shortestFrom number a b k fuel (count + 1)

/-- The shortest decimal `n * 10 ^ e` that reads back as `m * 2 ^ q`, for `0 < m`. -/
def shortest (m : Nat) (q : Int) : Nat × Int :=
  let (a, b) := scaled m 1 (-q)
  let estimate : Int := ((Nat.log2 a : Int) - Nat.log2 b - 1) * 30103 / 100000 - 1
  shortestFrom (.finite false m q) a b (leadingPosition a b 6 estimate) 17 1

/-- At least two digits of `n`. -/
def twoDigits (n : Nat) : String :=
  if n < 10 then "0" ++ toString n else toString n

/-- A positive number in messages. Exponents below -4 and from 6 on are written with a mark, and
trailing zeros are left out. -/
def renderPositive (m : Nat) (q : Int) : String :=
  let (n, e) := shortest m q
  let written := Nat.toDigits 10 n
  let point : Int := written.length + e
  let digits := (written.reverse.dropWhile (· == '0')).reverse
  let exponent := point - 1
  if exponent < -4 ∨ 6 ≤ exponent then
    let fraction := digits.drop 1
    String.ofList (digits.take 1)
      ++ (if fraction.isEmpty then "" else "." ++ String.ofList fraction)
      ++ (if exponent < 0 then "e-" else "e+") ++ twoDigits exponent.natAbs
  else if point ≤ 0 then
    "0." ++ String.ofList (List.replicate (-point).toNat '0' ++ digits)
  else if digits.length ≤ point.toNat then
    String.ofList (digits ++ List.replicate (point.toNat - digits.length) '0')
  else
    String.ofList (digits.take point.toNat) ++ "." ++ String.ofList (digits.drop point.toNat)

/-- A number in messages. -/
def render : Double → String
  | .nan => "NaN"
  | .infinite true => "-Inf"
  | .infinite false => "+Inf"
  | .finite negative m q =>
    (if negative then "-" else "") ++ (if m = 0 then "0" else renderPositive m q)

end ImpHost.Double
