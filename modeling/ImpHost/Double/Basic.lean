import ImpHost.Text.CharClass
import ImpHost.Text.Decimal

/-!
Numbers of double precision as exact values: a significand of at most 53 bits times a power of two.
A decimal is read as the nearest of them; of two that are equally near, the one with the even
significand.
-/

namespace ImpHost

/-- A number of double precision. -/
inductive Double where
  | nan
  | infinite (negative : Bool)
  /-- The number `significand * 2 ^ exponent`, or its negation. -/
  | finite (negative : Bool) (significand : Nat) (exponent : Int)
deriving DecidableEq

namespace Double

/-- The quotient `a / b` rounded to the nearest integer, a half to the even neighbour. -/
def roundQuotient (a b : Nat) : Nat :=
  let q := a / b
  let r := a % b
  if b < 2 * r ∨ (2 * r = b ∧ q % 2 = 1) then q + 1 else q

/-- The least exponent. -/
def minExponent : Int := -1074

/-- The greatest exponent of a significand with all 53 bits. -/
def maxExponent : Int := 971

/-- The least significand with all 53 bits. -/
def hiddenBit : Nat := 0x10000000000000

/-- The quotient `a / (b * 2 ^ e)` as a quotient of integers. -/
def scaled (a b : Nat) (e : Int) : Nat × Nat :=
  if 0 ≤ e then (a, b * Nat.pow 2 e.toNat) else (a * Nat.pow 2 (-e).toNat, b)

/-- The number nearest to `a / b`; infinite beyond the greatest. -/
def ofQuotient (negative : Bool) (a b : Nat) : Double :=
  if a = 0 then .finite negative 0 minExponent
  else
    let estimate : Int := (Nat.log2 a : Int) - Nat.log2 b - 52
    let e := if (scaled a b estimate).1 < hiddenBit * (scaled a b estimate).2 then estimate - 1
      else estimate
    let e := max e minExponent
    let m := roundQuotient (scaled a b e).1 (scaled a b e).2
    let (m, e) := if m = 2 * hiddenBit then (hiddenBit, e + 1) else (m, e)
    if maxExponent < e then .infinite negative else .finite negative m e

/-- The number nearest to `digits * 10 ^ exponent`. Exponents far beyond the range are settled by
their size alone. -/
def ofDecimal (negative : Bool) (digits : Nat) (exponent : Int) : Double :=
  let magnitude := exponent + (Nat.log2 digits / 3 : Nat) + 1
  if digits = 0 then .finite negative 0 minExponent
  else if 400 < exponent then .infinite negative
  else if magnitude < -400 then .finite negative 0 minExponent
  else if 0 ≤ exponent then ofQuotient negative (digits * Nat.pow 10 exponent.toNat) 1
  else ofQuotient negative digits (Nat.pow 10 (-exponent).toNat)

/-- The number nearest to the integer `n`. -/
def ofInt (n : Int) : Double :=
  ofQuotient (n < 0) n.natAbs 1

/-- The value of a number that is an integer. -/
def toInt? : Double → Option Int
  | .finite negative m e =>
    let magnitude : Option Nat :=
      if 0 ≤ e then some (m * Nat.pow 2 e.toNat)
      else if m % Nat.pow 2 (-e).toNat = 0 then some (m / Nat.pow 2 (-e).toNat)
      else none
    magnitude.map fun n => if negative then -(n : Int) else (n : Int)
  | _ => none

/-- Whether each underscore stands between two digits. -/
def separatorsOk : List Char → Bool
  | [] => true
  | '_' :: _ => false
  | c :: '_' :: d :: rest => Text.isAsciiDigit c && Text.isAsciiDigit d && separatorsOk (d :: rest)
  | [_, '_'] => false
  | _ :: rest => separatorsOk rest

/-- The exponent at the end of a decimal, zero if nothing is left. -/
def exponent? : List Char → Option Int
  | [] => some 0
  | c :: cs =>
    if c == 'e' || c == 'E' then
      let (negative, digits) := Text.takeSign cs
      if digits.isEmpty || !digits.all Text.isAsciiDigit then none
      else
        let n : Int := Text.digitsValue digits
        some (if negative then -n else n)
    else none

/-- The number that a decimal spells: digits with at most one point among them, and an optional
exponent. None if it is no decimal or beyond the greatest number. -/
def parseDecimal? (text : List Char) : Option Double :=
  if !separatorsOk text then none
  else
    let (negative, cs) := Text.takeSign (text.filter (· != '_'))
    let whole := cs.takeWhile Text.isAsciiDigit
    let (fraction, rest) := match cs.dropWhile Text.isAsciiDigit with
      | '.' :: ds => (ds.takeWhile Text.isAsciiDigit, ds.dropWhile Text.isAsciiDigit)
      | ds => ([], ds)
    if whole.isEmpty && fraction.isEmpty then none
    else
      match exponent? rest with
      | none => none
      | some e =>
        match ofDecimal negative (Text.digitsValue (whole ++ fraction)) (e - fraction.length) with
        | .infinite _ => none
        | d => some d

/-- The number that a text spells: a decimal, infinity or not a number, in any case. -/
def parse? (text : List Char) : Option Double :=
  let (negative, cs) := Text.takeSign text
  let word := String.ofList (cs.map Char.toLower)
  if word == "inf" || word == "infinity" then some (.infinite negative)
  else if String.ofList (text.map Char.toLower) == "nan" then some .nan
  else parseDecimal? text

end Double

end ImpHost
