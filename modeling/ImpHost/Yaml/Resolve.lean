import ImpHost.Double.Basic
import ImpHost.Value
import ImpHost.Yaml.Characters

/-!
What plain scalars denote. A scalar without a tag of its own is null, a boolean, an integer, a
number of double precision, or else a string. Integers may be written in base 2, 8 or 16, and
underscores in a number do not count. An integer of more than 64 bits is a number of double
precision.
-/

namespace ImpHost.Yaml

/-- What a scalar denotes. -/
inductive Resolved where
  | null
  | bool (b : Bool)
  | int (n : Int)
  | float (d : Double)
  | string
deriving DecidableEq

namespace Tag

/-- The tag of strings. -/
def str : String := "!!str"

/-- The tag of null. -/
def null : String := "!!null"

/-- The tag of booleans. -/
def bool : String := "!!bool"

/-- The tag of integers. -/
def int : String := "!!int"

/-- The tag of numbers of double precision. -/
def float : String := "!!float"

/-- The tag of the key that merges a mapping. -/
def merge : String := "!!merge"

/-- The tag of times. -/
def timestamp : String := "!!timestamp"

/-- The tag of bytes. -/
def binary : String := "!!binary"

/-- What the common tags start with in full. -/
def longFront : String := "tag:yaml.org,2002:"

/-- A common tag in its short form. -/
def short (tag : String) : String :=
  if longFront.toList.isPrefixOf tag.toList then
    "!!" ++ String.ofList (tag.toList.drop longFront.length)
  else tag

end Tag

/-- The tag of what a scalar denotes. -/
def Resolved.tag : Resolved → String
  | .null => Tag.null
  | .bool _ => Tag.bool
  | .int _ => Tag.int
  | .float _ => Tag.float
  | .string => Tag.str

/-- The words that denote something. -/
def word? (s : String) : Option Resolved :=
  if s ∈ ["true", "True", "TRUE"] then some (.bool true)
  else if s ∈ ["false", "False", "FALSE"] then some (.bool false)
  else if s ∈ ["", "~", "null", "Null", "NULL"] then some .null
  else if s ∈ [".nan", ".NaN", ".NAN"] then some (.float .nan)
  else if s ∈ [".inf", ".Inf", ".INF", "+.inf", "+.Inf", "+.INF"] then
    some (.float (.infinite false))
  else if s ∈ ["-.inf", "-.Inf", "-.INF"] then some (.float (.infinite true))
  else none

/-- The value of a digit, in bases up to 16. -/
def digitValue (x : Char) : Nat :=
  if '0' ≤ x ∧ x ≤ '9' then x.toNat - '0'.toNat
  else if 'a' ≤ x ∧ x ≤ 'f' then x.toNat - 'a'.toNat + 10
  else if 'A' ≤ x ∧ x ≤ 'F' then x.toNat - 'A'.toNat + 10
  else 16

/-- The number that digits denote in a base. -/
def digitsIn? (base : Nat) (digits : List Char) : Option Nat :=
  if !digits.isEmpty && digits.all fun x => digitValue x < base then
    some (digits.foldl (fun n x => base * n + digitValue x) 0)
  else none

/-- The number that digits denote in the base that they start with: a zero and a letter, or a zero
for base 8. -/
def natural? : List Char → Option Nat
  | '0' :: x :: rest =>
    if x == 'x' || x == 'X' then digitsIn? 16 rest
    else if x == 'b' || x == 'B' then digitsIn? 2 rest
    else if x == 'o' || x == 'O' then digitsIn? 8 rest
    else digitsIn? 8 (x :: rest)
  | digits => digitsIn? 10 digits

/-- The integer that a scalar without underscores spells, if it has at most 64 bits: with a sign
it fits a signed word, and without one an unsigned word. -/
def integer? (cs : List Char) : Option Int :=
  match cs with
  | '-' :: rest => (natural? rest).bind fun n => if n ≤ Value.halfRange then some (-n) else none
  | '+' :: rest =>
    (natural? rest).bind fun n => if n < Value.halfRange then some (n : Int) else none
  | cs => (natural? cs).bind fun n => if n < 2 * Value.halfRange then some (n : Int) else none

/-- The octal or binary integer that a second sign after its base spells. -/
def signedAfterBase? (cs : List Char) : Option Int :=
  let read (base : Nat) (negated : Bool) (digits : List Char) : Option Int :=
    match digits with
    | '-' :: ds =>
      if negated then none
      else (digitsIn? base ds).bind fun n => if n ≤ Value.halfRange then some (-n) else none
    | '+' :: ds =>
      if negated then none
      else (digitsIn? base ds).bind fun n => if n < Value.halfRange then some (n : Int) else none
    | _ => none
  match cs with
  | '0' :: 'b' :: ds => read 2 false ds
  | '0' :: 'o' :: ds => read 8 false ds
  | _ => none

/-- Whether a scalar has the form of a number with a point or an exponent: digits with at most one
point among or in front of them, and then an optional exponent. -/
def hasFloatForm (cs : List Char) : Bool :=
  let cs := (Text.takeSign cs).2
  let isDigit := Text.isAsciiDigit
  let rest? : Option (List Char) :=
    match cs with
    | '.' :: ds => if (ds.takeWhile isDigit).isEmpty then none else some (ds.dropWhile isDigit)
    | cs =>
      if (cs.takeWhile isDigit).isEmpty then none
      else
        match cs.dropWhile isDigit with
        | '.' :: ds => some (ds.dropWhile isDigit)
        | ds => some ds
  match rest? with
  | none => false
  | some rest => (Double.exponent? rest).isSome

/-- What a scalar denotes if nothing else is said about it. -/
def resolve (s : String) : Resolved :=
  let cs := s.toList
  match word? s with
  | some r => r
  | none =>
    match cs with
    | [] => .null
    | x :: _ =>
      if x == '.' then
        match Double.parseDecimal? cs with
        | some d => .float d
        | none => .string
      else if x == '+' || x == '-' || Text.isAsciiDigit x then
        let plain := cs.filter (· != '_')
        match integer? plain with
        | some n => .int n
        | none =>
          match (if hasFloatForm plain then Double.parseDecimal? plain else none) with
          | some d => .float d
          | none =>
            match signedAfterBase? plain with
            | some n => .int n
            | none => .string
      else .string

end ImpHost.Yaml
