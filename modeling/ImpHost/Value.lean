/-!
The values of the language: 64-bit integers, whose arithmetic wraps around, and booleans.
-/

namespace ImpHost

/-- A value that a variable can hold. -/
inductive Value where
  | int (n : Int64)
  | bool (b : Bool)
deriving DecidableEq, Inhabited

namespace Value

/-- The two kinds of values. -/
inductive Kind where
  | int
  | bool
deriving DecidableEq

/-- The name of a kind in messages. -/
def Kind.name : Kind → String
  | .int => "int"
  | .bool => "bool"

/-- The kind of a value. -/
def kind : Value → Kind
  | .int _ => .int
  | .bool _ => .bool

/-- A value as a program spells it. An integer is written in decimal with a leading minus. -/
def render : Value → String
  | .int n => toString n.toInt
  | .bool true => "true"
  | .bool false => "false"

/-- Half the number of integer values: they run from minus this number up to just below it. -/
def halfRange : Nat := 0x8000000000000000

/-- The least integer value. -/
def minInt : Int := -halfRange

/-- The greatest integer value. -/
def maxInt : Int := halfRange - 1

/-- The integer value `n`, provided that it is in range. -/
def ofInt? (n : Int) : Option Value :=
  if minInt ≤ n ∧ n ≤ maxInt then some (.int (Int64.ofInt n)) else none

end Value

end ImpHost
