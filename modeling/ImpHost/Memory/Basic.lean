import ImpHost.Table
import ImpHost.Value

/-!
The variable store of a program: names with their values, in the order in which the names were
first bound.
-/

namespace ImpHost

/-- A variable store. -/
abbrev Memory := Table Value

namespace Memory

/-- Whether both stores bind the same names to the same values, in whatever order. It is enough to
look at one side's names, because both have the same number of them. -/
def same (m other : Memory) : Bool :=
  m.size == other.size && m.entries.all fun (x, v) => other.get? x == some v

/-- The store in messages, as in `\x7ba: 1, b: true\x7d`. -/
def render (m : Memory) : String :=
  "\x7b" ++ ", ".intercalate (m.entries.map fun (x, v) => x ++ ": " ++ v.render) ++ "\x7d"

end Memory

end ImpHost
