import ImpHost.Value

/-!
Programs as trees: arithmetic expressions, boolean expressions and commands. Trees built by hand
may lack a part, which is a `hole`, and may use an operator that the language does not have, which
is `other`. `Node.same` compares trees of any sort; a tree with a hole is the same as no tree.
-/

namespace ImpHost

/-- The arithmetic operators. -/
inductive ArithOp where
  | add | sub | mul
  | other (spelling : String)
deriving DecidableEq

/-- The connectives. -/
inductive BoolOp where
  | and | or
  | other (spelling : String)
deriving DecidableEq

/-- The comparisons. -/
inductive CompareOp where
  | le | eq
  | other (spelling : String)
deriving DecidableEq

/-- An arithmetic operator as a program spells it. -/
def ArithOp.spelling : ArithOp → String
  | .add => "+"
  | .sub => "-"
  | .mul => "*"
  | .other s => s

/-- The arithmetic operator with the given spelling. -/
def ArithOp.ofSpelling (s : String) : ArithOp :=
  match s with
  | "+" => .add
  | "-" => .sub
  | "*" => .mul
  | s => .other s

/-- A connective as a program spells it. -/
def BoolOp.spelling : BoolOp → String
  | .and => "and"
  | .or => "or"
  | .other s => s

/-- The connective with the given spelling. -/
def BoolOp.ofSpelling (s : String) : BoolOp :=
  match s with
  | "and" => .and
  | "or" => .or
  | s => .other s

/-- A comparison as a program spells it. -/
def CompareOp.spelling : CompareOp → String
  | .le => "<="
  | .eq => "="
  | .other s => s

/-- The comparison with the given spelling. -/
def CompareOp.ofSpelling (s : String) : CompareOp :=
  match s with
  | "<=" => .le
  | "=" => .eq
  | s => .other s

/-- Arithmetic expressions. -/
inductive AExpr where
  | int (n : Int64)
  | var (name : String)
  | binary (op : ArithOp) (left right : AExpr)
  | hole
deriving DecidableEq, Inhabited

/-- Boolean expressions. -/
inductive BExpr where
  | lit (b : Bool)
  | not (operand : BExpr)
  | binary (op : BoolOp) (left right : BExpr)
  | compare (op : CompareOp) (left right : AExpr)
  | hole
deriving DecidableEq, Inhabited

/-- Commands. -/
inductive Command where
  | skip
  | assign (name : String) (value : AExpr)
  | seq (first second : Command)
  | ite (cond : BExpr) (yes no : Command)
  | whileDo (cond : BExpr) (body : Command)
  | hole
deriving DecidableEq, Inhabited

/-- The sort of a command, as traces show it. -/
def Command.sort : Command → String
  | .skip => "Skip"
  | .assign _ _ => "Assign"
  | .seq _ _ => "Seq"
  | .ite _ _ _ => "If"
  | .whileDo _ _ => "While"
  | .hole => "<nil>"

/-- Whether both are the same tree, without a hole. -/
def AExpr.same : AExpr → AExpr → Bool
  | .int m, .int n => m == n
  | .var x, .var y => x == y
  | .binary o a b, .binary p c d => o == p && a.same c && b.same d
  | _, _ => false

/-- Whether both are the same tree, without a hole. -/
def BExpr.same : BExpr → BExpr → Bool
  | .lit b, .lit c => b == c
  | .not a, .not c => a.same c
  | .binary o a b, .binary p c d => o == p && a.same c && b.same d
  | .compare o a b, .compare p c d => o == p && a.same c && b.same d
  | _, _ => false

/-- Whether both are the same tree, without a hole. -/
def Command.same : Command → Command → Bool
  | .skip, .skip => true
  | .assign x a, .assign y c => x == y && a.same c
  | .seq a b, .seq c d => a.same c && b.same d
  | .ite e a b, .ite f c d => e.same f && a.same c && b.same d
  | .whileDo e a, .whileDo f c => e.same f && a.same c
  | _, _ => false

/-- A tree of any sort. -/
inductive Node where
  | arith (e : AExpr)
  | bool (e : BExpr)
  | command (c : Command)
deriving DecidableEq

/-- Whether both are the same tree of one sort, without a hole. -/
def Node.same : Node → Node → Bool
  | .arith a, .arith b => a.same b
  | .bool a, .bool b => a.same b
  | .command a, .command b => a.same b
  | _, _ => false

end ImpHost
