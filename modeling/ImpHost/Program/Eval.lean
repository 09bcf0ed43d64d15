import ImpHost.Diagnostic.Basic
import ImpHost.Memory.Basic
import ImpHost.Program.Basic

/-!
The value of an expression in a store. Operands are evaluated from left to right and both operands
of every operator are evaluated, also those of a connective whose left operand settles its value.
Arithmetic wraps around at 64 bits.
-/

namespace ImpHost

/-- The sorts of trees, as messages name them. -/
inductive TreeSort where
  | arithmetic | boolean | comparison | command
deriving DecidableEq

/-- The name of a sort in messages. -/
def TreeSort.name : TreeSort → String
  | .arithmetic => "arithmetic"
  | .boolean => "boolean"
  | .comparison => "comparison"
  | .command => "command"

/-- Why a program fails. -/
inductive EvalError where
  /-- The variable has no value. -/
  | unbound (name : String)
  /-- The operator does not take operands of these kinds. -/
  | operands (op : String) (left right : Value.Kind)
  /-- The tree has a hole. -/
  | hole (sort : TreeSort)
  /-- The language has no such operator. -/
  | operator (sort : TreeSort) (spelling : String)
deriving DecidableEq

/-- The diagnostic of a failure. Only a tree built by hand fails without one. -/
def EvalError.report? : EvalError → Option Diagnostic
  | .unbound x => some (.unbound x)
  | .operands op l r =>
    some (.type ("unsupported operand types for " ++ op ++ ": " ++ l.name ++ " and " ++ r.name))
  | .hole _ => none
  | .operator _ _ => none

/-- The message of a failure. -/
def EvalError.message : EvalError → String
  | .hole sort => "unsupported " ++ sort.name ++ " node type: <nil>"
  | .operator sort spelling => "unsupported " ++ sort.name ++ " operator: " ++ spelling
  | e => (e.report?.map Diagnostic.text).getD ""

/-- The value of an arithmetic operation. -/
def ArithOp.apply (op : ArithOp) : Value → Value → Except EvalError Value
  | .int a, .int b =>
    match op with
    | .add => .ok (.int (a + b))
    | .sub => .ok (.int (a - b))
    | .mul => .ok (.int (a * b))
    | .other s => .error (.operator .arithmetic s)
  | l, r => .error (.operands op.spelling l.kind r.kind)

/-- The value of a comparison. Equality takes two values of one kind, and order two integers. -/
def CompareOp.apply (op : CompareOp) (l r : Value) : Except EvalError Bool :=
  match op with
  | .le =>
    match l, r with
    | .int a, .int b => .ok (a ≤ b)
    | l, r => .error (.operands op.spelling l.kind r.kind)
  | .eq =>
    if l.kind = r.kind then .ok (l = r)
    else .error (.operands op.spelling l.kind r.kind)
  | .other s => .error (.operator .comparison s)

/-- The value of a connective. -/
def BoolOp.apply (op : BoolOp) (l r : Bool) : Except EvalError Bool :=
  match op with
  | .and => .ok (l && r)
  | .or => .ok (l || r)
  | .other s => .error (.operator .boolean s)

/-- The value of an arithmetic expression. -/
def AExpr.eval (m : Memory) : AExpr → Except EvalError Value
  | .int n => .ok (.int n)
  | .var x =>
    match m.get? x with
    | some v => .ok v
    | none => .error (.unbound x)
  | .binary op a b => do
    let l ← a.eval m
    let r ← b.eval m
    op.apply l r
  | .hole => .error (.hole .arithmetic)

/-- The value of a boolean expression. -/
def BExpr.eval (m : Memory) : BExpr → Except EvalError Bool
  | .lit b => .ok b
  | .not a => do
    let v ← a.eval m
    return !v
  | .binary op a b => do
    let l ← a.eval m
    let r ← b.eval m
    op.apply l r
  | .compare op a b => do
    let l ← a.eval m
    let r ← b.eval m
    op.apply l r
  | .hole => .error (.hole .boolean)

end ImpHost
