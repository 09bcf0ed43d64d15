import ImpHost.Program.Machine
import ImpHost.Proofs.Program.Normal
import ImpHost.Proofs.Program.Parsing

/-!
What expressions evaluate to, said without evaluating them.

On one side stands the mathematical reading of an expression: its value over the integers
(`AExpr.exact`), reduced to 64 bits once and for all, and its truth (`BExpr.Holds`). On the other
side stand the nodes of the expression in the order in which they are evaluated, each with what can
be wrong about it by itself (`Node.fault?`). An expression evaluates to what it denotes, unless a
node of it is at fault, and then fails for the first of them.

Main statement: `evaluation_is_exact`.
-/

namespace ImpHost

/-! ## Whole expressions -/

/-- No hole, and only operators of the language. -/
def AExpr.Whole : AExpr → Prop
  | .int _ | .var _ => True
  | .binary op a b => op.Known ∧ a.Whole ∧ b.Whole
  | .hole => False

/-- No hole, and only operators of the language. -/
def BExpr.Whole : BExpr → Prop
  | .lit _ => True
  | .not a => a.Whole
  | .binary op a b => op.Known ∧ a.Whole ∧ b.Whole
  | .compare op a b => op.Known ∧ a.Whole ∧ b.Whole
  | .hole => False

/-! ## What expressions denote -/

/-- The result of an operator over the integers. -/
def ArithOp.exact : ArithOp → Int → Int → Int
  | .add, a, b => a + b
  | .sub, a, b => a - b
  | .mul, a, b => a * b
  | .other _, _, _ => 0

/-- The value of an expression over the integers. What is no integer counts as zero. -/
def AExpr.exact (m : Memory) : AExpr → Int
  | .int n => n.toInt
  | .var x =>
    match m.get? x with
    | some (.int n) => n.toInt
    | _ => 0
  | .binary op a b => op.exact (a.exact m) (b.exact m)
  | .hole => 0

/-- What an expression denotes: a variable what it is bound to, and everything else its value over
the integers, reduced to 64 bits. -/
def AExpr.denoted (m : Memory) : AExpr → Value
  | .var x => (m.get? x).getD (.int 0)
  | e => .int (Int64.ofInt (e.exact m))

/-- The truth of a boolean expression. Integers are compared as they are after the reduction. -/
def BExpr.Holds (m : Memory) : BExpr → Prop
  | .lit b => b = true
  | .not a => ¬ a.Holds m
  | .binary .and a b => a.Holds m ∧ b.Holds m
  | .binary .or a b => a.Holds m ∨ b.Holds m
  | .compare .le a b => (a.exact m).bmod Int64.size ≤ (b.exact m).bmod Int64.size
  | .compare .eq a b => a.denoted m = b.denoted m
  | .binary (.other _) _ _ | .compare (.other _) _ _ | .hole => False

/-! ## Nodes and their faults -/

/-- The nodes of an expression, each after the nodes of its operands, from left to right. -/
def AExpr.nodes : AExpr → List Node
  | .int n => [.arith (.int n)]
  | .var x => [.arith (.var x)]
  | .binary op a b => a.nodes ++ (b.nodes ++ [.arith (.binary op a b)])
  | .hole => [.arith .hole]

/-- The nodes of an expression, each after the nodes of its operands, from left to right. -/
def BExpr.nodes : BExpr → List Node
  | .lit b => [.bool (.lit b)]
  | .not a => a.nodes ++ [.bool (.not a)]
  | .binary op a b => a.nodes ++ (b.nodes ++ [.bool (.binary op a b)])
  | .compare op a b => a.nodes ++ (b.nodes ++ [.bool (.compare op a b)])
  | .hole => [.bool .hole]

/-- The kind of the values of an expression; none for a variable that is not bound. -/
def AExpr.kind? (m : Memory) : AExpr → Option Value.Kind
  | .var x => (m.get? x).map Value.kind
  | .int _ | .binary _ _ _ => some .int
  | .hole => none

/-- The fault of an operator whose operands have kinds that it does not take. If an operand has no
kind, the fault is not with the operator. -/
def operandFault? (op : String) (takes : Value.Kind → Value.Kind → Bool) :
    Option Value.Kind → Option Value.Kind → Option EvalError
  | some k, some l => if takes k l then none else some (.operands op k l)
  | _, _ => none

/-- What is wrong about a node by itself: a variable is not bound, an operator of arithmetic or
order has an operand that is no integer, or the operands of an equality have different kinds. -/
def Node.fault? (m : Memory) : Node → Option EvalError
  | .arith (.var x) => if (m.get? x).isSome then none else some (.unbound x)
  | .arith (.binary op a b) =>
    operandFault? op.spelling (fun k l => k = .int ∧ l = .int) (a.kind? m) (b.kind? m)
  | .bool (.compare .le a b) =>
    operandFault? "<=" (fun k l => k = .int ∧ l = .int) (a.kind? m) (b.kind? m)
  | .bool (.compare .eq a b) => operandFault? "=" (fun k l => k = l) (a.kind? m) (b.kind? m)
  | _ => none

/-- The first fault among nodes. -/
def firstFault? (m : Memory) (nodes : List Node) : Option EvalError :=
  nodes.findSome? (Node.fault? m)

/-- The result fails for the fault if there is one, and otherwise has a value that is good. -/
def Told {α : Type} (fault? : Option EvalError) (good : α → Prop) : Except EvalError α → Prop
  | .error why => fault? = some why
  | .ok v => fault? = none ∧ good v

namespace Told

variable {α β : Type} {fault? fault'? : Option EvalError} {good : α → Prop} {good' : β → Prop}
  {x : Except EvalError α}

/-- What is evaluated first is at fault first. -/
theorem bind {next : α → Except EvalError β} (first : Told fault? good x)
    (later : ∀ v, good v → Told fault'? good' (next v)) :
    Told (fault?.or fault'?) good' (x >>= next) := by
  cases x with
  | error why =>
    have isFault : fault? = some why := first
    rw [isFault]
    exact rfl
  | ok v =>
    obtain ⟨none, isGood⟩ := first
    rw [none]
    exact later v isGood

theorem eq_error_iff (told : Told fault? good x) (why : EvalError) :
    x = .error why ↔ fault? = some why := by
  cases x with
  | error why' =>
    have isFault : fault? = some why' := told
    rw [isFault, Except.error.injEq, Option.some.injEq]
  | ok v =>
    obtain ⟨none, -⟩ := told
    rw [none]
    constructor <;> nofun

theorem good_of_ok {v : α} (told : Told fault? good x) (ok : x = .ok v) : good v := by
  cases ok
  exact told.2

theorem exists_ok (told : Told none good x) : ∃ v, x = .ok v := by
  cases x with
  | error => cases told
  | ok v => exact ⟨v, rfl⟩

end Told

variable {m : Memory}

theorem firstFault?_append (m : Memory) (ns ns' : List Node) :
    firstFault? m (ns ++ ns') = (firstFault? m ns).or (firstFault? m ns') :=
  List.findSome?_append

theorem firstFault?_singleton (m : Memory) (n : Node) : firstFault? m [n] = n.fault? m := by
  rw [firstFault?, List.findSome?_singleton]

/-! ## Operators -/

/-- What the value of an arithmetic expression is. -/
def AExpr.Yields (m : Memory) (e : AExpr) (v : Value) : Prop :=
  v = e.denoted m ∧ e.kind? m = some v.kind

/-- What the value of a boolean expression is. -/
def BExpr.Yields (m : Memory) (e : BExpr) (v : Bool) : Prop :=
  v = true ↔ e.Holds m

/-- An integer that is denoted is the exact value, reduced. -/
theorem AExpr.Yields.eq_ofInt {e : AExpr} {n : Int64} (yields : e.Yields m (.int n)) :
    n = Int64.ofInt (e.exact m) := by
  obtain ⟨isInt, -⟩ := yields
  cases e with
  | var x =>
    rw [denoted] at isInt
    rw [exact]
    cases found : m.get? x with
    | none =>
      rw [found] at isInt
      cases isInt
      rfl
    | some v =>
      rw [found] at isInt
      cases isInt
      exact (Int64.ofInt_toInt n).symm
  | int | binary | hole =>
    cases isInt
    rfl

/-- An operator of arithmetic is at fault unless both operands are integers. Its result is the exact
one, reduced. -/
theorem ArithOp.told_apply {op : ArithOp} (known : op.Known) {a b : AExpr} {l r : Value}
    (left : a.Yields m l) (right : b.Yields m r) :
    Told (Node.fault? m (.arith (.binary op a b))) ((AExpr.binary op a b).Yields m)
      (op.apply l r) := by
  rw [Node.fault?, left.2, right.2]
  cases l with
  | bool => cases r <;> exact rfl
  | int i =>
    cases r with
    | bool => exact rfl
    | int j =>
      cases left.eq_ofInt
      cases right.eq_ofInt
      cases op with
      | add => exact ⟨rfl, congrArg Value.int (Int64.ofInt_add ..).symm, rfl⟩
      | sub => exact ⟨rfl, congrArg Value.int (Int64.ofInt_sub ..).symm, rfl⟩
      | mul => exact ⟨rfl, congrArg Value.int (Int64.ofInt_mul ..).symm, rfl⟩
      | other => exact known.elim

/-- An order is at fault unless both operands are integers, and an equality unless they are of one
kind. -/
theorem CompareOp.told_apply {op : CompareOp} (known : op.Known) {a b : AExpr} {l r : Value}
    (left : a.Yields m l) (right : b.Yields m r) :
    Told (Node.fault? m (.bool (.compare op a b))) ((BExpr.compare op a b).Yields m)
      (op.apply l r) := by
  cases op with
  | le =>
    rw [Node.fault?, left.2, right.2]
    cases l with
    | bool => cases r <;> exact rfl
    | int i =>
      cases r with
      | bool => exact rfl
      | int j =>
        refine ⟨rfl, ?_⟩
        rw [BExpr.Yields, decide_eq_true_iff, BExpr.Holds, left.eq_ofInt, right.eq_ofInt,
          Int64.le_iff_toInt_le, Int64.toInt_ofInt, Int64.toInt_ofInt]
  | eq =>
    -- Equality looks at what the operands denote, which need not be integers.
    rw [Node.fault?, left.2, right.2, apply, operandFault?]
    by_cases same : l.kind = r.kind
    · rw [if_pos same, decide_eq_true same]
      refine ⟨rfl, ?_⟩
      rw [BExpr.Yields, decide_eq_true_iff, BExpr.Holds, left.1, right.1]
    · rw [if_neg same, decide_eq_false same]
      exact rfl
  | other => exact known.elim

theorem BoolOp.told_apply {op : BoolOp} (known : op.Known) {a b : BExpr} {l r : Bool}
    (left : a.Yields m l) (right : b.Yields m r) :
    Told none ((BExpr.binary op a b).Yields m) (op.apply l r) := by
  cases op with
  | and => exact ⟨rfl, Bool.and_eq_true_iff.trans (and_congr left right)⟩
  | or => exact ⟨rfl, Bool.or_eq_true_iff.trans (or_congr left right)⟩
  | other => exact known.elim

/-! ## Expressions -/

/-- An arithmetic expression evaluates to what it denotes, unless a node is at fault. -/
theorem AExpr.told_eval {e : AExpr} (whole : e.Whole) :
    Told (firstFault? m e.nodes) (e.Yields m) (e.eval m) := by
  induction e with
  | int n =>
    rw [nodes, firstFault?_singleton]
    exact ⟨rfl, congrArg Value.int (Int64.ofInt_toInt n).symm, rfl⟩
  | var x =>
    rw [nodes, firstFault?_singleton, Node.fault?, eval]
    cases found : m.get? x with
    | none => exact rfl
    | some v =>
      refine ⟨rfl, ?_, ?_⟩
      · rw [denoted, found, Option.getD_some]
      · rw [kind?, found, Option.map_some]
  | binary op a b left right =>
    obtain ⟨known, wholeLeft, wholeRight⟩ := whole
    -- The order of the nodes is that of the evaluation: left, right, and then the operator.
    rw [nodes, firstFault?_append, firstFault?_append, firstFault?_singleton]
    refine (left wholeLeft).bind fun l yieldsLeft => ?_
    refine (right wholeRight).bind fun r yieldsRight => ?_
    exact ArithOp.told_apply known yieldsLeft yieldsRight
  | hole => exact whole.elim

/-- A boolean expression evaluates to its truth, unless a node is at fault. Both operands of a
connective are evaluated, so that a fault of either is one of the whole. -/
theorem BExpr.told_eval {e : BExpr} (whole : e.Whole) :
    Told (firstFault? m e.nodes) (e.Yields m) (e.eval m) := by
  induction e with
  | lit b =>
    rw [nodes, firstFault?_singleton]
    exact ⟨rfl, Iff.rfl⟩
  | not a inner =>
    rw [nodes, firstFault?_append, firstFault?_singleton]
    refine (inner whole).bind fun v yields => ⟨rfl, ?_⟩
    rw [Yields, Bool.not_eq_true', ← Bool.not_eq_true]
    exact not_congr yields
  | binary op a b left right =>
    obtain ⟨known, wholeLeft, wholeRight⟩ := whole
    rw [nodes, firstFault?_append, firstFault?_append, firstFault?_singleton]
    refine (left wholeLeft).bind fun l yieldsLeft => ?_
    refine (right wholeRight).bind fun r yieldsRight => ?_
    exact BoolOp.told_apply known yieldsLeft yieldsRight
  | compare op a b =>
    obtain ⟨known, wholeLeft, wholeRight⟩ := whole
    rw [nodes, firstFault?_append, firstFault?_append, firstFault?_singleton]
    refine (AExpr.told_eval wholeLeft).bind fun l yieldsLeft => ?_
    refine (AExpr.told_eval wholeRight).bind fun r yieldsRight => ?_
    exact CompareOp.told_apply known yieldsLeft yieldsRight
  | hole => exact whole.elim

/-! ## Operands that evaluate -/

/-- A variable is bound, and the operands of an operator evaluate to what it takes. -/
def Node.Fits (m : Memory) : Node → Prop
  | .arith (.var x) => ∃ v, m.get? x = some v
  | .arith (.binary _ a b) | .bool (.compare .le a b) =>
    ∃ i j, a.eval m = .ok (.int i) ∧ b.eval m = .ok (.int j)
  | .bool (.compare .eq a b) => ∃ v w, a.eval m = .ok v ∧ b.eval m = .ok w ∧ v.kind = w.kind
  | _ => True

/-- The property of a node and of the nodes of its two operands. -/
theorem forall_mem_operands {P : Node → Prop} {ns ns' : List Node} {n : Node} :
    (∀ n' ∈ ns ++ (ns' ++ [n]), P n') ↔ (∀ n' ∈ ns, P n') ∧ (∀ n' ∈ ns', P n') ∧ P n := by
  rw [List.forall_mem_append, List.forall_mem_append, List.forall_mem_singleton]

/-- If an operation has a value, then so have its operands. -/
theorem operands_of_bind {α β γ : Type} {x : Except EvalError α} {y : Except EvalError β}
    {op : α → β → Except EvalError γ} {v : γ}
    (ok : (do let l ← x; let r ← y; op l r) = .ok v) :
    ∃ l r, x = .ok l ∧ y = .ok r ∧ op l r = .ok v := by
  obtain ⟨l, left, ok⟩ := bind_eq_ok.1 ok
  obtain ⟨r, right, ok⟩ := bind_eq_ok.1 ok
  exact ⟨l, r, left, right, ok⟩

theorem ArithOp.ints_of_apply {op : ArithOp} {l r v : Value} (ok : op.apply l r = .ok v) :
    ∃ i j, l = .int i ∧ r = .int j := by
  cases l with
  | bool => cases ok
  | int i =>
    cases r with
    | bool => cases ok
    | int j => exact ⟨i, j, rfl, rfl⟩

/-- All nodes of an arithmetic expression with a value fit. -/
theorem AExpr.fits_of_eval {e : AExpr} {v : Value} (ok : e.eval m = .ok v) :
    ∀ n ∈ e.nodes, n.Fits m := by
  induction e generalizing v with
  | int n => exact List.forall_mem_singleton.2 trivial
  | var x =>
    refine List.forall_mem_singleton.2 ?_
    rw [eval] at ok
    cases found : m.get? x with
    | none =>
      rw [found] at ok
      cases ok
    | some w => exact ⟨w, found⟩
  | binary op a b left right =>
    obtain ⟨l, r, okLeft, okRight, ok⟩ := operands_of_bind ok
    obtain ⟨i, j, rfl, rfl⟩ := ArithOp.ints_of_apply ok
    exact forall_mem_operands.2 ⟨left okLeft, right okRight, i, j, okLeft, okRight⟩
  | hole => cases ok

theorem CompareOp.fits_of_apply {op : CompareOp} {a b : AExpr} {l r : Value} {v : Bool}
    (left : a.eval m = .ok l) (right : b.eval m = .ok r) (ok : op.apply l r = .ok v) :
    Node.Fits m (.bool (.compare op a b)) := by
  cases op with
  | le =>
    cases l with
    | bool => cases ok
    | int i =>
      cases r with
      | bool => cases ok
      | int j => exact ⟨i, j, left, right⟩
  | eq =>
    by_cases same : l.kind = r.kind
    · exact ⟨l, r, left, right, same⟩
    · rw [apply, if_neg same] at ok
      cases ok
  | other => exact trivial

/-- All nodes of a boolean expression with a value fit. -/
theorem BExpr.fits_of_eval {e : BExpr} {v : Bool} (ok : e.eval m = .ok v) :
    ∀ n ∈ e.nodes, n.Fits m := by
  induction e generalizing v with
  | lit b => exact List.forall_mem_singleton.2 trivial
  | not a inner =>
    obtain ⟨w, ok, -⟩ := bind_eq_ok.1 ok
    exact List.forall_mem_append.2 ⟨inner ok, List.forall_mem_singleton.2 trivial⟩
  | binary op a b left right =>
    obtain ⟨l, r, okLeft, okRight, -⟩ := operands_of_bind ok
    exact forall_mem_operands.2 ⟨left okLeft, right okRight, trivial⟩
  | compare op a b =>
    obtain ⟨l, r, okLeft, okRight, ok⟩ := operands_of_bind ok
    exact forall_mem_operands.2 ⟨AExpr.fits_of_eval okLeft, AExpr.fits_of_eval okRight,
      CompareOp.fits_of_apply okLeft okRight ok⟩
  | hole => cases ok

theorem AExpr.kind?_of_eval {e : AExpr} {v : Value} (ok : e.eval m = .ok v) :
    e.kind? m = some v.kind := by
  cases e with
  | int n =>
    cases ok
    rfl
  | var x =>
    obtain ⟨w, found⟩ := List.forall_mem_singleton.1 (fits_of_eval ok)
    rw [eval, found] at ok
    cases ok
    rw [kind?, found, Option.map_some]
  | binary op a b =>
    obtain ⟨l, r, -, -, ok⟩ := operands_of_bind ok
    obtain ⟨i, j, rfl, rfl⟩ := ArithOp.ints_of_apply ok
    cases op with
    | add | sub | mul =>
      cases ok
      rfl
    | other => cases ok
  | hole => cases ok

theorem operandFault?_of_takes {op : String} {takes : Value.Kind → Value.Kind → Bool}
    {a b : AExpr} {v w : Value} (left : a.eval m = .ok v) (right : b.eval m = .ok w)
    (fits : takes v.kind w.kind = true) :
    operandFault? op takes (a.kind? m) (b.kind? m) = none := by
  rw [AExpr.kind?_of_eval left, AExpr.kind?_of_eval right, operandFault?, if_pos fits]

/-- A node that fits is not at fault. The converse fails for a node whose operands have no value:
the fault is then theirs. -/
theorem Node.fault?_of_fits {n : Node} (fits : n.Fits m) : n.fault? m = none := by
  unfold fault?
  split
  · obtain ⟨v, found⟩ := fits
    rw [found, Option.isSome_some, if_pos rfl]
  · obtain ⟨i, j, left, right⟩ := fits
    exact operandFault?_of_takes left right rfl
  · obtain ⟨i, j, left, right⟩ := fits
    exact operandFault?_of_takes left right rfl
  · obtain ⟨v, w, left, right, same⟩ := fits
    exact operandFault?_of_takes left right (decide_eq_true same)
  · rfl

theorem firstFault?_of_fits {ns : List Node} (fits : ∀ n ∈ ns, n.Fits m) :
    firstFault? m ns = none :=
  List.findSome?_eq_none_iff.2 fun n member => Node.fault?_of_fits (fits n member)

/-! ## Reports -/

/-- The operation of a node that takes values: how its operator is spelt, and its operands. -/
def Node.operation? : Node → Option (String × AExpr × AExpr)
  | .arith (.binary op a b) => some (op.spelling, a, b)
  | .bool (.compare op a b) => some (op.spelling, a, b)
  | _ => none

/-- What is told of a fault of a node: the name of the variable, or the operator and the kinds of
its operands. -/
inductive Node.Tells (m : Memory) : Node → EvalError → Prop
  | unbound {x : String} : m.get? x = none → Tells m (.arith (.var x)) (.unbound x)
  | operands {n : Node} {op : String} {a b : AExpr} {k l : Value.Kind} :
    n.operation? = some (op, a, b) → a.kind? m = some k → b.kind? m = some l →
    Tells m n (.operands op k l)

theorem of_operandFault? {op : String} {takes : Value.Kind → Value.Kind → Bool}
    {left right : Option Value.Kind} {why : EvalError}
    (fault : operandFault? op takes left right = some why) :
    ∃ k l, left = some k ∧ right = some l ∧ why = .operands op k l := by
  unfold operandFault? at fault
  split at fault
  · split at fault
    · cases fault
    · cases fault
      exact ⟨_, _, rfl, rfl, rfl⟩
  · cases fault

theorem Node.tells_of_fault? {n : Node} {why : EvalError} (fault : n.fault? m = some why) :
    n.Tells m why := by
  unfold fault? at fault
  split at fault
  · split at fault
    · cases fault
    · next unbound =>
      cases fault
      exact .unbound (Option.not_isSome_iff_eq_none.1 unbound)
  · obtain ⟨k, l, left, right, rfl⟩ := of_operandFault? fault
    exact .operands rfl left right
  · obtain ⟨k, l, left, right, rfl⟩ := of_operandFault? fault
    exact .operands rfl left right
  · obtain ⟨k, l, left, right, rfl⟩ := of_operandFault? fault
    exact .operands rfl left right
  · cases fault

theorem exists_of_firstFault? {ns : List Node} {why : EvalError}
    (fault : firstFault? m ns = some why) : ∃ n ∈ ns, n.Tells m why := by
  obtain ⟨n, member, fault⟩ := List.exists_of_findSome?_eq_some fault
  exact ⟨n, member, Node.tells_of_fault? fault⟩

/-! ## The store -/

/-- A step changes the store by the assignment that it makes only. -/
theorem Command.memory_of_step {c : Command} {k : List Command} {machine : Machine}
    (ok : c.step k m = .ok machine) :
    machine.memory = m ∨
      ∃ x e v, c = .assign x e ∧ e.eval m = .ok v ∧ machine.memory = m.set x v := by
  cases c with
  | skip | seq =>
    cases ok
    exact .inl rfl
  | assign x e =>
    obtain ⟨v, value, ok⟩ := bind_eq_ok.1 ok
    cases ok
    exact .inr ⟨x, e, v, rfl, value, rfl⟩
  | ite | whileDo =>
    obtain ⟨v, -, ok⟩ := bind_eq_ok.1 ok
    cases ok
    exact .inl rfl
  | hole => cases ok

/-! ## Main statement -/

/-- An expression without holes and with operators of the language only has a value if and only if
every variable in it is bound, the operands of every operator of arithmetic or order evaluate to
integers and those of every equality to values of one kind. The value of an operation is the exact
one over the integers, reduced to 64 bits, and a boolean expression has its classical truth. Without
a value, it fails for the first node at fault, operands before operators and from left to right. The
fault of a variable tells its name, and that of an operator how it is spelt and the kinds of its
operands. No evaluation changes the store: a step does so only by the assignment that it makes. -/
theorem evaluation_is_exact (m : Memory) :
    (∀ e : AExpr, e.Whole →
      ((∃ v, e.eval m = .ok v) ↔ ∀ n ∈ e.nodes, n.Fits m) ∧
      (∀ v, e.eval m = .ok v → v = e.denoted m) ∧
      (∀ i, e.eval m = .ok (.int i) → i.toInt = (e.exact m).bmod Int64.size) ∧
      ∀ why, e.eval m = .error why ↔ firstFault? m e.nodes = some why) ∧
    (∀ e : BExpr, e.Whole →
      ((∃ v, e.eval m = .ok v) ↔ ∀ n ∈ e.nodes, n.Fits m) ∧
      (∀ v, e.eval m = .ok v → (v = true ↔ e.Holds m)) ∧
      ∀ why, e.eval m = .error why ↔ firstFault? m e.nodes = some why) ∧
    (∀ (n : Node) (why : EvalError), n.fault? m = some why →
      (∃ x, n = .arith (.var x) ∧ m.get? x = none ∧ why.report? = some (.unbound x)) ∨
      ∃ op a b k l, n.operation? = some (op, a, b) ∧ a.kind? m = some k ∧ b.kind? m = some l ∧
        why.report? = some (.type
          ("unsupported operand types for " ++ op ++ ": " ++ k.name ++ " and " ++ l.name))) ∧
    ∀ (c : Command) (k : List Command) (machine : Machine), c.step k m = .ok machine →
      machine.memory = m ∨
        ∃ x e v, c = .assign x e ∧ e.eval m = .ok v ∧ machine.memory = m.set x v := by
  refine ⟨fun e whole => ?_, fun e whole => ?_, fun n why fault => ?_, fun c k machine ok => ?_⟩
  · have told := AExpr.told_eval (m := m) whole
    refine ⟨⟨fun ⟨v, ok⟩ => AExpr.fits_of_eval ok, fun fits => ?_⟩,
      fun v ok => (told.good_of_ok ok).1, fun i ok => ?_, told.eq_error_iff⟩
    · rw [firstFault?_of_fits fits] at told
      exact told.exists_ok
    · rw [(told.good_of_ok ok).eq_ofInt, Int64.toInt_ofInt]
  · have told := BExpr.told_eval (m := m) whole
    refine ⟨⟨fun ⟨v, ok⟩ => BExpr.fits_of_eval ok, fun fits => ?_⟩,
      fun v ok => told.good_of_ok ok, told.eq_error_iff⟩
    rw [firstFault?_of_fits fits] at told
    exact told.exists_ok
  · cases Node.tells_of_fault? fault with
    | unbound unbound => exact .inl ⟨_, rfl, unbound, rfl⟩
    | operands operation left right =>
      exact .inr ⟨_, _, _, _, _, operation, left, right, rfl⟩
  · exact Command.memory_of_step ok

/-- With the greatest integer for `x`, the inner operation of `(x + 1) - x` wraps around and the
whole is exact all the same. An addition of an integer and a boolean is at fault before a variable
to the right of it that is not bound, also behind a connective that the left operand settles. -/
theorem evaluation_is_exact_wrapped :
    let m : Memory := Table.set (Table.set ∅ "x" (.int Int64.maxValue)) "y" (.bool true)
    let next : AExpr := .binary .add (.var "x") (.int 1)
    let back : AExpr := .binary .sub next (.var "x")
    let mixed : AExpr := .binary .add (.var "x") (.var "y")
    let test : BExpr := .binary .or (.lit true) (.compare .le mixed (.var "z"))
    next.eval m = .ok (.int Int64.minValue) ∧ back.eval m = .ok (.int 1) ∧
      (1 : Int64).toInt = (back.exact m).bmod Int64.size ∧
      test.eval m = .error (.operands "+" .int .bool) := by
  intro m next back mixed test
  have value : back.eval m = .ok (.int 1) := rfl
  have fault : firstFault? m test.nodes = some (.operands "+" .int .bool) := by decide
  obtain ⟨ariths, bools, -⟩ := evaluation_is_exact m
  obtain ⟨-, -, exact, -⟩ := ariths back ⟨trivial, ⟨trivial, trivial, trivial⟩, trivial⟩
  obtain ⟨-, -, fails⟩ :=
    bools test ⟨trivial, trivial, trivial, ⟨trivial, trivial, trivial⟩, trivial⟩
  exact ⟨rfl, value, exact 1 value, (fails _).2 fault⟩

end ImpHost
