import ImpHost.Proofs.Manifest
import ImpHost.Proofs.Program.Evaluation
import ImpHost.Proofs.Program.Variables

/-!
Evaluation never takes a value for one of the other kind, and programs fail in few ways only.

A boolean expression evaluates to a truth value, and an operator of arithmetic gets at the integers
in its operands by looking at them. An interpreter whose expressions all have values that carry
their kind takes an integer or a truth value out of them instead, and is lost if it is not there.
`Machine.runChecked` is that interpreter, and it does the same as `Machine.run`.

Main statement: `Machine.run_is_safe`.
-/

namespace ImpHost

variable {σ ε : Type} {m : Memory}

/-! ## Values that carry their kind -/

/-- How an interpreter that checks kinds ends without a result. -/
inductive Halt where
  /-- The program fails. -/
  | fails (why : EvalError)
  /-- The value was taken for one of the other kind. -/
  | misuses (v : Value)
deriving DecidableEq

namespace Value

/-- The integer that a value must be. -/
def asInt : Value → Except Halt Int64
  | .int n => .ok n
  | .bool b => .error (.misuses (.bool b))

/-- The truth value that a value must be. -/
def asBool : Value → Except Halt Bool
  | .bool b => .ok b
  | .int n => .error (.misuses (.int n))

/-- The integers that both operands of an operator must be, if their kinds say so. -/
def asInts (op : String) (l r : Value) : Except Halt (Int64 × Int64) :=
  if l.kind = .int ∧ r.kind = .int then do
    return (← l.asInt, ← r.asInt)
  else .error (.fails (.operands op l.kind r.kind))

end Value

/-- The value of an arithmetic expression. -/
def AExpr.evalChecked (m : Memory) : AExpr → Except Halt Value
  | .int n => .ok (.int n)
  | .var x =>
    match m.get? x with
    | some v => .ok v
    | none => .error (.fails (.unbound x))
  | .binary op a b => do
    let l ← a.evalChecked m
    let r ← b.evalChecked m
    let (i, j) ← Value.asInts op.spelling l r
    match op with
    | .add => return .int (i + j)
    | .sub => return .int (i - j)
    | .mul => return .int (i * j)
    | .other s => .error (.fails (.operator .arithmetic s))
  | .hole => .error (.fails (.hole .arithmetic))

/-- The value of a boolean expression. It is taken for a truth value wherever it is used. -/
def BExpr.evalChecked (m : Memory) : BExpr → Except Halt Value
  | .lit b => .ok (.bool b)
  | .not a => do
    let v ← a.evalChecked m
    return .bool (!(← v.asBool))
  | .binary op a b => do
    let l ← a.evalChecked m
    let r ← b.evalChecked m
    match op with
    | .and => return .bool ((← l.asBool) && (← r.asBool))
    | .or => return .bool ((← l.asBool) || (← r.asBool))
    | .other s => .error (.fails (.operator .boolean s))
  | .compare op a b => do
    let l ← a.evalChecked m
    let r ← b.evalChecked m
    match op with
    | .le =>
      let (i, j) ← Value.asInts "<=" l r
      return .bool (i ≤ j)
    | .eq =>
      if l.kind = r.kind then return .bool (l = r)
      else .error (.fails (.operands "=" l.kind r.kind))
    | .other s => .error (.fails (.operator .comparison s))
  | .hole => .error (.fails (.hole .boolean))

/-- One step of a run, as in `Command.step`. -/
def Command.stepChecked (c : Command) (k : List Command) (m : Memory) : Except Halt Machine :=
  match c with
  | .skip => .ok ⟨k, m⟩
  | .assign x e => do
    let v ← e.evalChecked m
    return ⟨k, m.set x v⟩
  | .seq a b => .ok ⟨a :: b :: k, m⟩
  | .ite e a b => do
    let v ← e.evalChecked m
    return ⟨(if ← v.asBool then a else b) :: k, m⟩
  | .whileDo e a => do
    let v ← e.evalChecked m
    return ⟨if ← v.asBool then a :: .whileDo e a :: k else k, m⟩
  | .hole => .error (.fails (.hole .command))

/-- Runs for at most `fuel` steps, as `Machine.run` does. The run is lost with a value that was
taken for one of the other kind. -/
def Machine.runChecked (hook : Hook σ ε) : (fuel : Nat) → σ → Machine → Except Value (Outcome σ ε)
  | _, s, ⟨[], m⟩ => .ok (.done s m)
  | 0, s, machine => .ok (.running s machine)
  | fuel + 1, s, ⟨c :: k, m⟩ =>
    match hook s c with
    | (s, some e) => .ok (.failed (.host e) s m)
    | (s, none) =>
      match c.stepChecked k m with
      | .ok machine => runChecked hook fuel s machine
      | .error (.fails why) => .ok (.failed (.program why) s m)
      | .error (.misuses v) => .error v

/-! ## No value is misused -/

/-- An arithmetic expression of any shape has the same value, and no operand is misused. -/
theorem AExpr.evalChecked_eq (m : Memory) (e : AExpr) :
    e.evalChecked m = (e.eval m).mapError .fails := by
  induction e with
  | int | hole => rfl
  | var x =>
    rw [evalChecked, eval]
    cases m.get? x <;> rfl
  | binary op a b left right =>
    rw [evalChecked, eval, left, right]
    cases a.eval m with
    | error => rfl
    | ok l =>
      cases b.eval m with
      | error => rfl
      | ok r => cases l <;> cases r <;> cases op <;> rfl

/-- A boolean expression of any shape has a truth value, and no operand is misused. -/
theorem BExpr.evalChecked_eq (m : Memory) (e : BExpr) :
    e.evalChecked m = ((e.eval m).map Value.bool).mapError .fails := by
  induction e with
  | lit | hole => rfl
  | not a inner =>
    rw [evalChecked, eval, inner]
    cases a.eval m <;> rfl
  | binary op a b left right =>
    rw [evalChecked, eval, left, right]
    cases a.eval m with
    | error => rfl
    | ok l =>
      cases b.eval m with
      | error => rfl
      | ok r => cases op <;> rfl
  | compare op a b =>
    rw [evalChecked, eval, AExpr.evalChecked_eq, AExpr.evalChecked_eq]
    cases a.eval m with
    | error => rfl
    | ok l =>
      cases b.eval m with
      | error => rfl
      | ok r =>
        cases op with
        | le => cases l <;> cases r <;> rfl
        | eq => cases l <;> cases r <;> rfl
        | other => rfl

theorem Command.stepChecked_eq (c : Command) (k : List Command) (m : Memory) :
    c.stepChecked k m = (c.step k m).mapError .fails := by
  cases c with
  | skip | seq | hole => rfl
  | assign x e =>
    rw [stepChecked, step, AExpr.evalChecked_eq]
    cases e.eval m <;> rfl
  | ite e a b =>
    rw [stepChecked, step, BExpr.evalChecked_eq]
    cases e.eval m <;> rfl
  | whileDo e a =>
    rw [stepChecked, step, BExpr.evalChecked_eq]
    cases e.eval m <;> rfl

/-- A run from any machine and with any host is never lost. -/
theorem Machine.runChecked_eq (hook : Hook σ ε) (fuel : Nat) (s : σ) (machine : Machine) :
    runChecked hook fuel s machine = .ok (run hook fuel s machine) := by
  induction fuel generalizing s machine with
  | zero =>
    obtain ⟨pending, m⟩ := machine
    cases pending <;> rfl
  | succ fuel ih =>
    obtain ⟨pending, m⟩ := machine
    cases pending with
    | nil => rfl
    | cons c k =>
      rw [runChecked, run, Command.stepChecked_eq]
      obtain ⟨t, stop⟩ := hook s c
      cases stop with
      | some e => rfl
      | none =>
        cases c.step k m with
        | error => rfl
        | ok machine => exact ih t machine

/-! ## Names at fault -/

theorem AExpr.mem_vars_of_nodes {e : AExpr} {x : String} (member : .arith (.var x) ∈ e.nodes) :
    x ∈ e.vars := by
  induction e with
  | int | hole => simp [nodes] at member
  | var y => simpa [nodes, vars] using member
  | binary op a b left right =>
    simp only [nodes, List.mem_append, List.mem_singleton, Node.arith.injEq, reduceCtorEq,
      or_false] at member
    exact List.mem_append.2 (member.imp left right)

theorem BExpr.mem_vars_of_nodes {e : BExpr} {x : String} (member : .arith (.var x) ∈ e.nodes) :
    x ∈ e.vars := by
  induction e with
  | lit | hole => simp [nodes] at member
  | not a inner =>
    simp only [nodes, List.mem_append, List.mem_singleton, reduceCtorEq, or_false] at member
    exact inner member
  | binary op a b left right =>
    simp only [nodes, List.mem_append, List.mem_singleton, reduceCtorEq, or_false] at member
    exact List.mem_append.2 (member.imp left right)
  | compare op a b =>
    simp only [nodes, List.mem_append, List.mem_singleton, reduceCtorEq, or_false] at member
    exact List.mem_append.2 (member.imp AExpr.mem_vars_of_nodes AExpr.mem_vars_of_nodes)

/-- The failures of a program that was read from a source: a name that is shown is not bound in the
store, or an operator does not take the kinds of its operands. -/
inductive EvalError.Documented (shown : String → Prop) (m : Memory) : EvalError → Prop
  | unbound {x : String} : shown x → m.get? x = none → Documented shown m (.unbound x)
  | operands {op : String} {k l : Value.Kind} : Documented shown m (.operands op k l)

variable {shown : String → Prop} {why : EvalError}

theorem documented_of_firstFault? {ns : List Node}
    (within : ∀ x, .arith (.var x) ∈ ns → shown x) (fault : firstFault? m ns = some why) :
    why.Documented shown m := by
  obtain ⟨n, member, tells⟩ := exists_of_firstFault? fault
  cases tells with
  | unbound unbound => exact .unbound (within _ member) unbound
  | operands => exact .operands

theorem AExpr.WellFormed.whole {e : AExpr} (wf : e.WellFormed) : e.Whole := by
  induction e with
  | int | var => exact trivial
  | binary op a b left right => exact ⟨wf.1, left wf.2.1, right wf.2.2⟩
  | hole => exact wf

theorem BExpr.WellFormed.whole {e : BExpr} (wf : e.WellFormed) : e.Whole := by
  induction e with
  | lit => exact trivial
  | not a inner => exact inner wf
  | binary op a b left right => exact ⟨wf.1, left wf.2.1, right wf.2.2⟩
  | compare op a b => exact ⟨wf.1, AExpr.WellFormed.whole wf.2.1, AExpr.WellFormed.whole wf.2.2⟩
  | hole => exact wf

theorem AExpr.documented_of_eval {e : AExpr} (wf : e.WellFormed) (within : ∀ x ∈ e.vars, shown x)
    (fails : e.eval m = .error why) : why.Documented shown m := by
  have fault := ((told_eval wf.whole).eq_error_iff why).1 fails
  exact documented_of_firstFault? (fun x member => within x (mem_vars_of_nodes member)) fault

theorem BExpr.documented_of_eval {e : BExpr} (wf : e.WellFormed) (within : ∀ x ∈ e.vars, shown x)
    (fails : e.eval m = .error why) : why.Documented shown m := by
  have fault := ((told_eval wf.whole).eq_error_iff why).1 fails
  exact documented_of_firstFault? (fun x member => within x (mem_vars_of_nodes member)) fault

/-! ## Programs that were read -/

namespace Command

/-- The command is well-formed, and no name but those that are shown occurs in it. -/
def ReadWithin (shown : String → Prop) (c : Command) : Prop :=
  c.WellFormed ∧ ∀ x ∈ c.vars, shown x

variable {c : Command} {k : List Command} {machine : Machine}

/-- The commands of a step are the parts of the first command and those behind it. -/
theorem readWithin_of_step (all : ∀ d ∈ c :: k, d.ReadWithin shown)
    (ok : c.step k m = .ok machine) : ∀ d ∈ machine.pending, d.ReadWithin shown := by
  obtain ⟨⟨wf, within⟩, rest⟩ := List.forall_mem_cons.1 all
  cases c with
  | skip =>
    cases ok
    exact rest
  | assign x e =>
    obtain ⟨v, -, ok⟩ := bind_eq_ok.1 ok
    cases ok
    exact rest
  | seq a b =>
    obtain ⟨inFirst, inSecond⟩ := List.forall_mem_append.1 within
    cases ok
    exact List.forall_mem_cons.2 ⟨⟨wf.1, inFirst⟩,
      List.forall_mem_cons.2 ⟨⟨wf.2, inSecond⟩, rest⟩⟩
  | ite e a b =>
    obtain ⟨-, inParts⟩ := List.forall_mem_append.1 within
    obtain ⟨inYes, inNo⟩ := List.forall_mem_append.1 inParts
    obtain ⟨v, -, ok⟩ := bind_eq_ok.1 ok
    cases ok
    refine List.forall_mem_cons.2 ⟨?_, rest⟩
    cases v with
    | true => exact ⟨wf.2.1, inYes⟩
    | false => exact ⟨wf.2.2, inNo⟩
  | whileDo e a =>
    obtain ⟨-, inBody⟩ := List.forall_mem_append.1 within
    obtain ⟨v, -, ok⟩ := bind_eq_ok.1 ok
    cases ok
    cases v with
    -- The loop itself stays behind its body.
    | true => exact List.forall_mem_cons.2 ⟨⟨wf.2, inBody⟩, all⟩
    | false => exact rest
  | hole => exact wf.elim

/-- What is made of a value is made of every value, so that only the value can fail. -/
theorem error_of_bind_return {α β : Type} {x : Except EvalError α} {f : α → β}
    (fails : (do let v ← x; return f v) = .error why) : x = .error why := by
  cases x with
  | error =>
    cases fails
    rfl
  | ok => cases fails

/-- A step of a command that was read fails for an expression in it. -/
theorem documented_of_step (read : c.ReadWithin shown) (fails : c.step k m = .error why) :
    why.Documented shown m := by
  obtain ⟨wf, within⟩ := read
  cases c with
  | skip | seq => cases fails
  | assign x e =>
    obtain ⟨-, inValue⟩ := List.forall_mem_cons.1 within
    exact AExpr.documented_of_eval wf.2 inValue (error_of_bind_return fails)
  | ite e a b =>
    obtain ⟨inTest, -⟩ := List.forall_mem_append.1 within
    exact BExpr.documented_of_eval wf.1 inTest (error_of_bind_return fails)
  | whileDo e a =>
    obtain ⟨inTest, -⟩ := List.forall_mem_append.1 within
    exact BExpr.documented_of_eval wf.1 inTest (error_of_bind_return fails)
  | hole => exact wf.elim

theorem readWithin_of_parse {source : Text} (parsed : parse source = .ok c) :
    c.ReadWithin (· ∈ c.vars) := by
  obtain ⟨wf, -⟩ := wellFormed_and_normal_of_readFrom (readFrom_of_parse parsed)
  exact ⟨wf, fun _ occurs => occurs⟩

end Command

/-- The run was stopped by the host, and for its own reason, or the program failed in a documented
way in the store that is left. -/
inductive Failure.Documented (hook : Hook σ ε) (shown : String → Prop) (s : σ) (m : Memory) :
    Failure ε → Prop
  | host {t : σ} {c : Command} {e : ε} :
    hook t c = (s, some e) → Documented hook shown s m (.host e)
  | program {why : EvalError} : why.Documented shown m → Documented hook shown s m (.program why)

/-- A run of commands that were read fails in a documented way only. -/
theorem Machine.documented_of_run {hook : Hook σ ε} {fuel : Nat} {s s' : σ} {machine : Machine}
    {m' : Memory} {why : Failure ε} (all : ∀ d ∈ machine.pending, d.ReadWithin shown)
    (failed : run hook fuel s machine = .failed why s' m') :
    why.Documented hook shown s' m' := by
  induction fuel generalizing s machine with
  | zero =>
    obtain ⟨pending, m⟩ := machine
    cases pending <;> cases failed
  | succ fuel ih =>
    obtain ⟨pending, m⟩ := machine
    cases pending with
    | nil => cases failed
    | cons c k =>
      cases told : (hook s c).2 with
      | some e =>
        rw [run_of_stop told] at failed
        cases failed
        exact .host (Prod.ext rfl told)
      | none =>
        cases step : c.step k m with
        | error why =>
          rw [run_of_error told step] at failed
          cases failed
          exact .program (Command.documented_of_step (all c List.mem_cons_self) step)
        | ok machine =>
          rw [run_of_ok told step] at failed
          exact ih (Command.readWithin_of_step all step) failed

/-! ## Engines -/

/-- The kinds of diagnostics with which an engine ends a run of a program that was read. -/
def Engine.kinds : List String :=
  [Diagnostic.Kind.unbound, Diagnostic.Kind.type, Diagnostic.Kind.limit, Diagnostic.Kind.cancelled]

theorem Interruption.kind_report (e : Interruption) : e.report.kind ∈ Engine.kinds := by
  have cancels : Diagnostic.Kind.cancelled ∈ Engine.kinds := by decide
  have limits : Diagnostic.Kind.limit ∈ Engine.kinds := by decide
  cases e with
  | context | cancelled => exact cancels
  | limit => exact limits

theorem EvalError.Documented.problem_eq (documented : why.Documented shown m) :
    ∃ d, why.problem = .ofDiagnostic d ∧ d.kind ∈ Engine.kinds := by
  cases documented with
  | unbound => exact ⟨_, rfl, List.mem_cons_self⟩
  | operands => exact ⟨_, rfl, List.mem_cons_of_mem _ List.mem_cons_self⟩

theorem Failure.Documented.problem_eq {hook : Hook σ Interruption} {s : σ}
    {why : Failure Interruption} (documented : why.Documented hook shown s m) :
    ∃ d, why.problem = .ofDiagnostic d ∧ d.kind ∈ Engine.kinds := by
  cases documented with
  | host => exact ⟨_, rfl, Interruption.kind_report _⟩
  | program documented => exact documented.problem_eq

/-- For every command, with holes and unknown operators or not, every store and every host, the
interpreter that checks the kinds of its values does the same as the one that does not need to, and
no value is taken for one of the other kind. A program that was read from a source fails only if the
host stops it, for the host's reason, if a name that occurs in it is not bound in the store as it
then is, or if an operator does not take the kinds of its operands. What an engine tells of such a
program's failure is a diagnostic of one of four kinds. -/
theorem Machine.run_is_safe :
    (∀ (m : Memory) (e : AExpr), e.evalChecked m = (e.eval m).mapError .fails) ∧
    (∀ (m : Memory) (e : BExpr),
      e.evalChecked m = ((e.eval m).map Value.bool).mapError .fails) ∧
    (∀ (σ ε : Type) (hook : Hook σ ε) (fuel : Nat) (s : σ) (machine : Machine),
      runChecked hook fuel s machine = .ok (run hook fuel s machine)) ∧
    ∀ (source : Text) (c : Command), Command.parse source = .ok c →
      (∀ (σ ε : Type) (hook : Hook σ ε) (fuel : Nat) (s s' : σ) (m m' : Memory) (why : Failure ε),
        run hook fuel s (.start c m) = .failed why s' m' →
        why.Documented hook (· ∈ c.vars) s' m') ∧
      ∀ (e : Engine) (context : Context) (fuel : Nat) (m : Memory) (why : Failure Interruption),
        e.program = c → (e.execute context fuel m).2 = .failed why →
        ∃ d, why.problem = .ofDiagnostic d ∧ d.kind ∈ Engine.kinds := by
  refine ⟨AExpr.evalChecked_eq, BExpr.evalChecked_eq, fun _ _ => runChecked_eq, ?_⟩
  intro source c parsed
  have read := List.forall_mem_singleton.2 (Command.readWithin_of_parse parsed)
  refine ⟨fun σ ε hook fuel s s' m m' why failed => documented_of_run read failed, ?_⟩
  rintro e context fuel m why rfl status
  obtain ⟨-, -, isStatus⟩ := Engine.execute_eq context fuel e m
  rw [isStatus] at status
  generalize outcome : run _ fuel _ (.start e.program m) = o at status
  cases o with
  | done | running => cases status
  | failed =>
    cases status
    exact (documented_of_run read outcome).problem_eq

/-- The program `x := y` from the empty store: a host that stops it tells why, and without one `y`
is not bound in the store that is left. -/
theorem Machine.run_is_safe_unbound :
    let c : Command := .assign "x" (.var "y")
    let strict : Hook Unit Nat := fun _ _ => ((), some 7)
    Command.parse "x := y" = .ok c ∧
      Failure.Documented strict (· ∈ c.vars) () ∅ (.host 7) ∧
      Failure.Documented freely (· ∈ c.vars) () ∅ (.program (.unbound "y")) ∧
      ∃ d, (EvalError.unbound "y").problem = .ofDiagnostic d ∧ d.kind ∈ Engine.kinds := by
  intro c strict
  have isX : Token.IsName "x" :=
    Token.isName_iff.2 ⟨'x', [], by decide, by decide, by simp, by decide⟩
  have isY : Token.IsName "y" :=
    Token.isName_iff.2 ⟨'y', [], by decide, by decide, by simp, by decide⟩
  have parsed : Command.parse "x := y" = .ok c :=
    Command.parse_of_readFrom (by decide) (Command.readFrom_format (c := c) ⟨isX, isY⟩)
  obtain ⟨runs, engines⟩ := run_is_safe.2.2.2 "x := y" c parsed
  exact ⟨parsed, runs _ _ strict 1 () () ∅ ∅ _ rfl, runs _ _ freely 1 () () ∅ ∅ _ rfl,
    engines (.new c 5) .background 1 ∅ (.program (.unbound "y")) rfl rfl⟩

end ImpHost
