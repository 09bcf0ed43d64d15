import Mathlib.Data.List.Perm.Basic
import ImpHost.Proofs.Engine.Budget
import ImpHost.Proofs.Program.Loop
import ImpHost.Proofs.Table

/-!
Programs and their variables.

A program looks at no binding of its store but those of the names that occur in it. Two runs from
stores that agree on these names stay in step, whatever else the stores bind and in whatever order
(`Machine.run_agree`): they ask the host about the same commands, fail for the same reason, and
their stores agree as long as they go on.

Main statement: `Command.run_reads_own_variables`.
-/

namespace ImpHost

variable {σ ε : Type}

/-! ## Names in a program -/

/-- The names that occur in an arithmetic expression. -/
def AExpr.vars : AExpr → List String
  | .int _ => []
  | .var x => [x]
  | .binary _ a b => a.vars ++ b.vars
  | .hole => []

/-- The names that occur in a boolean expression. -/
def BExpr.vars : BExpr → List String
  | .lit _ => []
  | .not a => a.vars
  | .binary _ a b => a.vars ++ b.vars
  | .compare _ a b => a.vars ++ b.vars
  | .hole => []

/-- The names that occur in a command, whether it reads or assigns them. -/
def Command.vars : Command → List String
  | .skip => []
  | .assign x e => x :: e.vars
  | .seq a b => a.vars ++ b.vars
  | .ite e a b => e.vars ++ (a.vars ++ b.vars)
  | .whileDo e a => e.vars ++ a.vars
  | .hole => []

/-! ## Stores that agree -/

namespace Memory

/-- The stores agree on the names that are shown: each is bound in both to one value, or in
neither. -/
def AgreeOn (shown : String → Prop) (m m' : Memory) : Prop :=
  ∀ x, shown x → m.get? x = m'.get? x

variable {shown : String → Prop} {m m' : Memory}

/-- Stores that agree still do when a name is bound to one value in both. -/
theorem AgreeOn.set (agree : m.AgreeOn shown m') (x : String) (v : Value) :
    AgreeOn shown (m.set x v) (m'.set x v) := by
  intro y isShown
  rw [Table.get?_set, Table.get?_set, agree y isShown]

/-- Stores are the same if and only if they answer alike. One side's names are enough to look at,
since a store with as many bindings has no room for others. -/
theorem same_iff : m.same m' = true ↔ ∀ x, m.get? x = m'.get? x := by
  have subset_iff : (m.entries.all fun e => m'.get? e.1 == some e.2) = true ↔
      m.entries ⊆ m'.entries := by
    rw [List.all_eq_true]
    refine forall_congr' fun e => imp_congr_right fun _ => ?_
    rw [beq_iff_eq, Table.get?_eq_some_iff]
  have distinct : m.entries.Nodup :=
    List.Pairwise.of_map Prod.fst (fun _ _ apart same => apart (congrArg Prod.fst same)) m.distinct
  rw [same, Bool.and_eq_true, beq_iff_eq, subset_iff]
  constructor
  · rintro ⟨size, subset⟩ x
    have perm := (List.subperm_of_subset distinct subset).perm_of_length_le (Nat.le_of_eq size.symm)
    exact Table.get?_eq_of_perm perm x
  · intro answers
    have perm := Table.perm_of_get?_eq answers
    exact ⟨perm.length_eq, perm.subset⟩

end Memory

/-! ## Expressions -/

/-- The value of an expression depends on the names that occur in it only. -/
theorem AExpr.eval_congr {e : AExpr} {m m' : Memory} (agree : m.AgreeOn (· ∈ e.vars) m') :
    e.eval m = e.eval m' := by
  induction e with
  | int n => rfl
  | var x => rw [eval, eval, agree x (List.mem_singleton.2 rfl)]
  | binary op a b left right =>
    have sameLeft := left fun x occurs => agree x (List.mem_append_left _ occurs)
    have sameRight := right fun x occurs => agree x (List.mem_append_right _ occurs)
    rw [eval, eval, sameLeft, sameRight]
  | hole => rfl

/-- The value of an expression depends on the names that occur in it only. -/
theorem BExpr.eval_congr {e : BExpr} {m m' : Memory} (agree : m.AgreeOn (· ∈ e.vars) m') :
    e.eval m = e.eval m' := by
  induction e with
  | lit b => rfl
  | not a inner => rw [eval, eval, inner agree]
  | binary op a b left right =>
    have sameLeft := left fun x occurs => agree x (List.mem_append_left _ occurs)
    have sameRight := right fun x occurs => agree x (List.mem_append_right _ occurs)
    rw [eval, eval, sameLeft, sameRight]
  | compare op a b =>
    have sameLeft := AExpr.eval_congr (e := a) fun x occurs =>
      agree x (List.mem_append_left _ occurs)
    have sameRight := AExpr.eval_congr (e := b) fun x occurs =>
      agree x (List.mem_append_right _ occurs)
    rw [eval, eval, sameLeft, sameRight]
  | hole => rfl

/-! ## Runs -/

namespace Machine

/-- The machines have the same commands to run, no name but those that are shown occurs in them,
and the stores agree on these. -/
structure AgreeOn (shown : String → Prop) (machine machine' : Machine) : Prop where
  pending : machine.pending = machine'.pending
  within : ∀ c ∈ machine.pending, ∀ x ∈ c.vars, shown x
  memory : machine.memory.AgreeOn shown machine'.memory

end Machine

/-- The outcomes of two runs that went the same way, with stores that agree on the names that are
shown. -/
inductive Outcome.AgreeOn (shown : String → Prop) : Outcome σ ε → Outcome σ ε → Prop
  | done {s : σ} {m m' : Memory} :
    m.AgreeOn shown m' → AgreeOn shown (.done s m) (.done s m')
  | failed {why : Failure ε} {s : σ} {m m' : Memory} :
    m.AgreeOn shown m' → AgreeOn shown (.failed why s m) (.failed why s m')
  | running {s : σ} {machine machine' : Machine} :
    machine.AgreeOn shown machine' → AgreeOn shown (.running s machine) (.running s machine')

namespace Machine

variable {shown : String → Prop} {c : Command} {k : List Command} {m m' : Memory}

/-- A step takes machines that agree to machines that agree, or fails alike from both. -/
theorem step_agree (within : ∀ d ∈ c :: k, ∀ x ∈ d.vars, shown x) (agree : m.AgreeOn shown m') :
    (∃ why, c.step k m = .error why ∧ c.step k m' = .error why) ∨
      ∃ machine machine', c.step k m = .ok machine ∧ c.step k m' = .ok machine' ∧
        machine.AgreeOn shown machine' := by
  have own : ∀ x ∈ c.vars, shown x := within c List.mem_cons_self
  have rest : ∀ d ∈ k, ∀ x ∈ d.vars, shown x := fun d member =>
    within d (List.mem_cons_of_mem c member)
  have on {names : List String} (part : ∀ x ∈ names, x ∈ c.vars) : m.AgreeOn (· ∈ names) m' :=
    fun x occurs => agree x (own x (part x occurs))
  cases c with
  | skip => exact .inr ⟨_, _, rfl, rfl, rfl, rest, agree⟩
  | hole => exact .inl ⟨_, rfl, rfl⟩
  | assign x e =>
    have value : e.eval m = e.eval m' := AExpr.eval_congr (on fun y => List.mem_cons_of_mem x)
    simp only [Command.step, ← value]
    cases e.eval m with
    | error why => exact .inl ⟨why, rfl, rfl⟩
    | ok v => exact .inr ⟨_, _, rfl, rfl, rfl, rest, agree.set x v⟩
  | seq a b =>
    refine .inr ⟨_, _, rfl, rfl, rfl, ?_, agree⟩
    simp only [Command.vars, List.mem_append] at own
    simp only [List.forall_mem_cons]
    exact ⟨fun x occurs => own x (.inl occurs), fun x occurs => own x (.inr occurs), rest⟩
  | ite e a b =>
    have test : e.eval m = e.eval m' := BExpr.eval_congr (on fun y => List.mem_append_left _)
    simp only [Command.step, ← test]
    simp only [Command.vars, List.mem_append] at own
    cases e.eval m with
    | error why => exact .inl ⟨why, rfl, rfl⟩
    | ok v =>
      refine .inr ⟨_, _, rfl, rfl, rfl, ?_, agree⟩
      refine List.forall_mem_cons.2 ⟨?_, rest⟩
      cases v with
      | true => exact fun x occurs => own x (.inr (.inl occurs))
      | false => exact fun x occurs => own x (.inr (.inr occurs))
  | whileDo e a =>
    have test : e.eval m = e.eval m' := BExpr.eval_congr (on fun y => List.mem_append_left _)
    simp only [Command.step, ← test]
    cases e.eval m with
    | error why => exact .inl ⟨why, rfl, rfl⟩
    | ok v =>
      refine .inr ⟨_, _, rfl, rfl, rfl, ?_, agree⟩
      cases v with
      | false => exact rest
      | true =>
        have body : ∀ x ∈ a.vars, shown x := fun x occurs =>
          own x (List.mem_append_right _ occurs)
        exact List.forall_mem_cons.2 ⟨body, within⟩

/-- Runs from machines that agree stay in step, whatever host is asked. -/
theorem run_agree (hook : Hook σ ε) (fuel : Nat) (s : σ) {machine machine' : Machine}
    (agree : machine.AgreeOn shown machine') :
    (run hook fuel s machine).AgreeOn shown (run hook fuel s machine') := by
  induction fuel generalizing s machine machine' with
  | zero =>
    obtain ⟨pending, m⟩ := machine
    obtain ⟨_, m'⟩ := machine'
    obtain ⟨rfl, within, stores⟩ := agree
    cases pending with
    | nil => exact .done stores
    | cons c k => exact .running ⟨rfl, within, stores⟩
  | succ fuel ih =>
    obtain ⟨pending, m⟩ := machine
    obtain ⟨_, m'⟩ := machine'
    obtain ⟨rfl, within, stores⟩ := agree
    cases pending with
    | nil => exact .done stores
    | cons c k =>
      cases told : (hook s c).2 with
      | some why =>
        rw [run_of_stop told, run_of_stop told]
        exact .failed stores
      | none =>
        rcases step_agree within stores with ⟨why, step, step'⟩ | ⟨_, _, step, step', agree⟩
        · rw [run_of_error told step, run_of_error told step']
          exact .failed stores
        · rw [run_of_ok told step, run_of_ok told step']
          exact ih _ agree

end Machine

/-- The starts of a program agree if the stores do. -/
theorem Machine.start_agree {shown : String → Prop} {c : Command} {m m' : Memory}
    (within : ∀ x ∈ c.vars, shown x) (agree : m.AgreeOn shown m') :
    (start c m).AgreeOn shown (start c m') :=
  ⟨rfl, fun _ member => List.mem_singleton.1 member ▸ within, agree⟩

/-- An engine goes the same way from stores that agree, whatever its budget and its context. -/
theorem Engine.execute_agree {shown : String → Prop} {m m' : Memory} (e : Engine)
    (within : ∀ x ∈ e.program.vars, shown x) (agree : m.AgreeOn shown m') (context : Context)
    (fuel : Nat) :
    (e.execute context fuel m).2 = (e.execute context fuel m').2 ∧
      (e.execute context fuel m).1.steps = (e.execute context fuel m').1.steps ∧
      ∃ left left', (e.execute context fuel m).1.snapshot? = some left ∧
        (e.execute context fuel m').1.snapshot? = some left' ∧ left.AgreeOn shown left' := by
  obtain ⟨meter, snapshot, status⟩ := execute_eq context fuel e m
  obtain ⟨meter', snapshot', status'⟩ := execute_eq context fuel e m'
  have outcomes := Machine.run_agree (Meter.tick e.budget context) fuel ⟨0, 0, e.meter.cancelled⟩
    (Machine.start_agree within agree)
  rw [steps, steps, meter, meter', status, status', snapshot, snapshot']
  generalize (Machine.start e.program m).run (Meter.tick e.budget context) fuel _ = o at outcomes ⊢
  generalize (Machine.start e.program m').run (Meter.tick e.budget context) fuel _ = o'
    at outcomes ⊢
  cases outcomes with
  | done stores | failed stores => exact ⟨rfl, rfl, _, _, rfl, rfl, stores⟩
  | running machines => exact ⟨rfl, rfl, _, _, rfl, rfl, machines.memory⟩

namespace Command

/-- Runs of a command from stores that agree both end, both fail for one reason, or both go on
without end, and the stores in which they end agree. -/
theorem ends_agree {shown : String → Prop} {c : Command} {m m' : Memory}
    (within : ∀ x ∈ c.vars, shown x) (agree : m.AgreeOn shown m') :
    (∃ left left', c.Succeeds m left ∧ c.Succeeds m' left' ∧ left.AgreeOn shown left') ∨
      (∃ why left left', c.Fails m why left ∧ c.Fails m' why left' ∧
        left.AgreeOn shown left') ∨
      (c.Diverges m ∧ c.Diverges m') := by
  have outcomes (n : Nat) :=
    Machine.run_agree Machine.freely n () (Machine.start_agree within agree)
  by_cases ends : ∃ n, (Machine.run Machine.freely n () (.start c m)).Ended
  · obtain ⟨n, ended⟩ := ends
    have here := outcomes n
    generalize run : Machine.run Machine.freely n () (.start c m) = o at here ended
    generalize run' : Machine.run Machine.freely n () (.start c m') = o' at here
    cases here with
    | done stores => exact .inl ⟨_, _, ⟨n, run⟩, ⟨n, run'⟩, stores⟩
    | @failed why _ _ _ stores =>
      cases why with
      | host never => exact never.elim
      | program why => exact .inr (.inl ⟨why, _, _, ⟨n, run⟩, ⟨n, run'⟩, stores⟩)
    | running => exact ended.elim
  · refine .inr (.inr ⟨fun n ended => ends ⟨n, ended⟩, fun n ended => ends ⟨n, ?_⟩⟩)
    have here := outcomes n
    generalize Machine.run Machine.freely n () (.start c m) = o at here ⊢
    generalize Machine.run Machine.freely n () (.start c m') = o' at here ended
    cases here with
    | done | failed => trivial
    | running => exact ended

/-- Let two stores agree on the names that occur in a command, whatever else they bind and in
whatever order. Then every host is asked about the same commands in the runs from both and stops
both or neither; the runs end alike without a host and under every budget, and the stores that
they leave agree on these names. From stores that are the same, they leave stores that are the
same. -/
theorem run_reads_own_variables (c : Command) (m m' : Memory) :
    (m.AgreeOn (· ∈ c.vars) m' →
      (∀ (σ ε : Type) (hook : Hook σ ε) (s : σ) (n : Nat),
        (Machine.run hook.noting n ([], s) (.start c m)).AgreeOn (· ∈ c.vars)
          (Machine.run hook.noting n ([], s) (.start c m'))) ∧
      ((∃ left left', c.Succeeds m left ∧ c.Succeeds m' left' ∧
          left.AgreeOn (· ∈ c.vars) left') ∨
        (∃ why left left', c.Fails m why left ∧ c.Fails m' why left' ∧
          left.AgreeOn (· ∈ c.vars) left') ∨
        (c.Diverges m ∧ c.Diverges m')) ∧
      ∀ (budget : Int) (context : Context) (fuel : Nat),
        let r := (Engine.new c budget).execute context fuel m
        let r' := (Engine.new c budget).execute context fuel m'
        r.2 = r'.2 ∧ r.1.steps = r'.1.steps ∧
          ∃ left left', r.1.snapshot? = some left ∧ r'.1.snapshot? = some left' ∧
            left.AgreeOn (· ∈ c.vars) left') ∧
    (m.same m' = true →
      ∀ (budget : Int) (context : Context) (fuel : Nat),
        let r := (Engine.new c budget).execute context fuel m
        let r' := (Engine.new c budget).execute context fuel m'
        r.2 = r'.2 ∧ r.1.steps = r'.1.steps ∧
          ∃ left left', r.1.snapshot? = some left ∧ r'.1.snapshot? = some left' ∧
            left.same left' = true) := by
  constructor
  · intro agree
    have within : ∀ x ∈ c.vars, x ∈ c.vars := fun _ occurs => occurs
    refine ⟨fun σ ε hook s n => ?_, ends_agree within agree, fun budget context fuel => ?_⟩
    · exact Machine.run_agree hook.noting n ([], s) (Machine.start_agree within agree)
    · exact (Engine.new c budget).execute_agree within agree context fuel
  · intro same budget context fuel
    -- Stores that are the same agree on every name, not only on those that occur.
    have agree : m.AgreeOn (fun _ => True) m' := fun x _ => Memory.same_iff.1 same x
    obtain ⟨status, steps, left, left', snapshot, snapshot', stores⟩ :=
      (Engine.new c budget).execute_agree (fun _ _ => trivial) agree context fuel
    have sameLeft : left.same left' = true := Memory.same_iff.2 fun x => stores x trivial
    exact ⟨status, steps, left, left', snapshot, snapshot', sameLeft⟩

/-- A loop over `x`, from a store that binds `x` only, from one that binds `z` before it and from
one that binds `z` after it. -/
theorem run_reads_own_variables_reordered :
    let c : Command := .whileDo (.compare .le (.var "x") (.int 0))
      (.assign "x" (.binary .add (.var "x") (.int 1)))
    let alone : Memory := Table.set ∅ "x" (.int 0)
    let behind : Memory := Table.set (Table.set ∅ "z" (.bool true)) "x" (.int 0)
    let before : Memory := alone.set "z" (.bool true)
    ((Engine.new c 2).execute .background 3 behind).2 = .failed (.host (.limit 2)) ∧
      ((Engine.new c 2).execute .background 3 behind).1.steps = 3 ∧
      ∃ left, ((Engine.new c 0).execute .background 3 before).1.snapshot? = some left ∧
        Memory.same (behind.set "x" (.int 1)) left = true := by
  intro c alone behind before
  have agree : alone.AgreeOn (· ∈ c.vars) behind := by
    intro y occurs
    have isX : y = "x" := by simpa [c, vars, BExpr.vars, AExpr.vars] using occurs
    rw [isX]
    rfl
  have ends : ((Engine.new c 2).execute .background 3 alone).2 = .failed (.host (.limit 2)) := rfl
  obtain ⟨_, _, engines⟩ := (run_reads_own_variables c alone behind).1 agree
  obtain ⟨status, steps, _⟩ := engines 2 .background 3
  obtain ⟨_, _, left, left', snapshot, snapshot', same⟩ :=
    (run_reads_own_variables c behind before).2 (by decide) 0 .background 3
  have found : ((Engine.new c 0).execute .background 3 behind).1.snapshot? =
      some (behind.set "x" (.int 1)) := rfl
  cases snapshot.symm.trans found
  exact ⟨status.symm.trans ends, steps.symm, left', snapshot', same⟩

end Command

end ImpHost
