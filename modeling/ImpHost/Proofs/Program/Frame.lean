import Mathlib.Data.List.Basic
import Mathlib.Data.List.Induction
import ImpHost.Proofs.Engine.Cancellation
import ImpHost.Proofs.Program.Evaluation
import ImpHost.Proofs.Program.Hooks
import ImpHost.Proofs.Table

/-!
What a run does to the names of its store.

`Machine.assigned` follows a run and keeps the assignments that it makes, in order. The store of a
run is the one that it began with, with these assignments bound over it (`Machine.memory_run`), so
what is known of binding a list of names (`Table.exists_keys_setAll`) is known of every run, however
it ends. A run that fails leaves the store that it came to the failing command with
(`Machine.exists_of_run_failed`).

Main statement: `Command.runs_keep_frame`.
-/

namespace ImpHost

variable {σ ε : Type}

/-! ## Binding one name after the other -/

namespace Table

variable {α : Type}

/-- The names `new` are those of `names` that are not among the `old` ones, in the order in which
they first occur there. -/
structure FirstNew (old names new : List String) : Prop where
  mem_iff : ∀ x, x ∈ new ↔ x ∈ names ∧ x ∉ old
  inOrder : new.Pairwise fun x y => names.idxOf x < names.idxOf y

/-- One more name is new, or it is an old one or has occurred before. -/
theorem FirstNew.concat {old names new : List String} (first : FirstNew old names new)
    (x : String) :
    FirstNew old (names ++ [x]) (if x ∈ old ++ new then new else new ++ [x]) := by
  -- The place of a name that occurs does not change when a name is added behind.
  have earlier : new.Pairwise fun y z => (names ++ [x]).idxOf y < (names ++ [x]).idxOf z := by
    refine first.inOrder.imp_of_mem fun {y z} isNew isNew' before => ?_
    rwa [List.idxOf_append_of_mem ((first.mem_iff y).1 isNew).1,
      List.idxOf_append_of_mem ((first.mem_iff z).1 isNew').1]
  split
  · next known =>
    refine ⟨fun y => ?_, earlier⟩
    rw [first.mem_iff, List.mem_append, List.mem_singleton]
    constructor
    · exact fun isNew => ⟨.inl isNew.1, isNew.2⟩
    · rintro ⟨occurs | rfl, notOld⟩
      · exact ⟨occurs, notOld⟩
      · exact (first.mem_iff y).1 ((List.mem_append.1 known).resolve_left notOld)
  · next unknown =>
    obtain ⟨notOld, notNew⟩ := not_or.1 (mt List.mem_append.2 unknown)
    have absent : x ∉ names := fun occurs => notNew ((first.mem_iff x).2 ⟨occurs, notOld⟩)
    refine ⟨fun y => ?_, List.pairwise_append.2 ⟨earlier, List.pairwise_singleton _ _, ?_⟩⟩
    · rw [List.mem_append, List.mem_append, List.mem_singleton, first.mem_iff]
      constructor
      · rintro (isNew | rfl)
        · exact ⟨.inl isNew.1, isNew.2⟩
        · exact ⟨.inr rfl, notOld⟩
      · rintro ⟨occurs | rfl, notOld⟩
        · exact .inl ⟨occurs, notOld⟩
        · exact .inr rfl
    · intro y isNew z isLast
      have occurs := ((first.mem_iff y).1 isNew).1
      rw [List.mem_singleton.1 isLast, List.idxOf_append_of_mem occurs,
        List.idxOf_append_of_notMem absent]
      exact Nat.lt_add_right _ (List.idxOf_lt_length_iff.2 occurs)

theorem setAll_append (t : Table α) (l l' : List (String × α)) :
    t.setAll (l ++ l') = (t.setAll l).setAll l' :=
  List.foldl_append

/-- The names of a table keep their places when a list is bound over it, and the new ones follow in
the order in which the list first has them. -/
theorem exists_keys_setAll (t : Table α) (l : List (String × α)) :
    ∃ new, (t.setAll l).keys = t.keys ++ new ∧ FirstNew t.keys (l.map Prod.fst) new := by
  induction l using List.reverseRecOn with
  | nil =>
    refine ⟨[], (List.append_nil _).symm, fun x => ?_, .nil⟩
    simp
  | append_singleton l p ih =>
    obtain ⟨new, keys, first⟩ := ih
    obtain ⟨x, v⟩ := p
    have bound : (t.setAll (l ++ [(x, v)])).keys = ((t.setAll l).set x v).keys :=
      congrArg Table.keys (setAll_append t l [(x, v)])
    refine ⟨_, ?_, by rw [List.map_append]; exact first.concat x⟩
    rw [bound, keys_set, keys]
    split
    · rfl
    · exact List.append_assoc ..

theorem get?_setAll_of_not_mem (t : Table α) {l : List (String × α)} {x : String}
    (absent : x ∉ l.map Prod.fst) : (t.setAll l).get? x = t.get? x := by
  induction l generalizing t with
  | nil => rfl
  | cons p rest ih =>
    obtain ⟨other, absent⟩ := List.ne_and_not_mem_of_not_mem_cons absent
    exact (ih (t.set p.1 p.2) absent).trans (t.get?_set_of_ne other p.2)

end Table

/-! ## Assignments of a step -/

namespace Command

/-- The names to which a command assigns, wherever in it. -/
def targets : Command → List String
  | .skip => []
  | .assign x _ => [x]
  | .seq a b => a.targets ++ b.targets
  | .ite _ a b => a.targets ++ b.targets
  | .whileDo _ a => a.targets
  | .hole => []

/-- The assignment that a step of the command makes. One whose value fails makes none. -/
def assigned? (c : Command) (m : Memory) : Option (String × Value) :=
  match c with
  | .assign x e => (e.eval m).toOption.map fun v => (x, v)
  | _ => none

variable {c : Command} {k : List Command} {m : Memory} {machine : Machine}

theorem memory_eq_setAll_of_step (ok : c.step k m = .ok machine) :
    machine.memory = m.setAll (c.assigned? m).toList := by
  cases c with
  | skip | seq =>
    cases ok
    rfl
  | assign x e =>
    obtain ⟨v, value, ok⟩ := bind_eq_ok.1 ok
    cases ok
    rw [assigned?, value]
    rfl
  | ite | whileDo =>
    obtain ⟨v, -, ok⟩ := bind_eq_ok.1 ok
    cases ok
    rfl
  | hole => cases ok

theorem mem_targets_of_assigned? {p : String × Value} (assigned : p ∈ c.assigned? m) :
    p.1 ∈ c.targets := by
  cases c with
  | assign x e =>
    obtain ⟨v, -, rfl⟩ := Option.map_eq_some_iff.1 assigned
    exact List.mem_singleton.2 rfl
  | skip | seq | ite | whileDo | hole => cases assigned

/-- What a step puts in front is made of what it takes away, so it assigns to no other names. -/
theorem targets_of_step {shown : String → Prop} (all : ∀ d ∈ c :: k, ∀ x ∈ d.targets, shown x)
    (ok : c.step k m = .ok machine) : ∀ d ∈ machine.pending, ∀ x ∈ d.targets, shown x := by
  obtain ⟨own, rest⟩ := List.forall_mem_cons.1 all
  cases c with
  | skip =>
    cases ok
    exact rest
  | assign x e =>
    obtain ⟨v, -, ok⟩ := bind_eq_ok.1 ok
    cases ok
    exact rest
  | seq a b =>
    obtain ⟨first, second⟩ := List.forall_mem_append.1 own
    cases ok
    exact List.forall_mem_cons.2 ⟨first, List.forall_mem_cons.2 ⟨second, rest⟩⟩
  | ite e a b =>
    obtain ⟨yes, no⟩ := List.forall_mem_append.1 own
    obtain ⟨v, -, ok⟩ := bind_eq_ok.1 ok
    cases ok
    refine List.forall_mem_cons.2 ⟨?_, rest⟩
    cases v with
    | true => exact yes
    | false => exact no
  | whileDo e a =>
    obtain ⟨v, -, ok⟩ := bind_eq_ok.1 ok
    cases ok
    cases v with
    | true => exact List.forall_mem_cons.2 ⟨own, all⟩
    | false => exact rest
  | hole => cases ok

end Command

/-! ## Assignments of a run -/

namespace Machine

/-- The assignments that a run of at most `fuel` steps makes, in order. -/
def assigned (hook : Hook σ ε) : (fuel : Nat) → σ → Machine → List (String × Value)
  | _, _, ⟨[], _⟩ => []
  | 0, _, _ => []
  | fuel + 1, s, ⟨c :: k, m⟩ =>
    match hook s c with
    | (_, some _) => []
    | (s, none) =>
      match c.step k m with
      | .ok machine => (c.assigned? m).toList ++ assigned hook fuel s machine
      | .error _ => []

/-- Why a run fails at the command `d` with the commands `k` after it: the host stops it, or the
step fails. -/
def FailsAt (hook : Hook σ ε) (t : σ) (d : Command) (k : List Command) (m : Memory)
    (why : Failure ε) (s : σ) : Prop :=
  (∃ e, why = .host e ∧ hook t d = (s, some e)) ∨
    ∃ e, why = .program e ∧ hook t d = (s, none) ∧ d.step k m = .error e

variable {hook : Hook σ ε} {s : σ} {fuel : Nat} {machine : Machine}

/-- A run fails at its first command and assigns nothing, or it takes the first step and then goes
on. -/
theorem run_cons_cases (hook : Hook σ ε) (fuel : Nat) (s : σ) (c : Command) (k : List Command)
    (m : Memory) :
    (∃ why s', FailsAt hook s c k m why s' ∧
        run hook (fuel + 1) s ⟨c :: k, m⟩ = .failed why s' m ∧
        assigned hook (fuel + 1) s ⟨c :: k, m⟩ = []) ∨
      ∃ t machine, c.step k m = .ok machine ∧ ∀ more,
        run hook (more + 1) s ⟨c :: k, m⟩ = run hook more t machine ∧
        assigned hook (more + 1) s ⟨c :: k, m⟩ =
          (c.assigned? m).toList ++ assigned hook more t machine := by
  rcases told : hook s c with ⟨t, stop⟩
  cases stop with
  | some e =>
    exact .inl ⟨.host e, t, .inl ⟨e, rfl, told⟩, by rw [run, told], by rw [assigned, told]⟩
  | none =>
    cases step : c.step k m with
    | error e =>
      refine .inl ⟨.program e, t, .inr ⟨e, rfl, told, step⟩, ?_, ?_⟩
      · simp only [run, told, step]
      · simp only [assigned, told, step]
    | ok machine =>
      refine .inr ⟨t, machine, rfl, fun more => ⟨?_, ?_⟩⟩
      · simp only [run, told, step]
      · simp only [assigned, told, step]

/-- The store of a run is the one that it began with, with its assignments bound in order. -/
theorem memory_run (hook : Hook σ ε) (fuel : Nat) (s : σ) (machine : Machine) :
    (run hook fuel s machine).memory = machine.memory.setAll (assigned hook fuel s machine) := by
  induction fuel generalizing s machine with
  | zero =>
    obtain ⟨pending, m⟩ := machine
    cases pending <;> rfl
  | succ fuel ih =>
    obtain ⟨pending, m⟩ := machine
    cases pending with
    | nil => rfl
    | cons c k =>
      rcases run_cons_cases hook fuel s c k m with ⟨why, s', -, run, none⟩ | ⟨t, next, step, goesOn⟩
      · rw [run, none]
        rfl
      · rw [(goesOn fuel).1, (goesOn fuel).2, ih, Table.setAll_append,
          Command.memory_eq_setAll_of_step step]

/-- A run assigns to targets of its commands only. -/
theorem targets_of_assigned {shown : String → Prop}
    (all : ∀ d ∈ machine.pending, ∀ x ∈ d.targets, shown x) :
    ∀ p ∈ assigned hook fuel s machine, shown p.1 := by
  induction fuel generalizing s machine with
  | zero =>
    obtain ⟨pending, m⟩ := machine
    cases pending <;> exact List.forall_mem_nil _
  | succ fuel ih =>
    obtain ⟨pending, m⟩ := machine
    cases pending with
    | nil => exact List.forall_mem_nil _
    | cons c k =>
      rcases run_cons_cases hook fuel s c k m with ⟨_, _, -, -, none⟩ | ⟨t, next, step, goesOn⟩
      · rw [none]
        exact List.forall_mem_nil _
      · rw [(goesOn fuel).2]
        refine List.forall_mem_append.2 ⟨fun p member => ?_, ih (Command.targets_of_step all step)⟩
        have own := Command.mem_targets_of_assigned? (Option.mem_toList.1 member)
        exact all c List.mem_cons_self p.1 own

/-- The names that are bound stay bound and in their places as a run goes on. -/
theorem keys_prefix_of_le {j : Nat} (le : j ≤ fuel) :
    (run hook j s machine).memory.keys <+: (run hook fuel s machine).memory.keys := by
  obtain ⟨more, rfl⟩ := Nat.exists_eq_add_of_le le
  rcases (run hook j s machine).ended_or_running with ended | ⟨t, middle, running⟩
  · rewrite [run_of_ended ended le]
    exact List.prefix_rfl
  · rw [run_add, running]
    have later : (run hook more t middle).memory = _ := memory_run hook more t middle
    obtain ⟨new, keys, -⟩ := middle.memory.exists_keys_setAll (assigned hook more t middle)
    refine ⟨new, ?_⟩
    rw [Outcome.resume, later, keys]
    rfl

/-- A run that fails had come to a command with the store that it leaves, and fails there. It has
made its last assignment before. -/
theorem exists_of_run_failed {why : Failure ε} {s' : σ} {left : Memory}
    (failed : run hook fuel s machine = .failed why s' left) :
    ∃ j < fuel, ∃ t d k, run hook j s machine = .running t ⟨d :: k, left⟩ ∧
      assigned hook j s machine = assigned hook fuel s machine ∧
      FailsAt hook t d k left why s' := by
  induction fuel generalizing s machine with
  | zero =>
    obtain ⟨pending, m⟩ := machine
    cases pending <;> cases failed
  | succ fuel ih =>
    obtain ⟨pending, m⟩ := machine
    cases pending with
    | nil => cases failed
    | cons c k =>
      rcases run_cons_cases hook fuel s c k m with ⟨_, _, fails, run, none⟩ | ⟨t, next, -, goesOn⟩
      · cases run.symm.trans failed
        exact ⟨0, Nat.succ_pos fuel, s, c, k, rfl, none.symm, fails⟩
      · rw [(goesOn fuel).1] at failed
        obtain ⟨j, less, t', d, k', running, same, fails⟩ := ih failed
        refine ⟨j + 1, Nat.succ_lt_succ less, t', d, k', ?_, ?_, fails⟩
        · rw [(goesOn j).1, running]
        · rw [(goesOn j).2, (goesOn fuel).2, same]

end Machine

/-! ## Frames -/

/-- What a run of `c` that began with the store `m` and has made the assignments `log` has for its
store. -/
structure Command.Frame (c : Command) (m : Memory) (log : List (String × Value))
    (left : Memory) : Prop where
  /-- The assignments are bound over the store in their order. -/
  bound : left = m.setAll log
  /-- The names are those of before in the same order, and then those that are new, each once and in
  the order in which they were first assigned to. -/
  keys : ∃ new, left.keys = m.keys ++ new ∧ left.keys.Nodup ∧
    Table.FirstNew m.keys (log.map Prod.fst) new
  /-- A new name is one to which the command assigns. -/
  added : ∀ x ∈ left.keys, x ∉ m.keys → x ∈ c.targets
  /-- A name whose value changed is one to which the command assigns. -/
  changed : ∀ x, left.get? x ≠ m.get? x → x ∈ c.targets

namespace Command

theorem frame_of_setAll {c : Command} {m : Memory} {log : List (String × Value)}
    (within : ∀ p ∈ log, p.1 ∈ c.targets) : c.Frame m log (m.setAll log) := by
  have isTarget {x : String} (occurs : x ∈ log.map Prod.fst) : x ∈ c.targets := by
    obtain ⟨p, member, rfl⟩ := List.mem_map.1 occurs
    exact within p member
  obtain ⟨new, keys, first⟩ := m.exists_keys_setAll log
  refine ⟨rfl, ⟨new, keys, (m.setAll log).distinct, first⟩, fun x bound isNew => ?_,
    fun x differs => ?_⟩
  · rw [keys] at bound
    exact isTarget ((first.mem_iff x).1 ((List.mem_append.1 bound).resolve_left isNew)).1
  · by_contra other
    exact differs (m.get?_setAll_of_not_mem fun occurs => other (isTarget occurs))

/-- A run leaves a frame, whatever host is asked and whether it is over or not. -/
theorem frame_of_run (c : Command) (m : Memory) (hook : Hook σ ε) (s : σ) (n : Nat) :
    c.Frame m (Machine.assigned hook n s (.start c m))
      (Machine.run hook n s (.start c m)).memory := by
  rw [Machine.memory_run]
  refine frame_of_setAll (Machine.targets_of_assigned ?_)
  exact List.forall_mem_singleton.2 fun _ occurs => occurs

/-- The store of an engine, after any history, is one of a run that nobody disturbs. -/
theorem exists_run_of_play {c : Command} {m : Memory} {budget : Int} {context : Context}
    {before after : List Engine.Event} {s : Engine.Session}
    (played : (Engine.Session.new c budget).play (before ++ .execute context m :: after) = some s)
    (own : ∀ event ∈ after, event.isExecute = false) :
    ∃ n ≤ Engine.asks after, s.engine.snapshot? = some
      (Machine.run (Meter.tick budget .background) n ⟨0, 0, false⟩ (.start c m)).memory := by
  have undisturbed (n : Nat) : (Engine.undisturbed c budget m n).1.snapshot? = _ :=
    (Engine.execute_eq .background n (.new c budget) m).2.1
  cases Engine.course_of_play played own with
  | going _ _ engine =>
    refine ⟨Engine.asks after, Nat.le_refl _, ?_⟩
    rw [engine]
    exact undisturbed _
  | stopped n last _ _ _ _ _ snapshot =>
    exact ⟨n, by omega, snapshot.trans (undisturbed n)⟩

/-- For every command, store and host, and at every moment of a run, whether it is over or not: the
names of the store are those that it began with in the same order, and then the new ones, each once
and in the order in which the run first assigned to them. Only names to which the command assigns
are new or have another value, and no name that was bound at an earlier moment is missing. A run
that fails leaves the store that it came to the failing command with, be it an assignment or not.
The same is true of an engine's store in any history of runs and cancellations, whatever its budget
and its context. -/
theorem runs_keep_frame (c : Command) (m : Memory) :
    (∀ (σ ε : Type) (hook : Hook σ ε) (s : σ) (n : Nat),
      let run (j : Nat) := Machine.run hook j s (.start c m)
      let assigned (j : Nat) := Machine.assigned hook j s (.start c m)
      c.Frame m (assigned n) (run n).memory ∧
      (∀ j ≤ n, (run j).memory.keys <+: (run n).memory.keys) ∧
      ∀ why s' left, run n = .failed why s' left →
        ∃ j < n, ∃ t d k, run j = .running t ⟨d :: k, left⟩ ∧ assigned j = assigned n ∧
          Machine.FailsAt hook t d k left why s') ∧
    ∀ (budget : Int) (context : Context) (before after : List Engine.Event) (s : Engine.Session),
      (Engine.Session.new c budget).play (before ++ .execute context m :: after) = some s →
      (∀ event ∈ after, event.isExecute = false) →
      ∃ n ≤ Engine.asks after, ∃ left, s.engine.snapshot? = some left ∧
        c.Frame m (Machine.assigned (Meter.tick budget .background) n ⟨0, 0, false⟩ (.start c m))
          left := by
  refine ⟨fun σ ε hook s n => ⟨frame_of_run c m hook s n, fun j le => ?_,
    fun why s' left failed => ?_⟩, fun budget context before after s played own => ?_⟩
  · exact Machine.keys_prefix_of_le le
  · exact Machine.exists_of_run_failed failed
  · obtain ⟨n, le, snapshot⟩ := exists_run_of_play played own
    exact ⟨n, le, _, snapshot, frame_of_run c m _ _ n⟩

/-- `y := 1; x := 2; y := z` from a store that binds `x` only: `y` is new and stays as it was when
the last assignment fails, and an engine that is cancelled before the second one leaves `x`
alone. -/
theorem runs_keep_frame_unbound :
    let c : Command := .seq (.seq (.assign "y" (.int 1)) (.assign "x" (.int 2)))
      (.assign "y" (.var "z"))
    let m : Memory := Table.set ∅ "x" (.int 0)
    let left : Memory := (m.set "y" (.int 1)).set "x" (.int 2)
    let events : List Engine.Event := [.ask, .ask, .ask, .cancel, .ask]
    (Machine.run Machine.freely 5 () (.start c m) = .failed (.program (.unbound "z")) () left ∧
      left.keys = ["x", "y"] ∧ c.Frame m [("y", .int 1), ("x", .int 2)] left ∧
      ∃ j < 5, ∃ d k, Machine.run Machine.freely j () (.start c m) = .running () ⟨d :: k, left⟩ ∧
        Machine.FailsAt Machine.freely () d k left (.program (.unbound "z")) ()) ∧
    ∃ s, (Engine.Session.new c 0).play (.execute .background m :: events) = some s ∧
      s.status = .failed (.host .cancelled) ∧ s.engine.snapshot? = some (m.set "y" (.int 1)) ∧
      ∃ log, c.Frame m log (m.set "y" (.int 1)) := by
  intro c m left events
  obtain ⟨runs, engines⟩ := runs_keep_frame c m
  have failed : Machine.run Machine.freely 5 () (.start c m) =
      .failed (.program (.unbound "z")) () left := rfl
  obtain ⟨frame, -, fails⟩ := runs Unit Empty Machine.freely () 5
  obtain ⟨j, less, t, d, k, running, -, failsAt⟩ := fails _ _ _ failed
  have possible :
      ((Engine.Session.new c 0).play ([] ++ .execute .background m :: events)).isSome := rfl
  obtain ⟨s, played⟩ := Option.isSome_iff_exists.1 possible
  obtain ⟨n, -, left', snapshot, framed⟩ := engines 0 .background [] events s played
    (by simp [events, Engine.Event.isExecute])
  have found : s.status = .failed (.host .cancelled) ∧
      s.engine.snapshot? = some (m.set "y" (.int 1)) := by
    cases played
    exact ⟨rfl, rfl⟩
  cases snapshot.symm.trans found.2
  exact ⟨⟨failed, rfl, frame, j, less, d, k, running, failsAt⟩,
    s, played, found.1, found.2, _, framed⟩

end Command

end ImpHost
