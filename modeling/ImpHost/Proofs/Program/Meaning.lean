import ImpHost.Proofs.Program.Loop
import ImpHost.Proofs.Program.RoundTrip

/-!
Printing keeps the meaning of a program.

A tree that was built by hand is printed as its normal form, which is another tree: sequences are
nested differently and negative numbers are subtractions. Expressions have the same values in
normal form, since arithmetic wraps around. For commands, `Command.atoms` is what is left of a
command when the nesting of its sequences is forgotten. Two machines with the same atoms to run
come to the same end (`Machine.run_of_atoms`), though not in step: a sequence is taken apart by one
of them before and by the other after what stands in it. The number of pending commands makes up
for that, so that both have asked equally often when they are done.

Main statement: `Command.printed_means_same`.
-/

namespace ImpHost

/-! ## Expressions -/

/-- The spelling of a number has its value. -/
theorem AExpr.eval_ofInt (n : Int64) (m : Memory) : (ofInt n).eval m = .ok (.int n) := by
  unfold ofInt
  split
  · rfl
  split
  · next least =>
    rw [least]
    rfl
  · have difference : 0 - -n = n := by rw [Int64.zero_sub, Int64.neg_neg]
    exact congrArg (Except.ok ∘ Value.int) difference

theorem AExpr.eval_normal (e : AExpr) (m : Memory) : e.normal.eval m = e.eval m := by
  induction e with
  | int n => exact eval_ofInt n m
  | var | hole => rfl
  | binary op a b left right => rw [normal, eval, eval, left, right]

theorem BExpr.eval_normal (e : BExpr) (m : Memory) : e.normal.eval m = e.eval m := by
  induction e with
  | lit | hole => rfl
  | not a inner => rw [normal, eval, eval, inner]
  | binary op a b left right => rw [normal, eval, eval, left, right]
  | compare op a b => rw [normal, eval, eval, a.eval_normal, b.eval_normal]

/-- Expressions with one normal form have one value. -/
theorem AExpr.eval_of_normal_eq {e e' : AExpr} (same : e.normal = e'.normal) (m : Memory) :
    e.eval m = e'.eval m := by
  rw [← e.eval_normal, same, e'.eval_normal]

theorem BExpr.eval_of_normal_eq {e e' : BExpr} (same : e.normal = e'.normal) (m : Memory) :
    e.eval m = e'.eval m := by
  rw [← e.eval_normal, same, e'.eval_normal]

/-! ## The commands of a sequence -/

namespace Command

/-- The commands of a sequence, in order, however it is nested. -/
def parts : Command → List Command
  | .seq a b => a.parts ++ b.parts
  | c => [c]

/-- The commands of a sequence, in normal form. -/
def atoms (c : Command) : List Command :=
  c.normal.parts

theorem parts_join (a b : Command) : (a.join b).parts = a.parts ++ b.parts := by
  induction b with
  | seq b c left right => rw [join, parts, left, parts, List.append_assoc]
  | skip | assign | ite | whileDo | hole => rfl

theorem atoms_seq (a b : Command) : (seq a b).atoms = a.atoms ++ b.atoms :=
  parts_join a.normal b.normal

/-- A command that is no sequence is its only part. -/
theorem atoms_of_ne_seq {c : Command} (single : ∀ a b, c ≠ seq a b) : c.atoms = [c.normal] := by
  cases c with
  | seq a b => exact (single a b rfl).elim
  | skip | assign | ite | whileDo | hole => rfl

theorem atoms_ne_nil (c : Command) : c.atoms ≠ [] := by
  induction c with
  | seq a b left right =>
    rw [atoms_seq]
    exact List.append_ne_nil_of_left_ne_nil left _
  | skip | assign | ite | whileDo | hole => exact List.cons_ne_nil _ _

theorem atoms_of_normal_eq {c c' : Command} (same : c.normal = c'.normal) : c.atoms = c'.atoms :=
  congrArg parts same

end Command

/-! ## Machines with the same atoms -/

namespace Machine

open Command

/-- The atoms of all commands of a list. -/
def atoms (k : List Command) : List Command :=
  k.flatMap Command.atoms

theorem atoms_cons (c : Command) (k : List Command) : atoms (c :: k) = c.atoms ++ atoms k :=
  List.flatMap_cons

theorem atoms_eq_nil {k : List Command} (none : atoms k = []) : k = [] := by
  cases k with
  | nil => rfl
  | cons c k =>
    rw [atoms_cons] at none
    exact (c.atoms_ne_nil (List.append_eq_nil_iff.1 none).1).elim

variable {c c' : Command} {k k' : List Command} {m : Memory}

/-- A step of two commands that are no sequences and have one normal form: both fail, or both come
to one store, have the same atoms to run and as many commands more or less than before. -/
theorem step_of_normal_eq (single : ∀ a b, c ≠ seq a b) (single' : ∀ a b, c' ≠ seq a b)
    (same : c.normal = c'.normal) (rest : atoms k = atoms k') :
    (∃ why, c.step k m = .error why ∧ c'.step k' m = .error why) ∨
      ∃ p p' left, c.step k m = .ok ⟨p, left⟩ ∧ c'.step k' m = .ok ⟨p', left⟩ ∧
        atoms p = atoms p' ∧ p.length + k'.length = p'.length + k.length := by
  cases c with
  | seq a b => exact (single a b rfl).elim
  | skip =>
    cases c' with
    | seq a b => exact (single' a b rfl).elim
    | skip => exact .inr ⟨k, k', m, rfl, rfl, rest, Nat.add_comm ..⟩
    | assign | ite | whileDo | hole => cases same
  | hole =>
    cases c' with
    | seq a b => exact (single' a b rfl).elim
    | hole => exact .inl ⟨_, rfl, rfl⟩
    | skip | assign | ite | whileDo => cases same
  | assign x e =>
    cases c' with
    | seq a b => exact (single' a b rfl).elim
    | assign y e' =>
      injection same with name value
      rw [name, step, step, AExpr.eval_of_normal_eq value]
      cases e'.eval m with
      | error why => exact .inl ⟨why, rfl, rfl⟩
      | ok v => exact .inr ⟨k, k', _, rfl, rfl, rest, Nat.add_comm ..⟩
    | skip | ite | whileDo | hole => cases same
  | ite e a b =>
    cases c' with
    | seq a b => exact (single' a b rfl).elim
    | ite e' a' b' =>
      injection same with test yes no
      rw [step, step, BExpr.eval_of_normal_eq test]
      cases e'.eval m with
      | error why => exact .inl ⟨why, rfl, rfl⟩
      | ok v =>
        refine .inr ⟨_, _, m, rfl, rfl, ?_, by simp only [List.length_cons]; omega⟩
        rw [atoms_cons, atoms_cons, rest]
        cases v with
        | true => exact congrArg (· ++ _) (atoms_of_normal_eq yes)
        | false => exact congrArg (· ++ _) (atoms_of_normal_eq no)
    | skip | assign | whileDo | hole => cases same
  | whileDo e a =>
    cases c' with
    | seq a b => exact (single' a b rfl).elim
    | whileDo e' a' =>
      have loops : (whileDo e a).atoms = (whileDo e' a').atoms := atoms_of_normal_eq same
      injection same with test body
      rw [step, step, BExpr.eval_of_normal_eq test]
      cases e'.eval m with
      | error why => exact .inl ⟨why, rfl, rfl⟩
      | ok v =>
        refine .inr ⟨_, _, m, rfl, rfl, ?_⟩
        cases v with
        | false => exact ⟨rest, Nat.add_comm ..⟩
        | true =>
          refine ⟨?_, by simp only [if_true, List.length_cons]; omega⟩
          simp only [if_true, atoms_cons]
          rw [atoms_of_normal_eq body, loops, rest]
    | skip | assign | ite | hole => cases same

/-- The sequences in front of a machine are taken apart, with one question and one more pending
command for each, until a command that is no sequence comes first. -/
theorem exists_run_single (c : Command) (k : List Command) (m : Memory) :
    ∃ c' k' more, (∀ a b, c' ≠ seq a b) ∧ atoms (c' :: k') = atoms (c :: k) ∧
      k'.length = k.length + more ∧
      ∀ asked, ∃ asked', asked'.length = asked.length + more ∧
        ∀ fuel, run freely.noting (fuel + more) (asked, ()) ⟨c :: k, m⟩ =
          run freely.noting fuel (asked', ()) ⟨c' :: k', m⟩ := by
  induction c generalizing k with
  | seq a b left right =>
    obtain ⟨c', k', more, single, same, length, runs⟩ := left (b :: k)
    refine ⟨c', k', more + 1, single, ?_, ?_, fun asked => ?_⟩
    · rw [same, atoms_cons, atoms_cons, atoms_cons, atoms_seq, List.append_assoc]
    · rw [length, List.length_cons]
      omega
    · obtain ⟨asked', count, run⟩ := runs (asked ++ [seq a b])
      refine ⟨asked', ?_, fun fuel => (run_of_ok rfl rfl).trans (run fuel)⟩
      rw [count, List.length_append, List.length_singleton]
      omega
  | skip | assign | ite | whileDo | hole =>
    exact ⟨_, k, 0, by simp, rfl, rfl, fun asked => ⟨asked, rfl, fun _ => rfl⟩⟩

/-- Machines with one store and the same atoms come to the same end. When they are done, the
questions asked since then and the commands that were pending then are as many for both. -/
theorem run_of_atoms {n : Nat} {p q : List Command} (same : atoms p = atoms q) (m : Memory)
    (asked asked₀ : List Command)
    (ended : (run freely.noting n (asked, ()) ⟨p, m⟩).Ended) :
    ∃ n', (run freely.noting n (asked, ()) ⟨p, m⟩).Alike
        (run freely.noting n' (asked₀, ()) ⟨q, m⟩) ∧
      ∀ t left, run freely.noting n (asked, ()) ⟨p, m⟩ = .done t left →
        t.1.length + p.length + asked₀.length =
          (run freely.noting n' (asked₀, ()) ⟨q, m⟩).host.1.length + q.length + asked.length := by
  induction n generalizing p q m asked asked₀ with
  | zero =>
    cases p with
    | cons c k => exact ended.elim
    | nil =>
      cases atoms_eq_nil same.symm
      refine ⟨0, .done _ _ m, fun t left done => ?_⟩
      cases done
      exact Nat.add_comm ..
  | succ n ih =>
    cases p with
    | nil =>
      cases atoms_eq_nil same.symm
      refine ⟨0, .done _ _ m, fun t left done => ?_⟩
      cases done
      exact Nat.add_comm ..
    | cons c k =>
      by_cases single : ∀ a b, c ≠ seq a b
      · cases q with
        | nil => cases atoms_eq_nil same
        | cons d l =>
          obtain ⟨c', k', more, single', same', length, runs⟩ := exists_run_single d l m
          obtain ⟨asked', count, run'⟩ := runs asked₀
          -- Both have come to a command that is no sequence: it is the first atom of both.
          have heads : c.normal :: atoms k = c'.normal :: atoms k' := by
            have both := same.trans same'.symm
            rwa [atoms_cons, atoms_cons, atoms_of_ne_seq single, atoms_of_ne_seq single'] at both
          injection heads with first rest
          rcases step_of_normal_eq (m := m) single single' first rest with
            ⟨why, step, step'⟩ | ⟨p, p', left, step, step', next, lengths⟩
          · refine ⟨1 + more, ?_, fun t left done => ?_⟩
            · rw [run', run_of_error rfl step, run_of_error rfl step']
              exact .failed why _ _ m
            · rw [run_of_error rfl step] at done
              cases done
          · rw [run_of_ok rfl step] at ended ⊢
            obtain ⟨n', alike, balance⟩ :=
              ih next left (asked ++ [c]) (asked' ++ [c']) ended
            have runs' : run freely.noting (n' + 1 + more) (asked₀, ()) ⟨d :: l, m⟩ =
                run freely.noting n' (asked' ++ [c'], ()) ⟨p', left⟩ :=
              (run' _).trans (run_of_ok rfl step')
            refine ⟨n' + 1 + more, ?_, fun t left done => ?_⟩
            · rw [runs']
              exact alike
            · have sum := balance t left done
              rw [runs']
              simp only [List.length_append, List.length_cons, List.length_nil] at sum ⊢
              omega
      · obtain ⟨a, b, rfl⟩ : ∃ a b, c = seq a b := by
          simpa using single
        have opened : atoms (a :: b :: k) = atoms q := by
          rw [← same, atoms_cons, atoms_cons, atoms_cons, atoms_seq, List.append_assoc]
        have step : run freely.noting (n + 1) (asked, ()) ⟨seq a b :: k, m⟩ =
            run freely.noting n (asked ++ [seq a b], ()) ⟨a :: b :: k, m⟩ := run_of_ok rfl rfl
        rw [step] at ended ⊢
        obtain ⟨n', alike, balance⟩ := ih opened m (asked ++ [seq a b]) asked₀ ended
        refine ⟨n', alike, fun t left done => ?_⟩
        have sum := balance t left done
        simp only [List.length_append, List.length_cons, List.length_nil] at sum ⊢
        omega

end Machine

/-! ## Commands with one normal form -/

/-- Outcomes that are alike are equal when the hosts have nothing to remember. -/
theorem Outcome.Alike.eq_of_map {σ τ : Type} {o : Outcome σ Empty} {o' : Outcome τ Empty}
    (alike : o.Alike o') : o.map (fun _ => ()) = o'.map fun _ => () := by
  cases alike <;> rfl

namespace Command

variable {c c' : Command} {m : Memory}

/-- A run of a command that is over has a counterpart among the runs of a command with the same
normal form. If it is done, its counterpart has asked as often. -/
theorem traced_of_normal_eq (same : c.normal = c'.normal) {n : Nat}
    (ended : (c.traced m n).Ended) :
    ∃ n', (c.traced m n).Alike (c'.traced m n') ∧
      ∀ s left, c.traced m n = .done s left →
        s.1.length = (c'.traced m n').host.1.length := by
  have atoms : Machine.atoms [c] = Machine.atoms [c'] := by
    rw [Machine.atoms_cons, Machine.atoms_cons, atoms_of_normal_eq same]
  obtain ⟨n', alike, balance⟩ := Machine.run_of_atoms atoms m [] [] ended
  refine ⟨n', alike, fun s left done => ?_⟩
  exact Nat.add_right_cancel (balance s left done)

/-- The ends to which a command comes are those of every command with its normal form. -/
theorem exists_run_of_normal_eq (same : c.normal = c'.normal) {o : Outcome Unit Empty}
    (ended : o.Ended) (reached : ∃ n, Machine.run Machine.freely n () (.start c m) = o) :
    ∃ n, Machine.run Machine.freely n () (.start c' m) = o := by
  obtain ⟨n, run⟩ := reached
  rw [← traced_map] at run
  have tracedEnded : (c.traced m n).Ended := by
    subst run
    generalize c.traced m n = o at ended ⊢
    cases o with
    | done | failed => trivial
    | running => exact ended
  obtain ⟨n', alike, _⟩ := traced_of_normal_eq same tracedEnded
  refine ⟨n', ?_⟩
  rw [← traced_map, ← run]
  exact alike.eq_of_map.symm

theorem diverges_of_normal_eq (same : c.normal = c'.normal) (diverges : c.Diverges m) :
    c'.Diverges m := by
  intro n ended
  obtain ⟨n', run⟩ := exists_run_of_normal_eq same.symm ended ⟨n, rfl⟩
  rw [← run] at ended
  exact diverges n' ended

/-- A command that is done has asked as often as one with its normal form that is done. -/
theorem length_asked_of_normal_eq (same : c.normal = c'.normal) {n n' : Nat}
    {s s' : List Command × Unit} {left left' : Memory} (done : c.traced m n = .done s left)
    (done' : c'.traced m n' = .done s' left') : s.1.length = s'.1.length := by
  have ended : (c.traced m n).Ended := by rw [done]; trivial
  have ended' : (c'.traced m n').Ended := by rw [done']; trivial
  obtain ⟨k, alike, count⟩ := traced_of_normal_eq same ended
  -- The counterpart and the given run are both over, so they are one run.
  have one : c'.traced m k = c'.traced m n' := by
    rcases Nat.le_total k n' with le | le
    · exact (Machine.run_of_ended (alike.ended ended) le).symm
    · exact Machine.run_of_ended ended' le
  rw [count s left done, one, done']
  rfl

/-- What is read from either printed form of a well-formed tree is one tree, and it goes the same
way as the tree itself from every store: it ends with the same store, fails for the same reason and
leaves the same store, or goes on without end. When both are done, they have asked their host
equally often. -/
theorem printed_means_same (t : Command) (wf : t.WellFormed) :
    ∃ t', ReadFrom t.format.toList t' ∧ ReadFrom t.formatIndent.toList t' ∧
      ∀ m, (∀ left, t.Succeeds m left ↔ t'.Succeeds m left) ∧
        (∀ why left, t.Fails m why left ↔ t'.Fails m why left) ∧
        (t.Diverges m ↔ t'.Diverges m) ∧
        ∀ n n' s s' left left', t.traced m n = .done s left → t'.traced m n' = .done s' left' →
          s.1.length = s'.1.length := by
  have read := readFrom_format wf
  have same : t.normal = t.normal.normal := (wellFormed_and_normal_of_readFrom read).2.symm
  refine ⟨t.normal, read, readFrom_formatIndent wf, fun m => ⟨fun left => ?_, fun why left => ?_,
    ?_, fun n n' s s' left left' => ?_⟩⟩
  · exact ⟨exists_run_of_normal_eq same trivial, exists_run_of_normal_eq same.symm trivial⟩
  · exact ⟨exists_run_of_normal_eq same trivial, exists_run_of_normal_eq same.symm trivial⟩
  · exact ⟨diverges_of_normal_eq same, diverges_of_normal_eq same.symm⟩
  · exact length_asked_of_normal_eq same

/-- A sequence that is nested to the right assigns the least number, which is printed as a
difference of differences. -/
theorem printed_means_same_least :
    let t : Command :=
      .seq (.assign "x" (.int (-2))) (.seq (.assign "y" (.int Int64.minValue)) .skip)
    let left : Memory := Table.set (Table.set ∅ "x" (.int (-2))) "y" (.int Int64.minValue)
    ∃ t', ReadFrom t.format.toList t' ∧ ReadFrom t.formatIndent.toList t' ∧ t'.Succeeds ∅ left ∧
      ∀ n s left', t'.traced ∅ n = .done s left' → s.1.length = 5 := by
  intro t left
  have isX : Token.IsName "x" :=
    Token.isName_iff.2 ⟨'x', [], by decide, by decide, by simp, by decide⟩
  have isY : Token.IsName "y" :=
    Token.isName_iff.2 ⟨'y', [], by decide, by decide, by simp, by decide⟩
  obtain ⟨t', line, lines, means⟩ :=
    printed_means_same t ⟨⟨isX, trivial⟩, ⟨isY, trivial⟩, trivial⟩
  obtain ⟨succeeds, _, _, count⟩ := means ∅
  refine ⟨t', line, lines, (succeeds left).1 ⟨5, rfl⟩, fun n s left' done => ?_⟩
  exact (count 5 n _ s left left' rfl done).symm

end Command

end ImpHost
