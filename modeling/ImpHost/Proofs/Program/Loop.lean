import ImpHost.Proofs.Program.Hooks

/-!
Loops and what they are unrolled to.

A machine keeps the commands that come after the one at work untouched until it is through with it
(`Machine.run_below_of_done`), so a run of several commands is made of their own runs. A loop and
the conditional that tests once and then loops come to the same machine after one and two steps,
hence to the same end and with one question between them. The questions of a loop are those of
its iterations, each begun by one about the loop itself.

Main statement: `Command.while_unrolls`.
-/

namespace ImpHost

variable {σ ε : Type}

namespace Machine

/-- The machine with the commands `later` after its own. -/
def below (machine : Machine) (later : List Command) : Machine :=
  ⟨machine.pending ++ later, machine.memory⟩

end Machine

/-- The commands `later` are still to be run after those of a run that is not over. -/
def Outcome.below (later : List Command) : Outcome σ ε → Outcome σ ε
  | .running s machine => .running s (machine.below later)
  | o => o

theorem Outcome.host_below (later : List Command) (o : Outcome σ ε) :
    (o.below later).host = o.host := by
  cases o <;> rfl

namespace Machine

/-- A step does not look at the commands that come later. -/
theorem step_below (c : Command) (k later : List Command) (m : Memory) :
    c.step (k ++ later) m = (c.step k m).map fun machine => machine.below later := by
  cases c with
  | skip | seq | hole => rfl
  | assign x e =>
    simp only [Command.step]
    cases e.eval m <;> rfl
  | ite e a b =>
    simp only [Command.step]
    cases e.eval m <;> rfl
  | whileDo e a =>
    simp only [Command.step]
    cases e.eval m with
    | error why => rfl
    | ok v => cases v <;> rfl

variable {hook : Hook σ ε} {s : σ} {machine : Machine} {n : Nat}

/-- What comes later is still to be done when a run is not through with what comes first, and does
not change how it goes until then. -/
theorem run_below_of_not_done (later : List Command)
    (undone : ∀ s' m', run hook n s machine ≠ .done s' m') :
    run hook n s (machine.below later) = (run hook n s machine).below later := by
  induction n generalizing s machine with
  | zero =>
    obtain ⟨pending, m⟩ := machine
    cases pending with
    | nil => exact (undone s m rfl).elim
    | cons c k => rfl
  | succ n ih =>
    obtain ⟨pending, m⟩ := machine
    cases pending with
    | nil => exact (undone s m rfl).elim
    | cons c k =>
      have step_later := step_below c k later m
      cases told : (hook s c).2 with
      | some why =>
        rw [run_of_stop told]
        exact run_of_stop told
      | none =>
        cases step : c.step k m with
        | error why =>
          rw [step] at step_later
          rw [run_of_error told step]
          exact run_of_error told step_later
        | ok machine =>
          rw [step] at step_later
          rw [run_of_ok told step] at undone ⊢
          exact (run_of_ok told step_later).trans (ih undone)

/-- When a run is through with what comes first, it goes on with what comes later. It has taken one
step for each question. -/
theorem run_below_of_done {asked asked' : List Command} {s' : σ} {m' : Memory}
    (done : run hook.noting n (asked, s) machine = .done (asked', s') m') (later : List Command)
    (more : Nat) :
    ∃ own, asked' = asked ++ own ∧
      run hook.noting (own.length + more) (asked, s) (machine.below later) =
        run hook.noting more (asked', s') ⟨later, m'⟩ := by
  induction n generalizing s machine asked with
  | zero =>
    obtain ⟨pending, m⟩ := machine
    cases pending with
    | cons c k => cases done
    | nil =>
      cases done
      refine ⟨[], (List.append_nil _).symm, ?_⟩
      rw [List.length_nil, Nat.zero_add]
      rfl
  | succ n ih =>
    obtain ⟨pending, m⟩ := machine
    cases pending with
    | nil =>
      cases done
      refine ⟨[], (List.append_nil _).symm, ?_⟩
      rw [List.length_nil, Nat.zero_add]
      rfl
    | cons c k =>
      have step_later := step_below c k later m
      cases told : (hook.noting (asked, s) c).2 with
      | some why =>
        rw [run_of_stop told] at done
        cases done
      | none =>
        cases step : c.step k m with
        | error why =>
          rw [run_of_error told step] at done
          cases done
        | ok machine =>
          rw [step] at step_later
          rw [run_of_ok told step] at done
          obtain ⟨own, rfl, after⟩ := ih done
          refine ⟨c :: own, by rw [List.append_assoc]; rfl, ?_⟩
          rw [List.length_cons, Nat.succ_add]
          exact (run_of_ok told step_later).trans after

end Machine

/-! ## Runs of a command -/

namespace Command

/-- The run of a command without a host ends with the store `m'`. -/
def Succeeds (c : Command) (m m' : Memory) : Prop :=
  ∃ n, Machine.run Machine.freely n () (.start c m) = .done () m'

/-- The run of a command without a host fails for `why` and leaves the store `m'`. -/
def Fails (c : Command) (m : Memory) (why : EvalError) (m' : Memory) : Prop :=
  ∃ n, Machine.run Machine.freely n () (.start c m) = .failed (.program why) () m'

/-- The run of a command without a host never ends. -/
def Diverges (c : Command) (m : Memory) : Prop :=
  ∀ n, ¬ (Machine.run Machine.freely n () (.start c m)).Ended

/-- The first `n` steps of a command, with a host that stops no run and keeps the commands about
which it is asked. -/
def traced (c : Command) (m : Memory) (n : Nat) : Outcome (List Command × Unit) Empty :=
  Machine.run Machine.freely.noting n ([], ()) (.start c m)

/-- The first `n` commands about which a host is asked, or all of them if there are fewer. -/
def asked (c : Command) (m : Memory) (n : Nat) : List Command :=
  (c.traced m n).host.1

variable {b : BExpr} {c : Command} {m : Memory}

/-- What a loop is unrolled to: a test, after which the loop follows its body. -/
def unrolled (b : BExpr) (c : Command) : Command :=
  .ite b (.seq c (.whileDo b c)) .skip

theorem traced_map (c : Command) (m : Memory) (n : Nat) :
    (c.traced m n).map Prod.snd = Machine.run Machine.freely n () (.start c m) :=
  Machine.run_noting Machine.freely n [] () (.start c m)

/-! ## The first steps of a loop -/

theorem traced_of_error {why : EvalError} (fails : b.eval m = .error why) (c : Command) (n : Nat) :
    (whileDo b c).traced m (n + 1) = .failed (.program why) ([whileDo b c], ()) m ∧
      (unrolled b c).traced m (n + 1) = .failed (.program why) ([unrolled b c], ()) m := by
  constructor
  · refine Machine.run_of_error rfl ?_
    rw [step, fails]
    rfl
  · refine Machine.run_of_error rfl ?_
    rw [unrolled, step, fails]
    rfl

theorem traced_of_false (stops : b.eval m = .ok false) (c : Command) (n : Nat) :
    (whileDo b c).traced m (n + 1) = .done ([whileDo b c], ()) m ∧
      (unrolled b c).traced m (n + 2) = .done ([unrolled b c, .skip], ()) m := by
  have loop : (whileDo b c).step [] m = .ok ⟨[], m⟩ := by
    rw [step, stops]
    rfl
  have test : (unrolled b c).step [] m = .ok ⟨[.skip], m⟩ := by
    rw [unrolled, step, stops]
    rfl
  constructor
  · exact (Machine.run_of_ok rfl loop).trans (Machine.run_nil ..)
  · refine (Machine.run_of_ok rfl test).trans ?_
    exact (Machine.run_of_ok rfl rfl).trans (Machine.run_nil ..)

/-- After one step of a loop and after two of what it is unrolled to, both have its body and then
the loop to run. -/
theorem traced_of_true (goesOn : b.eval m = .ok true) (c : Command) (n : Nat) :
    (whileDo b c).traced m (n + 1) =
        Machine.run Machine.freely.noting n ([whileDo b c], ()) ⟨[c, whileDo b c], m⟩ ∧
      (unrolled b c).traced m (n + 2) =
        Machine.run Machine.freely.noting n ([unrolled b c, .seq c (whileDo b c)], ())
          ⟨[c, whileDo b c], m⟩ := by
  have loop : (whileDo b c).step [] m = .ok ⟨[c, whileDo b c], m⟩ := by
    rw [step, goesOn]
    rfl
  have test : (unrolled b c).step [] m = .ok ⟨[.seq c (whileDo b c)], m⟩ := by
    rw [unrolled, step, goesOn]
    rfl
  constructor
  · exact Machine.run_of_ok rfl loop
  · exact (Machine.run_of_ok rfl test).trans (Machine.run_of_ok rfl rfl)

/-- Without a host, a loop is one step ahead of what it is unrolled to. -/
theorem freely_unrolled (b : BExpr) (c : Command) (m : Memory) (n : Nat) :
    Machine.run Machine.freely (n + 2) () (.start (unrolled b c) m) =
      Machine.run Machine.freely (n + 1) () (.start (whileDo b c) m) := by
  rw [← traced_map, ← traced_map]
  cases test : b.eval m with
  | error why =>
    rw [(traced_of_error test c (n + 1)).2, (traced_of_error test c n).1]
    rfl
  | ok v =>
    cases v with
    | false =>
      rw [(traced_of_false test c n).1, (traced_of_false test c n).2]
      rfl
    | true =>
      rw [(traced_of_true test c n).1, (traced_of_true test c n).2, Machine.run_noting,
        Machine.run_noting]

/-- The same ends are come to, sooner or later. -/
theorem exists_run_unrolled {o : Outcome Unit Empty} (ended : o.Ended) :
    (∃ n, Machine.run Machine.freely n () (.start (whileDo b c) m) = o) ↔
      ∃ n, Machine.run Machine.freely n () (.start (unrolled b c) m) = o := by
  constructor
  · rintro ⟨n, rfl⟩
    refine ⟨n + 2, (freely_unrolled b c m n).trans ?_⟩
    exact Machine.run_of_ended ended (Nat.le_succ n)
  · rintro ⟨n, rfl⟩
    refine ⟨n + 1, (freely_unrolled b c m n).symm.trans ?_⟩
    exact Machine.run_of_ended ended (Nat.le_add_right n 2)

theorem diverges_unrolled : (whileDo b c).Diverges m ↔ (unrolled b c).Diverges m := by
  constructor
  · intro diverges n ended
    obtain ⟨n', same⟩ := (exists_run_unrolled ended).2 ⟨n, rfl⟩
    rw [← same] at ended
    exact diverges n' ended
  · intro diverges n ended
    obtain ⟨n', same⟩ := (exists_run_unrolled ended).1 ⟨n, rfl⟩
    rw [← same] at ended
    exact diverges n' ended

/-! ## Questions -/

/-- A loop that ends asks once less than what it is unrolled to. -/
theorem asked_unrolled {n : Nat} {m' : Memory} {t : List Command × Unit}
    (done : (unrolled b c).traced m n = .done t m') :
    ∃ n' t', (whileDo b c).traced m n' = .done t' m' ∧ t.1.length = t'.1.length + 1 := by
  have ended : ((unrolled b c).traced m n).Ended := by
    rw [done]
    trivial
  -- With two steps more the run is what it was.
  have later : (unrolled b c).traced m (n + 2) = .done t m' :=
    (Machine.run_of_ended ended (Nat.le_add_right n 2)).trans done
  refine ⟨n + 1, ?_⟩
  cases test : b.eval m with
  | error why =>
    rw [(traced_of_error test c (n + 1)).2] at later
    cases later
  | ok v =>
    cases v with
    | false =>
      rw [(traced_of_false test c n).2] at later
      cases later
      exact ⟨_, (traced_of_false test c n).1, rfl⟩
    | true =>
      obtain ⟨loop, test⟩ := traced_of_true test c n
      rw [test, Machine.run_noting_from] at later
      rw [loop, Machine.run_noting_from]
      generalize Machine.run Machine.freely.noting n ([], ()) ⟨[c, whileDo b c], m⟩ = o at later ⊢
      cases o with
      | done t₀ m₀ =>
        cases later
        refine ⟨_, rfl, ?_⟩
        simp
      | failed | running => cases later

/-- A loop whose body ends asks about itself, then as its body does, and then as a loop from where
the body has come to. -/
theorem asked_of_body_done {n : Nat} {m₁ : Memory} {t : List Command × Unit}
    (goesOn : b.eval m = .ok true) (done : c.traced m n = .done t m₁) (more : Nat) :
    (whileDo b c).asked m (1 + t.1.length + more) =
      whileDo b c :: t.1 ++ (whileDo b c).asked m₁ more := by
  obtain ⟨questions, _⟩ := t
  obtain ⟨_, rfl, after⟩ := Machine.run_below_of_done done [whileDo b c] more
  have loop := (traced_of_true goesOn c (questions.length + more)).1
  have body : Machine.run Machine.freely.noting (questions.length + more) ([], ())
      ⟨[c, whileDo b c], m⟩ = _ := after
  rw [Machine.run_noting_from, body, Machine.run_noting_from] at loop
  dsimp only
  rw [Nat.add_assoc, Nat.add_comm 1, asked, loop, Outcome.host_map, Outcome.host_map]
  rfl

/-- A loop whose body does not end asks about itself, and then as its body does. -/
theorem asked_of_body_undone (goesOn : b.eval m = .ok true) (undone : ∀ m₁, ¬ c.Succeeds m m₁)
    (n : Nat) : (whileDo b c).asked m (n + 1) = whileDo b c :: c.asked m n := by
  have body : ∀ t m₁, c.traced m n ≠ .done t m₁ := by
    intro t m₁ done
    refine undone m₁ ⟨n, ?_⟩
    rw [← traced_map, done]
    rfl
  have below : Machine.run Machine.freely.noting n ([], ()) ⟨[c, whileDo b c], m⟩ = _ :=
    Machine.run_below_of_not_done [whileDo b c] body
  rw [asked, (traced_of_true goesOn c n).1, Machine.run_noting_from, below, Outcome.host_map,
    Outcome.host_below]
  rfl

/-- A loop goes the same way as what it is unrolled to, whether it ends, fails or never ends. A host
that stops neither is asked once less by a loop that ends. It is asked about the loop, then by the
body if the test holds, and then by the loop again if the body ends. -/
theorem while_unrolls (b : BExpr) (c : Command) (m : Memory) :
    let loop := whileDo b c
    let unrolled := ite b (seq c loop) skip
    (∀ m', loop.Succeeds m m' ↔ unrolled.Succeeds m m') ∧
    (∀ why m', loop.Fails m why m' ↔ unrolled.Fails m why m') ∧
    (loop.Diverges m ↔ unrolled.Diverges m) ∧
    (∀ n t m', unrolled.traced m n = .done t m' →
      ∃ n' t', loop.traced m n' = .done t' m' ∧ t.1.length = t'.1.length + 1) ∧
    (b.eval m = .ok false → ∀ n, loop.asked m (n + 1) = [loop]) ∧
    (b.eval m = .ok true →
      (∀ n t m₁, c.traced m n = .done t m₁ →
        ∀ more, loop.asked m (1 + t.1.length + more) = loop :: t.1 ++ loop.asked m₁ more) ∧
      ((∀ m₁, ¬ c.Succeeds m m₁) → ∀ n, loop.asked m (n + 1) = loop :: c.asked m n)) := by
  refine ⟨fun m' => ?_, fun why m' => ?_, ?_, fun n t m' done => ?_, fun stops n => ?_,
    fun goesOn => ⟨fun n t m₁ done more => ?_, fun undone n => ?_⟩⟩
  · exact exists_run_unrolled trivial
  · exact exists_run_unrolled trivial
  · exact diverges_unrolled
  · exact asked_unrolled done
  · rw [asked, (traced_of_false stops c n).1]
    rfl
  · exact asked_of_body_done goesOn done more
  · exact asked_of_body_undone goesOn undone n

/-- A loop that counts up to two. -/
theorem while_unrolls_twice :
    let body : Command := .assign "x" (.binary .add (.var "x") (.int 1))
    let test : BExpr := .compare .le (.var "x") (.int 1)
    let loop := whileDo test body
    let zero : Memory := Table.set ∅ "x" (.int 0)
    (ite test (seq body loop) skip).Succeeds zero (zero.set "x" (.int 2)) ∧
      loop.asked zero 5 = [loop, body, loop, body, loop] := by
  intro body test loop zero
  obtain ⟨succeeds, _, _, _, _, iterates⟩ := while_unrolls test body zero
  refine ⟨(succeeds _).1 ⟨5, rfl⟩, ?_⟩
  have once : body.traced zero 1 = .done ([body], ()) (zero.set "x" (.int 1)) := rfl
  exact (iterates rfl).1 1 _ _ once 3

end Command

end ImpHost
