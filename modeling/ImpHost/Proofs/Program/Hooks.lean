import ImpHost.Proofs.Program.Run

/-!
Runs of one program with different hosts.

A host is asked before each step and says nothing but whether to go on, so what a run does until it
is stopped is the same with every host. `Hook.noting` makes a host keep the commands about which it
was asked, and `Machine.run_map` carries a run from one host to another.

Main statement: a host that lets `n` commands pass and stops the run at the next one cuts it off
there, with the store that it has at that moment, and does nothing else (`Machine.run_cut_off`).
-/

namespace ImpHost

variable {σ τ ε δ : Type}

namespace Outcome

/-- The outcomes of two runs that no host stopped and that went the same way. -/
inductive Alike : Outcome σ ε → Outcome τ δ → Prop
  | done (s : σ) (t : τ) (m : Memory) : Alike (.done s m) (.done t m)
  | failed (why : EvalError) (s : σ) (t : τ) (m : Memory) :
    Alike (.failed (.program why) s m) (.failed (.program why) t m)
  | running (s : σ) (t : τ) (machine : Machine) : Alike (.running s machine) (.running t machine)

theorem Alike.ended {o : Outcome σ ε} {o' : Outcome τ δ} (alike : o.Alike o') (ended : o.Ended) :
    o'.Ended := by
  cases alike with
  | done | failed => trivial
  | running => exact ended

/-- The same outcome with `f` of the host's state. -/
def map (f : σ → τ) : Outcome σ ε → Outcome τ ε
  | .done s m => .done (f s) m
  | .failed why s m => .failed why (f s) m
  | .running s machine => .running (f s) machine

@[simp]
theorem host_map (f : σ → τ) (o : Outcome σ ε) : (o.map f).host = f o.host := by
  cases o <;> rfl

end Outcome

namespace Hook

/-- The same host, which also keeps the commands about which it was asked, in order. -/
def noting (hook : Hook σ ε) : Hook (List Command × σ) ε :=
  fun s c => ((s.1 ++ [c], (hook s.2 c).1), (hook s.2 c).2)

/-- The host stops no run. -/
def NeverStops (hook : Hook σ ε) : Prop :=
  ∀ s c, (hook s c).2 = none

/-- From the state on, the host lets the first `n` commands pass, whatever they are, and stops the
run at the next one for `why`. -/
def StopsAfter (hook : Hook σ ε) (why : ε) : (n : Nat) → σ → Prop
  | 0, s => ∀ c, (hook s c).2 = some why
  | n + 1, s => ∀ c, (hook s c).2 = none ∧ hook.StopsAfter why n (hook s c).1

end Hook

namespace Machine

variable {hook : Hook σ ε} {other : Hook τ δ} {s : σ} {t : τ} {c : Command} {k : List Command}
  {m : Memory} {machine : Machine} {fuel n : Nat}

/-! ## The first step of a run -/

theorem run_of_stop {why : ε} (stop : (hook s c).2 = some why) :
    run hook (fuel + 1) s ⟨c :: k, m⟩ = .failed (.host why) (hook s c).1 m := by
  have told : hook s c = ((hook s c).1, some why) := Prod.ext rfl stop
  rw [run, told]

theorem run_of_error {why : EvalError} (pass : (hook s c).2 = none)
    (step : c.step k m = .error why) :
    run hook (fuel + 1) s ⟨c :: k, m⟩ = .failed (.program why) (hook s c).1 m := by
  have told : hook s c = ((hook s c).1, none) := Prod.ext rfl pass
  rw [run, told]
  dsimp only
  rw [step]

theorem run_of_ok (pass : (hook s c).2 = none) (step : c.step k m = .ok machine) :
    run hook (fuel + 1) s ⟨c :: k, m⟩ = run hook fuel (hook s c).1 machine := by
  have told : hook s c = ((hook s c).1, none) := Prod.ext rfl pass
  rw [run, told]
  dsimp only
  rw [step]

/-! ## Other hosts -/

/-- A host that answers as another one does, in states that `f` makes of the other's, takes part in
the same runs. -/
theorem run_map {hook' : Hook τ ε} (f : σ → τ)
    (same : ∀ s c, hook' (f s) c = (f (hook s c).1, (hook s c).2)) (fuel : Nat) (s : σ)
    (machine : Machine) : run hook' fuel (f s) machine = (run hook fuel s machine).map f := by
  induction fuel generalizing s machine with
  | zero =>
    obtain ⟨pending, m⟩ := machine
    cases pending <;> rfl
  | succ fuel ih =>
    obtain ⟨pending, m⟩ := machine
    cases pending with
    | nil => rfl
    | cons c k =>
      have answer : (hook' (f s) c).2 = (hook s c).2 := by rw [same]
      have state : (hook' (f s) c).1 = f (hook s c).1 := by rw [same]
      cases told : (hook s c).2 with
      | some why =>
        rw [run_of_stop told, run_of_stop (answer.trans told), state]
        rfl
      | none =>
        cases step : c.step k m with
        | error why =>
          rw [run_of_error told step, run_of_error (answer.trans told) step, state]
          rfl
        | ok machine =>
          rw [run_of_ok told step, run_of_ok (answer.trans told) step, state]
          exact ih _ machine

/-- A host takes part in the same runs when it keeps the commands. -/
theorem run_noting (hook : Hook σ ε) (fuel : Nat) (asked : List Command) (s : σ)
    (machine : Machine) :
    (run hook.noting fuel (asked, s) machine).map Prod.snd = run hook fuel s machine := by
  have same (t : List Command × σ) (c : Command) :
      hook t.2 c = ((hook.noting t c).1.2, (hook.noting t c).2) := rfl
  exact (run_map Prod.snd same fuel (asked, s) machine).symm

/-- What was asked before a run stays in front of what is asked in it. -/
theorem run_noting_from (hook : Hook σ ε) (fuel : Nat) (asked : List Command) (s : σ)
    (machine : Machine) :
    run hook.noting fuel (asked, s) machine =
      (run hook.noting fuel ([], s) machine).map fun t => (asked ++ t.1, t.2) := by
  have same (t : List Command × σ) (c : Command) :
      hook.noting (asked ++ t.1, t.2) c =
        ((asked ++ (hook.noting t c).1.1, (hook.noting t c).1.2), (hook.noting t c).2) := by
    simp only [Hook.noting, List.append_assoc]
  have from_nil := run_map (fun t => (asked ++ t.1, t.2)) same fuel ([], s) machine
  rwa [List.append_nil] at from_nil

/-- Two hosts that stop no run take part in the same runs. -/
theorem run_alike (never : hook.NeverStops) (never' : other.NeverStops) (fuel : Nat) (s : σ)
    (t : τ) (machine : Machine) :
    (run hook fuel s machine).Alike (run other fuel t machine) := by
  induction fuel generalizing s t machine with
  | zero =>
    obtain ⟨pending, m⟩ := machine
    cases pending with
    | nil => exact .done s t m
    | cons c k => exact .running s t ⟨c :: k, m⟩
  | succ fuel ih =>
    obtain ⟨pending, m⟩ := machine
    cases pending with
    | nil => exact .done s t m
    | cons c k =>
      cases step : c.step k m with
      | error why =>
        rw [run_of_error (never s c) step, run_of_error (never' t c) step]
        exact .failed why _ _ m
      | ok machine =>
        rw [run_of_ok (never s c) step, run_of_ok (never' t c) step]
        exact ih _ _ machine

/-- A run asks once for each step. One that is not over has asked as often as it has fuel. -/
theorem length_asked (never : hook.NeverStops) (fuel : Nat) (asked : List Command) (s : σ)
    (machine : Machine) :
    (run hook.noting fuel (asked, s) machine).host.1.length ≤ asked.length + fuel ∧
      (¬ (run hook.noting fuel (asked, s) machine).Ended →
        (run hook.noting fuel (asked, s) machine).host.1.length = asked.length + fuel) := by
  induction fuel generalizing asked s machine with
  | zero =>
    obtain ⟨pending, m⟩ := machine
    cases pending <;> exact ⟨Nat.le_refl _, fun _ => rfl⟩
  | succ fuel ih =>
    obtain ⟨pending, m⟩ := machine
    cases pending with
    | nil => exact ⟨Nat.le_add_right .., fun running => (running trivial).elim⟩
    | cons c k =>
      have pass : (hook.noting (asked, s) c).2 = none := never s c
      cases step : c.step k m with
      | error why =>
        rw [run_of_error pass step]
        refine ⟨?_, fun running => (running trivial).elim⟩
        simp only [Outcome.host, Hook.noting, List.length_append, List.length_singleton]
        omega
      | ok machine =>
        rw [run_of_ok pass step]
        have later := ih (asked ++ [c]) (hook s c).1 machine
        rw [List.length_append, List.length_singleton, Nat.add_assoc, Nat.add_comm 1 fuel] at later
        exact later

/-! ## Hosts that stop a run -/

/-- A run that is over after as many steps as the host lets pass is left alone. -/
theorem run_of_few {why : δ} (never : hook.NeverStops) (stops : other.StopsAfter why n t)
    (asked : List Command) (ended : (run hook.noting n (asked, s) machine).Ended) :
    (run hook.noting n (asked, s) machine).Alike (run other.noting n (asked, t) machine) ∧
      (run other.noting n (asked, t) machine).host.1 =
        (run hook.noting n (asked, s) machine).host.1 := by
  induction n generalizing asked s t machine with
  | zero =>
    obtain ⟨pending, m⟩ := machine
    cases pending with
    | nil => exact ⟨.done _ _ m, rfl⟩
    | cons c k => exact ended.elim
  | succ n ih =>
    obtain ⟨pending, m⟩ := machine
    cases pending with
    | nil => exact ⟨.done _ _ m, rfl⟩
    | cons c k =>
      obtain ⟨pass, later⟩ := stops c
      have pass' : (hook.noting (asked, s) c).2 = none := never s c
      have passOther : (other.noting (asked, t) c).2 = none := pass
      cases step : c.step k m with
      | error why =>
        rw [run_of_error pass' step, run_of_error passOther step]
        exact ⟨.failed why _ _ m, rfl⟩
      | ok machine =>
        rw [run_of_ok pass' step] at ended ⊢
        rw [run_of_ok passOther step]
        exact ih later (asked ++ [c]) ended

/-- A run that goes on after as many steps as the host lets pass is stopped at the next question,
with the store that it has there. -/
theorem run_of_many {why : δ} {asked' : List Command} {s' : σ} (never : hook.NeverStops)
    (stops : other.StopsAfter why n t) (asked : List Command)
    (running : run hook.noting n (asked, s) machine = .running (asked', s') ⟨c :: k, m⟩) :
    ∃ t', run other.noting (n + 1) (asked, t) machine =
      .failed (.host why) (asked' ++ [c], t') m := by
  induction n generalizing asked s t machine with
  | zero =>
    obtain ⟨pending, m₀⟩ := machine
    cases pending with
    | nil => cases running
    | cons c₀ k₀ =>
      cases running
      have stop : (other.noting (asked', t) c).2 = some why := stops c
      exact ⟨_, run_of_stop stop⟩
  | succ n ih =>
    obtain ⟨pending, m₀⟩ := machine
    cases pending with
    | nil => cases running
    | cons c₀ k₀ =>
      obtain ⟨pass, later⟩ := stops c₀
      have pass' : (hook.noting (asked, s) c₀).2 = none := never s c₀
      have passOther : (other.noting (asked, t) c₀).2 = none := pass
      cases step : c₀.step k₀ m₀ with
      | error why =>
        rw [run_of_error pass' step] at running
        cases running
      | ok machine =>
        rw [run_of_ok pass' step] at running
        rw [run_of_ok passOther step]
        exact ih later (asked ++ [c₀]) running

/-- What was asked before is the front of what has been asked after a run. -/
theorem asked_prefix (hook : Hook σ ε) (fuel : Nat) (asked : List Command) (s : σ)
    (machine : Machine) : asked <+: (run hook.noting fuel (asked, s) machine).host.1 := by
  rw [run_noting_from, Outcome.host_map]
  exact List.prefix_append asked _

theorem asked_of_running {asked asked' : List Command} {s' : σ} (never : hook.NeverStops)
    (running : run hook.noting n (asked, s) machine = .running (asked', s') ⟨c :: k, m⟩)
    (more : n < fuel) : asked' ++ [c] <+: (run hook.noting fuel (asked, s) machine).host.1 := by
  obtain ⟨rest, rfl⟩ := Nat.exists_eq_add_of_lt more
  have pass : (hook.noting (asked', s') c).2 = none := never s' c
  rw [Nat.add_assoc, run_add, running]
  dsimp only [Outcome.resume]
  cases step : c.step k m with
  | error why =>
    rw [run_of_error pass step]
    exact List.prefix_rfl
  | ok machine =>
    rw [run_of_ok pass step]
    exact asked_prefix hook rest (asked' ++ [c]) _ machine

/-- A run is over after `n` steps, or it has asked `n` times and comes to the next question. -/
theorem ended_or_asks (never : hook.NeverStops) (n : Nat) (s : σ) (machine : Machine) :
    (run hook.noting n ([], s) machine).Ended ∨
      ∃ asked s' next k left, run hook.noting n ([], s) machine =
        .running (asked, s') ⟨next :: k, left⟩ ∧ asked.length = n := by
  rcases (run hook.noting n ([], s) machine).ended_or_running with
    ended | ⟨⟨asked, s'⟩, ⟨pending, left⟩, running⟩
  · exact .inl ended
  · obtain ⟨next, k, rfl⟩ := pending_of_running running
    have count := (length_asked never n [] s machine).2
    rw [running, List.length_nil, Nat.zero_add] at count
    exact .inr ⟨asked, s', next, k, left, running, count id⟩

/-- A run that is over after `n` steps has asked at most `n` times. -/
theorem length_asked_of_ended (never : hook.NeverStops)
    (ended : (run hook.noting n ([], s) machine).Ended) (fuel : Nat) :
    (run hook.noting fuel ([], s) machine).host.1.length ≤ n := by
  have bound (fuel : Nat) : (run hook.noting fuel ([], s) machine).host.1.length ≤ fuel := by
    have bound := (length_asked never fuel [] s machine).1
    rwa [List.length_nil, Nat.zero_add] at bound
  rcases Nat.le_total fuel n with less | more
  · exact Nat.le_trans (bound fuel) less
  · rw [run_of_ended ended more]
    exact bound n

/-- Compare the runs of a command with a host that stops none and with one that lets `n` commands
pass and stops the run at the next one. If the first run comes to ask once more, the second is
stopped there: it has asked about the same commands, and leaves the store that the first run has at
this question. Otherwise both go the same way to their end. To have no host is to have one that
stops no run. -/
theorem run_cut_off (c : Command) (m : Memory) (hook : Hook σ ε) (s : σ) (other : Hook τ δ) (t : τ)
    (why : δ) (n : Nat) (never : hook.NeverStops) (stops : other.StopsAfter why n t) :
    let free (fuel : Nat) := run hook.noting fuel ([], s) (start c m)
    let stopped (fuel : Nat) := run other.noting fuel ([], t) (start c m)
    ((∃ fuel, n < (free fuel).host.1.length) →
      ∃ asked s' next k left, free n = .running (asked, s') ⟨next :: k, left⟩ ∧
        asked.length = n ∧ (∀ fuel, n < fuel → asked ++ [next] <+: (free fuel).host.1) ∧
        ∀ fuel, n < fuel → ∃ t', stopped fuel = .failed (.host why) (asked ++ [next], t') left) ∧
    ((∀ fuel, (free fuel).host.1.length ≤ n) →
      (free n).Ended ∧ ∀ fuel, n ≤ fuel →
        (free fuel).Alike (stopped fuel) ∧ (stopped fuel).host.1 = (free fuel).host.1) ∧
    ∀ fuel, (free fuel).Alike (run freely fuel () (start c m)) := by
  dsimp only
  refine ⟨?_, ?_, fun fuel => ?_⟩
  · rintro ⟨reach, many⟩
    rcases ended_or_asks never n s (start c m) with
      ended | ⟨asked, s', next, k, left, running, count⟩
    · exact (Nat.not_lt.2 (length_asked_of_ended never ended reach) many).elim
    · obtain ⟨t', cut⟩ := run_of_many never stops [] running
      have ended : (run other.noting (n + 1) ([], t) (start c m)).Ended := by
        rw [cut]
        trivial
      refine ⟨asked, s', next, k, left, running, count, fun fuel more => ?_, fun fuel more => ?_⟩
      · exact asked_of_running never running more
      · exact ⟨t', (run_of_ended ended more).trans cut⟩
  · intro few
    rcases ended_or_asks never n s (start c m) with
      ended | ⟨asked, s', next, k, left, running, count⟩
    · obtain ⟨alike, same⟩ := run_of_few never stops [] ended
      refine ⟨ended, fun fuel more => ?_⟩
      rw [run_of_ended ended more, run_of_ended (alike.ended ended) more]
      exact ⟨alike, same⟩
    · -- The next question would be one too many.
      have more := (asked_of_running never running (Nat.lt_succ_self n)).length_le
      rw [List.length_append, count] at more
      exact (Nat.not_succ_le_self n (Nat.le_trans more (few (n + 1)))).elim
  · have passes : hook.noting.NeverStops := fun s c => never s.2 c
    exact run_alike passes (fun _ _ => rfl) fuel _ _ _

/-- The host that lets as many commands pass as its state says. -/
def countdown (why : ε) : Hook Nat ε :=
  fun left _ => (left - 1, if left = 0 then some why else none)

theorem stopsAfter_countdown (why : ε) (n : Nat) : (countdown why).StopsAfter why n n := by
  induction n with
  | zero => exact fun _ => rfl
  | succ n ih => exact fun _ => ⟨rfl, ih⟩

/-- A loop without end is stopped at the fourth question, before the second assignment. -/
theorem run_cut_off_endless :
    let body : Command := .assign "x" (.binary .add (.var "x") (.int 1))
    let loop : Command := .whileDo (.lit true) body
    let zero : Memory := Table.set ∅ "x" (.int 0)
    ∃ t', run (countdown "stop").noting 4 ([], 3) (start loop zero) =
      .failed (.host "stop") ([loop, body, loop, body], t') (zero.set "x" (.int 1)) := by
  intro body loop zero
  have cut := (run_cut_off loop zero freely () (countdown "stop") 3 "stop" 3 (fun _ _ => rfl)
    (stopsAfter_countdown "stop" 3)).1 ⟨4, by decide⟩
  obtain ⟨asked, s', next, k, left, running, _, _, stopped⟩ := cut
  have third : run freely.noting 3 ([], ()) (start loop zero) =
      .running ([loop, body, loop], ()) ⟨[body, loop], zero.set "x" (.int 1)⟩ := rfl
  cases third.symm.trans running
  exact stopped 4 (by decide)

end Machine

end ImpHost
