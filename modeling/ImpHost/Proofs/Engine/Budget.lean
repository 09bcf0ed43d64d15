import ImpHost.Engine
import ImpHost.Proofs.Program.Run

/-!
Step budgets.

The engine's say before a step counts the step and asks nothing else of the program, so two runs
that differ in their budgets only go the same way until one of the budgets is used up
(`Meter.run_eq_of_not_exceeded`). A budget of `n` is used up at the question before step `n + 1`,
hence every run under it is over after `n + 1` questions, and it is cut off exactly where the run
without a budget asks for the step `n + 1` (`Engine.runWithin_exact`).
-/

namespace ImpHost

namespace Meter

/-- The meter after `k` more questions, each of which counted a step. -/
def count (s : Meter) (k : Nat) : Meter :=
  ⟨s.steps + k, s.asked + k, s.cancelled⟩

/-- The budget has no room for `k` steps. -/
def Exceeded (budget : Int) (k : Nat) : Prop :=
  0 < budget ∧ budget < k

variable {budget budget' : Int} {s s' : Meter} {machine machine' : Machine} {fuel : Nat}

theorem count_steps (s : Meter) (k : Nat) : (s.count k).steps = s.steps + k := rfl

theorem count_count (s : Meter) (j k : Nat) : (s.count j).count k = s.count (j + k) := by
  simp only [count, Nat.add_assoc]

theorem Exceeded.mono {j k : Nat} (exceeded : Exceeded budget j) (le : j ≤ k) :
    Exceeded budget k :=
  ⟨exceeded.1, Int.lt_of_lt_of_le exceeded.2 (Int.ofNat_le.2 le)⟩

theorem not_exceeded_of_le {n k : Nat} (le : k ≤ n) : ¬ Exceeded n k :=
  fun exceeded => Nat.not_lt.2 le (Int.ofNat_lt.1 exceeded.2)

theorem not_exceeded_of_nonpos {k : Nat} (unbounded : budget ≤ 0) : ¬ Exceeded budget k :=
  fun exceeded => Int.not_lt.2 unbounded exceeded.1

/-- In a context that never ends, an engine that was not cancelled counts the step and stops the
run where the budget is exceeded. -/
theorem tick_background (budget : Int) (active : s.cancelled = false) (c : Command) :
    (Exceeded budget (s.steps + 1) ∧
        tick budget .background s c = (s.count 1, some (.limit budget))) ∨
      (¬ Exceeded budget (s.steps + 1) ∧ tick budget .background s c = (s.count 1, none)) := by
  have told : tick budget .background s c =
      if 0 < budget ∧ budget < (s.steps + 1 : Nat) then (s.count 1, some (.limit budget))
      else (s.count 1, none) := by
    simp only [tick, Context.background, active, Bool.false_eq_true, if_false, count]
  by_cases exceeded : Exceeded budget (s.steps + 1)
  · exact .inl ⟨exceeded, told.trans (if_pos exceeded)⟩
  · exact .inr ⟨exceeded, told.trans (if_neg exceeded)⟩

/-- What the first step of a run comes to: the budget is exceeded, the program fails, or the run
goes on. -/
theorem run_cons (budget : Int) (active : s.cancelled = false) (fuel : Nat) (c : Command)
    (k : List Command) (m : Memory) :
    (Exceeded budget (s.steps + 1) ∧
        Machine.run (tick budget .background) (fuel + 1) s ⟨c :: k, m⟩ =
          .failed (.host (.limit budget)) (s.count 1) m) ∨
      (¬ Exceeded budget (s.steps + 1) ∧ ∃ e, c.step k m = .error e ∧
        Machine.run (tick budget .background) (fuel + 1) s ⟨c :: k, m⟩ =
          .failed (.program e) (s.count 1) m) ∨
      (¬ Exceeded budget (s.steps + 1) ∧ ∃ machine, c.step k m = .ok machine ∧
        Machine.run (tick budget .background) (fuel + 1) s ⟨c :: k, m⟩ =
          machine.run (tick budget .background) fuel (s.count 1)) := by
  rw [Machine.run]
  rcases tick_background budget active c with ⟨exceeded, told⟩ | ⟨within, told⟩
  · rw [told]
    exact .inl ⟨exceeded, rfl⟩
  · rw [told]
    cases step : c.step k m with
    | error e => exact .inr (.inl ⟨within, e, rfl, rfl⟩)
    | ok machine => exact .inr (.inr ⟨within, machine, rfl, rfl⟩)

/-- Each question counts one step. A run that is not over has asked once for each unit of its fuel,
and one whose steps exceed its budget was stopped for that. -/
theorem run_account (budget : Int) (active : s.cancelled = false)
    (room : ¬ Exceeded budget s.steps) (fuel : Nat) (machine : Machine) :
    ∃ k ≤ fuel, (machine.run (tick budget .background) fuel s).host = s.count k ∧
      (¬ (machine.run (tick budget .background) fuel s).Ended → k = fuel) ∧
      (Exceeded budget (s.steps + k) → ∃ s' m,
        machine.run (tick budget .background) fuel s = .failed (.host (.limit budget)) s' m) := by
  induction fuel generalizing s machine with
  | zero =>
    obtain ⟨pending, m⟩ := machine
    refine ⟨0, Nat.le_refl 0, ?_, fun _ => rfl, fun exceeded => (room exceeded).elim⟩
    cases pending <;> rfl
  | succ fuel ih =>
    obtain ⟨pending, m⟩ := machine
    cases pending with
    | nil =>
      exact ⟨0, Nat.zero_le _, rfl, fun stopped => (stopped trivial).elim,
        fun exceeded => (room exceeded).elim⟩
    | cons c k =>
      rcases run_cons budget active fuel c k m with
        ⟨_, run⟩ | ⟨within, e, _, run⟩ | ⟨within, machine, _, run⟩
      · rw [run]
        exact ⟨1, Nat.succ_le_succ (Nat.zero_le _), rfl, fun stopped => (stopped trivial).elim,
          fun _ => ⟨_, _, rfl⟩⟩
      · rw [run]
        exact ⟨1, Nat.succ_le_succ (Nat.zero_le _), rfl, fun stopped => (stopped trivial).elim,
          fun exceeded => (within exceeded).elim⟩
      · rw [run]
        obtain ⟨j, le, host, spent, stopped⟩ := ih (s := s.count 1) active within machine
        rw [count_steps, Nat.add_assoc, Nat.add_comm 1] at stopped
        rw [count_count, Nat.add_comm 1] at host
        exact ⟨j + 1, Nat.succ_le_succ le, host, fun running => by rw [spent running], stopped⟩

/-- A run whose steps exceed neither of two budgets is the same under both. -/
theorem run_eq_of_not_exceeded (active : s.cancelled = false)
    (within : ¬ Exceeded budget (machine.run (tick budget .background) fuel s).host.steps)
    (within' : ¬ Exceeded budget' (machine.run (tick budget .background) fuel s).host.steps) :
    machine.run (tick budget' .background) fuel s =
      machine.run (tick budget .background) fuel s := by
  induction fuel generalizing s machine with
  | zero =>
    obtain ⟨pending, m⟩ := machine
    cases pending <;> rfl
  | succ fuel ih =>
    obtain ⟨pending, m⟩ := machine
    cases pending with
    | nil => rfl
    | cons c k =>
      -- The first step exceeds no budget that all steps together do not exceed.
      rcases run_cons budget active fuel c k m with
        ⟨exceeded, run⟩ | ⟨room, e, step, run⟩ | ⟨room, machine, step, run⟩
      · rw [run] at within
        exact (within exceeded).elim
      · rw [run] at within' ⊢
        rcases run_cons budget' active fuel c k m with
          ⟨exceeded, _⟩ | ⟨_, e', step', run'⟩ | ⟨_, machine', step', _⟩
        · exact (within' exceeded).elim
        · rw [run', Except.error.inj (step.symm.trans step')]
        · cases step.symm.trans step'
      · rw [run] at within within' ⊢
        obtain ⟨j, _, host, _⟩ := run_account budget (s := s.count 1) active room fuel machine
        rcases run_cons budget' active fuel c k m with
          ⟨exceeded, _⟩ | ⟨_, e', step', _⟩ | ⟨_, machine', step', run'⟩
        · rw [host] at within'
          exact (within' (exceeded.mono (Nat.le_add_right _ _))).elim
        · cases step.symm.trans step'
        · rw [run', ← Except.ok.inj (step.symm.trans step')]
          exact ih active within within'

/-- The run that goes on after `n` steps is stopped at the question before the next one. -/
theorem run_succ_of_running {n : Nat} (pos : 0 < n) (active : s.cancelled = false)
    (start : s.steps = 0) (running : machine.run (tick n .background) n s = .running s' machine') :
    machine.run (tick n .background) (n + 1) s =
      .failed (.host (.limit n)) (s.count (n + 1)) machine'.memory := by
  have room : ¬ Exceeded n s.steps := not_exceeded_of_le (start ▸ Nat.zero_le n)
  obtain ⟨k, _, host, spent, _⟩ := run_account n active room n machine
  rw [running] at host spent
  have asked : s' = s.count n := by
    rw [← spent id]
    exact host
  rw [Machine.run_add, running, asked]
  obtain ⟨c, rest, pending⟩ := Machine.pending_of_running running
  obtain ⟨_, m⟩ := machine'
  subst pending
  have exceeded : Exceeded n ((s.count n).steps + 1) := by
    rw [count_steps, start]
    constructor <;> omega
  rcases run_cons n (s := s.count n) active 0 c rest m with
    ⟨_, run⟩ | ⟨room, _⟩ | ⟨room, _⟩
  · rw [← count_count]
    exact run
  · exact (room exceeded).elim
  · exact (room exceeded).elim

end Meter

namespace Engine

/-! ## Runs of an engine -/

/-- The status that an outcome leaves an engine in. -/
def statusOf : Outcome Meter Interruption → Status
  | .done _ _ => .succeeded
  | .failed why _ _ => .failed why
  | .running _ _ => .running

theorem statusOf_ne_running_iff {o : Outcome Meter Interruption} :
    statusOf o ≠ .running ↔ o.Ended := by
  cases o <;> simp [statusOf, Outcome.Ended]

/-- A run of an engine is a run of its program from the start, with a new meter. -/
theorem execute_eq (context : Context) (fuel : Nat) (e : Engine) (m : Memory) :
    let o := (Machine.start e.program m).run (Meter.tick e.budget context) fuel
      ⟨0, 0, e.meter.cancelled⟩
    (e.execute context fuel m).1.meter = o.host ∧
      (e.execute context fuel m).1.snapshot? = some o.memory ∧
      (e.execute context fuel m).2 = statusOf o := by
  intro o
  have eq : (Machine.start e.program m).run (Meter.tick e.budget context) fuel
      ⟨0, 0, e.meter.cancelled⟩ = o := rfl
  simp only [execute, advance, begin]
  rw [eq]
  cases o <;> exact ⟨rfl, rfl, rfl⟩

/-- The run of `e` from `m` under the given budget, in a context that never ends. -/
def runWithin (e : Engine) (budget : Int) (m : Memory) (fuel : Nat) : Engine × Status :=
  { e with budget }.execute .background fuel m

/-- Two runs that are alike: one status, one store and one number of steps. -/
def Alike (r r' : Engine × Status) : Prop :=
  r.2 = r'.2 ∧ r.1.snapshot? = r'.1.snapshot? ∧ r.1.steps = r'.1.steps

/-- The same run, as one of the machine. -/
def outcomeWithin (e : Engine) (budget : Int) (m : Memory) (fuel : Nat) :
    Outcome Meter Interruption :=
  (Machine.start e.program m).run (Meter.tick budget .background) fuel ⟨0, 0, e.meter.cancelled⟩

section

variable (e : Engine) (budget : Int) (m : Memory) (fuel : Nat)

theorem runWithin_meter :
    (e.runWithin budget m fuel).1.meter = (e.outcomeWithin budget m fuel).host :=
  (execute_eq .background fuel { e with budget } m).1

theorem runWithin_snapshot? :
    (e.runWithin budget m fuel).1.snapshot? = some (e.outcomeWithin budget m fuel).memory :=
  (execute_eq .background fuel { e with budget } m).2.1

theorem runWithin_status :
    (e.runWithin budget m fuel).2 = statusOf (e.outcomeWithin budget m fuel) :=
  (execute_eq .background fuel { e with budget } m).2.2

end

variable {e : Engine} {m : Memory} {budget budget' free : Int} {fuel fuel' n : Nat}

theorem alike_of_outcome_eq
    (eq : e.outcomeWithin budget m fuel = e.outcomeWithin budget' m fuel') :
    Alike (e.runWithin budget m fuel) (e.runWithin budget' m fuel') := by
  refine ⟨?_, ?_, ?_⟩
  · rw [runWithin_status, runWithin_status, eq]
  · rw [runWithin_snapshot?, runWithin_snapshot?, eq]
  · rw [steps, steps, runWithin_meter, runWithin_meter, eq]

theorem status_ne_running_iff :
    (e.runWithin budget m fuel).2 ≠ .running ↔ (e.outcomeWithin budget m fuel).Ended := by
  rw [runWithin_status, statusOf_ne_running_iff]

/-- `Meter.run_account` for a run from the start. -/
theorem outcomeWithin_account (active : e.meter.cancelled = false) (budget : Int) (m : Memory)
    (fuel : Nat) :
    ∃ k ≤ fuel, (e.outcomeWithin budget m fuel).host = ⟨k, k, false⟩ ∧
      (¬ (e.outcomeWithin budget m fuel).Ended → k = fuel) ∧
      (Meter.Exceeded budget k → ∃ s' m',
        e.outcomeWithin budget m fuel = .failed (.host (.limit budget)) s' m') := by
  have room : ¬ Meter.Exceeded budget 0 := fun exceeded => by
    have := exceeded.1
    have := exceeded.2
    omega
  obtain ⟨k, le, host, spent, stopped⟩ := Meter.run_account budget
    (s := ⟨0, 0, e.meter.cancelled⟩) active room fuel (.start e.program m)
  rw [Nat.zero_add] at stopped
  rw [Meter.count, Nat.zero_add, active] at host
  exact ⟨k, le, by rw [outcomeWithin, active, host], spent, stopped⟩

/-- A run without a budget that counts no more than `n` steps is the same under a budget of `n`. -/
theorem outcomeWithin_eq_of_steps_le (active : e.meter.cancelled = false) (unbounded : free ≤ 0)
    (le : (e.outcomeWithin free m fuel).host.steps ≤ n) :
    e.outcomeWithin n m fuel = e.outcomeWithin free m fuel :=
  Meter.run_eq_of_not_exceeded active (Meter.not_exceeded_of_nonpos unbounded)
    (Meter.not_exceeded_of_le le)

/-- The run that goes on after `n` steps is stopped at the question before the next one. -/
theorem outcomeWithin_succ_of_running {s : Meter} {machine : Machine}
    (active : e.meter.cancelled = false) (pos : 0 < n)
    (running : e.outcomeWithin n m n = .running s machine) :
    e.outcomeWithin n m (n + 1) =
      .failed (.host (.limit n)) ⟨n + 1, n + 1, false⟩ machine.memory := by
  have stopped :=
    Meter.run_succ_of_running (s := ⟨0, 0, e.meter.cancelled⟩) pos active rfl running
  rw [Meter.count, Nat.zero_add, active] at stopped
  rw [outcomeWithin, active, stopped]

/-- With more fuel than `n` a run under a budget of `n` is over. -/
theorem outcomeWithin_ended (active : e.meter.cancelled = false) (pos : 0 < n) (more : n < fuel) :
    (e.outcomeWithin n m fuel).Ended := by
  have ended : (e.outcomeWithin n m (n + 1)).Ended := by
    rcases (e.outcomeWithin n m n).ended_or_running with ended | ⟨s, machine, running⟩
    · rw [outcomeWithin, Machine.run_of_ended ended (Nat.le_succ n)]
      exact ended
    · rw [outcomeWithin_succ_of_running active pos running]
      trivial
  rw [outcomeWithin, Machine.run_of_ended ended more]
  exact ended

theorem outcomeWithin_eq_of_ended (ended : (e.outcomeWithin budget m fuel).Ended)
    (ended' : (e.outcomeWithin budget m fuel').Ended) :
    e.outcomeWithin budget m fuel = e.outcomeWithin budget m fuel' := by
  rcases Nat.le_total fuel fuel' with le | le
  · exact (Machine.run_of_ended ended le).symm
  · exact Machine.run_of_ended ended' le

theorem asked_le_succ (active : e.meter.cancelled = false) (pos : 0 < n) (more : n < fuel) :
    (e.runWithin n m fuel).1.meter.asked ≤ n + 1 := by
  have eq := outcomeWithin_eq_of_ended (m := m) (outcomeWithin_ended active pos more)
    (outcomeWithin_ended active pos (Nat.lt_succ_self n))
  obtain ⟨k, le, host, _⟩ := outcomeWithin_account active n m (n + 1)
  rw [runWithin_meter, eq, host]
  exact le

/-- A run that ends after at most `n` questions is left alone by a budget of `n`. -/
theorem alike_of_asked_le (active : e.meter.cancelled = false) (pos : 0 < n) (unbounded : free ≤ 0)
    (ended : (e.outcomeWithin free m fuel').Ended)
    (few : (e.runWithin free m fuel').1.meter.asked ≤ n) (more : n < fuel) :
    Alike (e.runWithin n m fuel) (e.runWithin free m fuel') ∧
      (e.runWithin n m fuel).1.steps = (e.runWithin free m fuel').1.meter.asked := by
  obtain ⟨k, _, host, _⟩ := outcomeWithin_account active free m fuel'
  rw [runWithin_meter, host] at few ⊢
  have same : e.outcomeWithin n m fuel' = e.outcomeWithin free m fuel' := by
    refine outcomeWithin_eq_of_steps_le active unbounded ?_
    rw [host]
    exact few
  have ended' : (e.outcomeWithin n m fuel').Ended := by rwa [same]
  have eq : e.outcomeWithin n m fuel = e.outcomeWithin free m fuel' :=
    (outcomeWithin_eq_of_ended (outcomeWithin_ended active pos more) ended').trans same
  refine ⟨alike_of_outcome_eq eq, ?_⟩
  rw [steps, runWithin_meter, eq, host]

/-- A run that does not end after at most `n` questions goes on after `n` of them, under the budget
as without it. -/
theorem running_of_asked_lt (active : e.meter.cancelled = false) (unbounded : free ≤ 0)
    (many : ∀ reach, (e.outcomeWithin free m reach).Ended →
      n < (e.outcomeWithin free m reach).host.asked) :
    ∃ machine, e.outcomeWithin free m n = .running ⟨n, n, false⟩ machine ∧
      e.outcomeWithin n m n = .running ⟨n, n, false⟩ machine := by
  obtain ⟨k, le, host, spent, _⟩ := outcomeWithin_account active free m n
  have same : e.outcomeWithin n m n = e.outcomeWithin free m n := by
    refine outcomeWithin_eq_of_steps_le active unbounded ?_
    rw [host]
    exact le
  rcases (e.outcomeWithin free m n).ended_or_running with ended | ⟨s, machine, running⟩
  · have := many n ended
    rw [host] at this
    exact (Nat.not_lt.2 le this).elim
  · rw [running] at host spent
    have asked : s = ⟨n, n, false⟩ := by
      rw [← spent id]
      exact host
    rw [same, running, asked]
    exact ⟨machine, rfl, rfl⟩

/-- A run that is over within its budget is the same under a wider one. -/
theorem alike_of_wider (active : e.meter.cancelled = false) (pos : 0 < n)
    (wider : n ≤ budget ∨ budget ≤ 0)
    (within : (e.runWithin n m fuel).2 ≠ .failed (.host (.limit n))) :
    Alike (e.runWithin budget m fuel) (e.runWithin n m fuel) := by
  obtain ⟨k, _, host, _, stopped⟩ := outcomeWithin_account active n m fuel
  have room : ¬ Meter.Exceeded n k := by
    intro exceeded
    obtain ⟨s, m', failed⟩ := stopped exceeded
    rw [runWithin_status, failed] at within
    exact within rfl
  have room' : ¬ Meter.Exceeded budget k := by
    rintro ⟨bounded, less⟩
    refine room ⟨?_, ?_⟩ <;> omega
  refine alike_of_outcome_eq (Meter.run_eq_of_not_exceeded active ?_ ?_)
  · rwa [← outcomeWithin, host]
  · rwa [← outcomeWithin, host]

/-- A budget of `n` ends every run at its question `n + 1` or before. It leaves a run alone that
ends after at most `n` questions without a budget, and cuts off any other where it asks for the
step `n + 1`. So a run that is over within a budget is the same under every wider budget. -/
theorem runWithin_exact (e : Engine) (m : Memory) (n : Nat) (free : Int)
    (active : e.meter.cancelled = false) (pos : 0 < n) (unbounded : free ≤ 0) :
    (∀ fuel, n < fuel → (e.runWithin n m fuel).2 ≠ .running ∧
      (e.runWithin n m fuel).1.meter.asked ≤ n + 1) ∧
    (∀ reach, (e.runWithin free m reach).2 ≠ .running →
      (e.runWithin free m reach).1.meter.asked ≤ n →
      ∀ fuel, n < fuel → Alike (e.runWithin n m fuel) (e.runWithin free m reach) ∧
        (e.runWithin n m fuel).1.steps = (e.runWithin free m reach).1.meter.asked) ∧
    ((∀ reach, (e.runWithin free m reach).2 ≠ .running →
        n < (e.runWithin free m reach).1.meter.asked) →
      (e.runWithin free m n).2 = .running ∧ (e.runWithin free m n).1.meter.asked = n ∧
      ∀ fuel, n < fuel → (e.runWithin n m fuel).2 = .failed (.host (.limit n)) ∧
        (e.runWithin n m fuel).1.steps = n + 1 ∧
        (e.runWithin n m fuel).1.snapshot? = (e.runWithin free m n).1.snapshot?) ∧
    ∀ budget : Int, n ≤ budget ∨ budget ≤ 0 → ∀ fuel,
      (e.runWithin n m fuel).2 ≠ .failed (.host (.limit n)) →
      Alike (e.runWithin budget m fuel) (e.runWithin n m fuel) := by
  refine ⟨?_, ?_, ?_, ?_⟩
  · intro fuel more
    exact ⟨status_ne_running_iff.2 (outcomeWithin_ended active pos more),
      asked_le_succ active pos more⟩
  · intro reach isOver few fuel more
    exact alike_of_asked_le active pos unbounded (status_ne_running_iff.1 isOver) few more
  · intro many
    obtain ⟨machine, running, runningWithin⟩ := running_of_asked_lt active unbounded
      fun reach ended => by
        rw [← runWithin_meter]
        exact many reach (status_ne_running_iff.2 ended)
    refine ⟨by rw [runWithin_status, running]; rfl, by rw [runWithin_meter, running]; rfl, ?_⟩
    intro fuel more
    have stopped := outcomeWithin_succ_of_running active pos runningWithin
    have eq := outcomeWithin_eq_of_ended (m := m) (outcomeWithin_ended active pos more)
      (outcomeWithin_ended active pos (Nat.lt_succ_self n))
    rw [steps, runWithin_status, runWithin_meter, runWithin_snapshot?, runWithin_snapshot?, eq,
      stopped, running]
    exact ⟨rfl, rfl, rfl⟩
  · intro budget wider fuel within
    exact alike_of_wider active pos wider within

/-- Two assignments take three steps: a budget of three leaves them alone, and a budget of two cuts
them off before the second one. -/
theorem runWithin_exact_assignments :
    let e := new (.seq (.assign "x" (.int 1)) (.assign "y" (.int 2))) 0
    Alike (e.runWithin 3 ∅ 4) (e.runWithin 0 ∅ 3) ∧
      (e.runWithin 2 ∅ 3).2 = .failed (.host (.limit 2)) ∧
      (e.runWithin 2 ∅ 3).1.snapshot? = some (Table.set ∅ "x" (.int 1)) := by
  intro e
  have few := (runWithin_exact e ∅ 3 0 rfl (by decide) (by decide)).2.1
  refine ⟨(few 3 (by decide) (by decide) 4 (by decide)).1, ?_⟩
  have many := (runWithin_exact e ∅ 2 0 rfl (by decide) (by decide)).2.2.1
  -- Without a budget every run that is over is the run with three units of fuel.
  have three : ∀ reach, (e.runWithin 0 ∅ reach).2 ≠ .running →
      2 < (e.runWithin 0 ∅ reach).1.meter.asked := by
    intro reach isOver
    have ended := status_ne_running_iff.1 isOver
    have ended' : (e.outcomeWithin 0 ∅ 3).Ended := trivial
    rw [runWithin_meter, outcomeWithin_eq_of_ended ended ended']
    decide
  obtain ⟨_, _, cut⟩ := many three
  exact ⟨(cut 3 (by decide)).1, (cut 3 (by decide)).2.2⟩

end Engine

end ImpHost
