import ImpHost.Program.Machine

/-!
Runs of a machine, whatever host is asked.

A run with more fuel is a run with less fuel that is taken up again where it was left
(`Machine.run_add`), so that an ended run is the same with any more fuel (`Machine.run_of_ended`).
-/

namespace ImpHost

variable {σ ε : Type}

namespace Outcome

/-- The run is over: every command was run, or the run failed. -/
def Ended : Outcome σ ε → Prop
  | .running _ _ => False
  | _ => True

/-- Takes up a run that is not over. -/
def resume (next : σ → Machine → Outcome σ ε) : Outcome σ ε → Outcome σ ε
  | .running s machine => next s machine
  | o => o

theorem ended_or_running (o : Outcome σ ε) : o.Ended ∨ ∃ s machine, o = .running s machine := by
  cases o with
  | done | failed => exact .inl trivial
  | running s machine => exact .inr ⟨s, machine, rfl⟩

theorem resume_of_ended {o : Outcome σ ε} (ended : o.Ended) (next : σ → Machine → Outcome σ ε) :
    o.resume next = o := by
  cases o with
  | done | failed => rfl
  | running => exact ended.elim

end Outcome

namespace Machine

variable (hook : Hook σ ε)

theorem run_nil (fuel : Nat) (s : σ) (m : Memory) : run hook fuel s ⟨[], m⟩ = .done s m := by
  cases fuel <;> rfl

/-- A run can be left and taken up again. -/
theorem run_add (fuel more : Nat) (s : σ) (machine : Machine) :
    run hook (fuel + more) s machine = (run hook fuel s machine).resume (run hook more) := by
  induction fuel generalizing s machine with
  | zero =>
    obtain ⟨pending, m⟩ := machine
    cases pending with
    | nil => rw [run_nil, run_nil]; rfl
    | cons c k => rw [Nat.zero_add]; rfl
  | succ fuel ih =>
    obtain ⟨pending, m⟩ := machine
    cases pending with
    | nil => rw [run_nil, run_nil]; rfl
    | cons c k =>
      rw [Nat.succ_add, run, run]
      split
      · rfl
      · split
        · exact ih _ _
        · rfl

variable {hook} {fuel more : Nat} {s s' : σ} {machine machine' : Machine}

/-- An ended run does not change with more fuel. -/
theorem run_of_ended (ended : (run hook fuel s machine).Ended) (le : fuel ≤ more) :
    run hook more s machine = run hook fuel s machine := by
  obtain ⟨rest, rfl⟩ := Nat.exists_eq_add_of_le le
  rw [run_add, Outcome.resume_of_ended ended]

/-- A run that is not over has a command to run. -/
theorem pending_of_running (running : run hook fuel s machine = .running s' machine') :
    ∃ c k, machine'.pending = c :: k := by
  induction fuel generalizing s machine with
  | zero =>
    obtain ⟨pending, m⟩ := machine
    cases pending with
    | nil => cases running
    | cons c k =>
      cases running
      exact ⟨c, k, rfl⟩
  | succ fuel ih =>
    obtain ⟨pending, m⟩ := machine
    cases pending with
    | nil => cases running
    | cons c k =>
      rw [run] at running
      split at running
      · cases running
      · split at running
        · exact ih running
        · cases running

end Machine

end ImpHost
