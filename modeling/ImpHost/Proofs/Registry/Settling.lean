import ImpHost.Proofs.Registry.Histories

/-!
How executions settle.

A record of an execution is active until it succeeds, fails or is cancelled, and says then once and
for all how that came about. `Execution.Evolves` is all that one event in the history of a registry
can do to the record under a name: nothing, start it, or continue it, and a record that is over is
continued with other steps only.

Main statement: `Registry.records_settle`.
-/

namespace ImpHost

theorem Json.write_object (fields : List (String × Json)) (k : List Char) :
    ∃ rest, (Json.object fields).write k = '{' :: rest := by
  cases fields with
  | nil => exact ⟨_, rfl⟩
  | cons _ _ => exact ⟨_, rfl⟩

/-- The text of a store has at least its braces. -/
theorem Memory.render_ne_empty (m : Memory) : m.toJson.render ≠ "" := by
  intro empty
  have braces : ∃ rest, m.toJson.write [] = '{' :: rest := Json.write_object _ []
  obtain ⟨rest, written⟩ := braces
  have none : m.toJson.write [] = [] := String.ofList_injective empty
  cases none.symm.trans written

theorem Instant.ne_unset {t : Instant} (set : t.isSet) : t ≠ .unset :=
  bne_iff_ne.1 set

namespace Execution

/-- What a record of an execution says fits its state. -/
structure Proper (e : Execution) : Prop where
  state : e.state ∈ ExecutionState.proper
  active_iff : e.state = .active ↔ e.ended = .unset
  succeeded : e.state = .succeeded → e.result ≠ "" ∧ e.failure? = none
  failed : e.state = .failed → e.failure?.isSome ∧ e.result = ""
  silent : e.state = .active ∨ e.state = .cancelled → e.result = "" ∧ e.failure? = none

/-- A record that is over keeps all but its steps. -/
def Kept (e e' : Execution) : Prop :=
  e.state ≠ .active → e' = { e with steps := e'.steps }

/-- What one event can do to the record under a name. -/
inductive Evolves : Option Execution → Option Execution → Prop
  | same (record? : Option Execution) : Evolves record? record?
  | started {e : Execution} (proper : e.Proper) : Evolves none (some e)
  | continued {e e' : Execution} (proper : e.Proper → e'.Proper) (kept : e.Kept e') :
    Evolves (some e) (some e')

variable {e e' e'' : Execution} {now : Instant} {steps : Int} {end_ : Execution → Execution}

theorem Kept.trans (first : e.Kept e') (then_ : e'.Kept e'') : e.Kept e'' := by
  intro isOver
  have same := first isOver
  have stillOver : e'.state ≠ .active := by
    rw [same]
    exact isOver
  have same' := then_ stillOver
  rw [same', same]

/-! ## The end of a record -/

theorem Proper.silent_of_active (proper : e.Proper) (active : e.state = .active) :
    e.result = "" ∧ e.failure? = none :=
  proper.silent (.inl active)

theorem Proper.succeed (proper : e.Proper) (active : e.state = .active) (set : now.isSet)
    (m : Memory) :
    ({ e with state := .succeeded, result := m.toJson.render, ended := now }).Proper := by
  have state : ExecutionState.succeeded ∈ ExecutionState.proper := by decide
  refine ⟨state, iff_of_false nofun (Instant.ne_unset set), fun _ => ?_, nofun, ?_⟩
  · exact ⟨m.render_ne_empty, (proper.silent_of_active active).2⟩
  · rintro (other | other) <;> cases other

theorem Proper.fail (proper : e.Proper) (active : e.state = .active) (set : now.isSet)
    (f : ExecutionFailure) :
    ({ e with state := .failed, failure? := some f, ended := now }).Proper := by
  have state : ExecutionState.failed ∈ ExecutionState.proper := by decide
  refine ⟨state, iff_of_false nofun (Instant.ne_unset set), nofun, fun _ => ?_, ?_⟩
  · exact ⟨rfl, (proper.silent_of_active active).1⟩
  · rintro (other | other) <;> cases other

theorem Proper.cancel (proper : e.Proper) (active : e.state = .active) (set : now.isSet) :
    ({ e with state := .cancelled, ended := now }).Proper := by
  have state : ExecutionState.cancelled ∈ ExecutionState.proper := by decide
  exact ⟨state, iff_of_false nofun (Instant.ne_unset set), nofun, nofun,
    fun _ => proper.silent_of_active active⟩

theorem Proper.withSteps (proper : e.Proper) : ({ e with steps }).Proper :=
  ⟨proper.state, proper.active_iff, proper.succeeded, proper.failed, proper.silent⟩

/-- A record evolves when its end is recorded, whether it was active or not. -/
theorem evolves_settle
    (ends : ∀ e : Execution, e.Proper → e.state = .active → ({ end_ e with ended := now }).Proper) :
    Evolves (some e) (some (({ e with steps }).settle now end_)) := by
  by_cases active : e.state = .active
  · refine .continued (fun proper => ?_) fun isOver => absurd active isOver
    rw [settle, if_pos active]
    exact ends _ proper.withSteps active
  · refine .continued (fun proper => ?_) fun _ => ?_
    · rw [settle, if_neg active]
      exact proper.withSteps
    · rw [settle, if_neg active]

end Execution

namespace Registry

open Execution (Evolves)

variable {r r' start : Registry} {now : Instant} {op : Operation} {name x : String}
  {e : Execution}

/-! ## One event -/

/-- The record that an operation writes comes after the one that it finds. -/
theorem evolves_of_due (due : op.Due r now (.execution name e)) (set : now.isSet)
    (fresh : op.Fresh r) : Evolves (r.executions.get? name) (some e) := by
  cases due with
  | createExecution deployed =>
    have unused : r.executions.get? (Resource.execution _ _) = none := fresh
    have state : ExecutionState.active ∈ ExecutionState.proper := by decide
    rw [unused]
    exact .started ⟨state, iff_of_true rfl rfl, nofun, nofun, fun _ => ⟨rfl, rfl⟩⟩
  | @completeExecution _ result _ _ old =>
    rw [old]
    exact Execution.evolves_settle fun e proper active => proper.succeed active set result
  | failExecution old =>
    rw [old]
    exact Execution.evolves_settle fun e proper active => proper.fail active set _
  | cancelExecution old active =>
    rw [old]
    exact .continued (fun proper => proper.cancel active set) fun isOver => absurd active isOver

theorem evolves_of_change {change : Change} (due : op.Due r now change) (set : now.isSet)
    (fresh : op.Fresh r) :
    Evolves (r.executions.get? x) ((r.changed change).executions.get? x) := by
  cases change with
  | program | removal => exact .same _
  | execution name e =>
    rw [changed, withExecution, Table.get?_set]
    split
    · next same =>
      rw [same]
      exact evolves_of_due due set fresh
    · exact .same _

theorem Step.evolves (mirrored : r.Mirrored) (step : Step r r') (x : String) :
    Evolves (r.executions.get? x) (r'.executions.get? x) := by
  cases step with
  | operation op now set fresh =>
    have course := op.run_cases r now
    generalize op.run r now = out at course
    cases course with
    | refused | unwritten => exact .same _
    | made due => exact evolves_of_change due set fresh
  | medium => exact .same _
  | reopen now set had legible opened =>
    cases (openFrom_close mirrored had legible now).symm.trans opened
    rw [get?_executions_reopened]
    cases r.executions.get? x with
    | none => exact .same _
    | some e =>
      have settled :
          afterRestart now e = ({ e with steps := e.steps }).settle now interrupted := rfl
      rw [Option.map_some, settled]
      exact Execution.evolves_settle fun e proper active => proper.fail active set _

/-! ## Histories -/

/-- Each record of the registry is proper. -/
def AllProper (r : Registry) : Prop :=
  ∀ name e, r.executions.get? name = some e → e.Proper

theorem AllProper.step (all : r.AllProper) (mirrored : r.Mirrored) (step : Step r r') :
    r'.AllProper := by
  intro name e' recorded
  have evolves := step.evolves mirrored name
  rw [recorded] at evolves
  generalize old : r.executions.get? name = record? at evolves
  cases evolves with
  | same => exact all name e' old
  | started proper => exact proper
  | continued proper _ => exact proper (all name _ old)

theorem AllProper.reaches (all : r.AllProper) (mirrored : r.Mirrored) (reached : r.Reaches r') :
    r'.AllProper := by
  induction reached with
  | refl => exact all
  | tail before step ih => exact ih.step (mirrored.reaches before) step

/-- No record is ever removed. -/
theorem kept_of_reaches (mirrored : r.Mirrored) (reached : r.Reaches r')
    (recorded : r.executions.get? name = some e) :
    ∃ e', r'.executions.get? name = some e' ∧ e.Kept e' := by
  induction reached with
  | refl => exact ⟨e, recorded, fun _ => rfl⟩
  | @tail _ r'' before step ih =>
    obtain ⟨e', old, kept⟩ := ih
    have evolves := step.evolves (mirrored.reaches before) name
    rw [old] at evolves
    generalize r''.executions.get? name = record? at evolves
    cases evolves with
    | same => exact ⟨e', rfl, kept⟩
    | continued _ kept' => exact ⟨_, rfl, kept.trans kept'⟩

/-- After every history each record of an execution is proper: it has an end exactly when it is not
active, a result exactly when it succeeded and a failure exactly when it failed. From then on it is
never removed, and once it is not active nothing but its steps changes. -/
theorem records_settle (start r : Registry) (initial : start.Initial)
    (reached : start.Reaches r) (name : String) (e : Execution)
    (recorded : r.executions.get? name = some e) :
    e.name = name ∧ e.Proper ∧
      ∀ r', r.Reaches r' → ∃ e', r'.executions.get? name = some e' ∧ e.Kept e' := by
  have mirrored := initial.mirrored.reaches reached
  have none : start.AllProper := by
    rcases initial.eq_empty_or_fresh with rfl | rfl
    all_goals exact fun _ _ bound => (Table.get?_empty_ne bound).elim
  exact ⟨mirrored.executions name e recorded,
    none.reaches initial.mirrored reached name e recorded,
    fun r' later => kept_of_reaches mirrored later recorded⟩

/-- A program that ends only after it was cancelled is recorded as cancelled, with the steps that it
made. -/
theorem records_settle_late : ∃ r r' e e', fresh.Reaches r ∧ r.Reaches r' ∧
    r.executions.get? sampleExecution.name = some e ∧ e.state = .cancelled ∧
    r'.executions.get? sampleExecution.name = some e' ∧ e' = { e with steps := 7 } := by
  let cancellation := Operation.cancelExecution sampleExecution.name
  let completion := Operation.completeExecution sampleExecution.name ∅ 7
  let r := (cancellation.run sampleActive ⟨3⟩).1
  let r' := (completion.run r ⟨4⟩).1
  let e : Execution := { sampleExecution with state := .cancelled, ended := ⟨3⟩ }
  have reached : fresh.Reaches r :=
    reaches_sampleActive.tail (.operation cancellation ⟨3⟩ (by decide) trivial)
  have later : r.Reaches r' := .single (.operation completion ⟨4⟩ (by decide) trivial)
  have recorded : r.executions.get? sampleExecution.name = some e := Table.get?_set_self ..
  obtain ⟨_, _, settled⟩ := records_settle fresh r initial_fresh reached _ e recorded
  obtain ⟨e', recorded', kept⟩ := settled r' later
  have steps : e'.steps = 7 := by
    have written : r'.executions.get? sampleExecution.name = some { e with steps := 7 } :=
      Table.get?_set_self ..
    cases written.symm.trans recorded'
    rfl
  refine ⟨r, r', e, e', reached, later, recorded, rfl, recorded', ?_⟩
  rw [kept (by decide), steps]

end Registry

end ImpHost
