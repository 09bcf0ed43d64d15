import ImpHost.Proofs.Manifest
import ImpHost.Proofs.Registry.Revisions
import ImpHost.Proofs.Service.Outcomes

/-!
Histories of a service: the programs that were held, and the parsed forms that come from them.

A parsed form is kept under the name of its program together with the revision that was parsed, and
it may be kept late: after another update, after the removal of the program, or after another
program was deployed under its name. What an invariant of one world can say of such a form is too
little, because the program that it comes from may be gone. `World.Consistent` therefore speaks of
all programs that were held up to a moment of a history: no revision was given to two of them, and
what is kept and what calls are under way with comes from one of them. It holds at all moments
(`World.History.consistent`).
-/

namespace ImpHost

/-! ## What a section does to programs and parsed forms -/

namespace Service

variable {α : Type} {s s' : Service} {answer : Except Problem α}
  {f : Registry → Instant → Registry.Outcome α}

/-- The programs are kept under their names. -/
def Named (s : Service) : Prop :=
  ∀ name p, s.registry.programs.get? name = some p → p.name = name

theorem edits_onRegistry (named : s.Named) (op : Operation)
    (same : ∀ now, op.run s.registry now = (f s.registry now).verdict) :
    s.registry.Edits (s.onRegistry f).1.registry := by
  have edits := Registry.edits_run named s.tick.clock op
  rw [same, Registry.Outcome.verdict_fst] at edits
  exact edits

theorem edits_of_onRegistry (named : s.Named) (op : Operation)
    (same : ∀ now, op.run s.registry now = (f s.registry now).verdict)
    (locked : s.onRegistry f = (s', answer)) : s.registry.Edits s'.registry := by
  have edits := edits_onRegistry named op same
  rwa [locked] at edits

theorem parsed_of_onRegistry (locked : s.onRegistry f = (s', answer)) : s'.parsed = s.parsed := by
  cases locked
  rfl

theorem parsed_cancelEngine (s : Service) (name : String) :
    (s.cancelEngine name).parsed = s.parsed := by
  obtain ⟨_, same⟩ := s.cancelEngine_eq name
  rw [same]

theorem parsed_cancelEngines (s : Service) : s.cancelEngines.parsed = s.parsed := by
  obtain ⟨_, same⟩ := s.cancelEngines_eq
  rw [same]

end Service

section

variable {s s' : Service} {call next : Call}

theorem CallStep.edits (named : s.Named) (step : CallStep s call s' next) :
    s.registry.Edits s'.registry := by
  cases step with
  | deploy parent id source description labels valid parsed locked =>
    exact Service.edits_of_onRegistry named (.createProgram ..) (fun _ => rfl) locked
  | update name source description labels _ _ locked
  | relabel name source description labels _ locked =>
    exact Service.edits_of_onRegistry named (.updateProgram ..) (fun _ => rfl) locked
  | delete name locked =>
    exact Service.edits_of_onRegistry named (.deleteProgram name) (fun _ => rfl) locked
  | create id issued fit fresh locked =>
    exact Service.edits_of_onRegistry (s := { s with issued }) named (.createExecution ..)
      (fun _ => rfl) locked
  | cancel name locked =>
    exact Service.edits_of_onRegistry named (.cancelExecution name) (fun _ => rfl) locked
  | signal => rw [Service.registry_cancelEngine]; exact .refl _
  | shutdown =>
    have same : s.cancelEngines.registry = s.registry := (Service.foldl_cancelEngine _ s).1
    rw [same]
    exact .refl _
  | refuse | cache | uncache | look | hit | miss | unreadable | keep | misfit | register | find
  | lose | answer => exact .refl _

/-- The call is about to keep a parsed form of the program. -/
def Call.Keeps (p : Deployment) (m : Manifest) (call : Call) : Prop :=
  call = .caching p m ∨ ∃ goal, call = .keeping goal p m

theorem CallStep.of_created {e : Execution} {m : Manifest} {start : Memory}
    (step : CallStep s (.created e m start) s' next) :
    s' = s.register e.name (.new m.program s.budget) := by
  cases step
  rfl

theorem CallStep.parsed_cases (step : CallStep s call s' next) :
    s'.parsed = s.parsed ∨ (∃ name, s'.parsed = s.parsed.erase name) ∨
      ∃ p m, call.Keeps p m ∧ s'.parsed = s.parsed.set p.name ⟨p.revision, m⟩ := by
  cases step with
  | deploy _ _ _ _ _ _ _ locked | update _ _ _ _ _ _ locked | relabel _ _ _ _ _ locked
  | delete _ locked | cancel _ locked => exact .inl (Service.parsed_of_onRegistry locked)
  | create id issued fit fresh locked =>
    exact .inl (Service.parsed_of_onRegistry (s := { s with issued }) locked)
  | cache => exact .inr (.inr ⟨_, _, .inl rfl, rfl⟩)
  | keep => exact .inr (.inr ⟨_, _, .inr ⟨_, rfl⟩, rfl⟩)
  | uncache => exact .inr (.inl ⟨_, rfl⟩)
  | signal => exact .inl (Service.parsed_cancelEngine ..)
  | shutdown => exact .inl (Service.parsed_cancelEngines s)
  | refuse | look | hit | miss | unreadable | misfit | register | find | lose | answer =>
    exact .inl rfl

theorem Service.recordEnd_edits (named : s.Named) (name : String) (engine : Engine)
    (status : Engine.Status) : s.registry.Edits (s.recordEnd name engine status).registry ∧
      (s.recordEnd name engine status).parsed = s.parsed := by
  unfold recordEnd
  dsimp only
  split
  · next why _ =>
    exact ⟨edits_onRegistry named (.failExecution name why _ _) (fun _ => rfl), rfl⟩
  · exact ⟨edits_onRegistry named (.completeExecution name _ _) (fun _ => rfl), rfl⟩

theorem RunStep.edits {name : String} {run then_ : Run} (named : s.Named)
    (step : RunStep s name run s' then_) :
    s.registry.Edits s'.registry ∧ s'.parsed = s.parsed := by
  cases step with
  | record => exact Service.recordEnd_edits named ..
  | begin | step | finish | release | exit => exact ⟨.refl _, rfl⟩

end

namespace World

/-- The program that is held under a name. -/
def program (w : World) (name : String) : Option Deployment :=
  w.service.registry.programs.get? name

variable {w w' : World}

theorem Step.edits (named : w.service.Named) (step : Step w w') :
    w.service.registry.Edits w'.service.registry := by
  cases step with
  | call c step => exact step.edits named
  | launch | wait => exact .refl _
  | run name step => exact (step.edits named).1

theorem Step.parsed_cases (named : w.service.Named) (step : Step w w') :
    w'.service.parsed = w.service.parsed ∨
      (∃ name, w'.service.parsed = w.service.parsed.erase name) ∨
      ∃ c p m, (w.calls c).Keeps p m ∧
        w'.service.parsed = w.service.parsed.set p.name ⟨p.revision, m⟩ := by
  cases step with
  | call c step =>
    rcases step.parsed_cases with same | erased | ⟨p, m, keeps, set⟩
    · exact .inl same
    · exact .inr (.inl erased)
    · exact .inr (.inr ⟨c, p, m, keeps, set⟩)
  | launch | wait => exact .inl rfl
  | run name step => exact .inl (step.edits named).2

/-! ## Histories -/

/-- The worlds at all moments, one after the other. At each moment one section is taken, or
nothing happens. -/
structure History (start : World) (σ : Nat → World) : Prop where
  init : σ 0 = start
  next : ∀ n, σ (n + 1) = σ n ∨ Step (σ n) (σ (n + 1))

/-- Every world that is reached is reached in some history. -/
theorem exists_history {start : World} (reached : Reaches start w) :
    ∃ σ n, History start σ ∧ σ n = w := by
  induction reached with
  | refl => exact ⟨fun _ => start, 0, ⟨rfl, fun _ => .inl rfl⟩, rfl⟩
  | @tail w w' _ step ih =>
    obtain ⟨σ, n, history, rfl⟩ := ih
    let σ' (i : Nat) : World := if i ≤ n then σ i else w'
    refine ⟨σ', n + 1, ⟨?_, fun i => ?_⟩, if_neg (by omega)⟩
    · exact (if_pos (Nat.zero_le n)).trans history.init
    · rcases Nat.lt_trichotomy i n with before | rfl | after
      · have here : σ' i = σ i := if_pos (by omega)
        have there : σ' (i + 1) = σ (i + 1) := if_pos (by omega)
        rw [here, there]
        exact history.next i
      · have here : σ' i = σ i := if_pos (Nat.le_refl i)
        have there : σ' (i + 1) = w' := if_neg (by omega)
        rw [here, there]
        exact .inr step
      · have here : σ' i = w' := if_neg (by omega)
        have there : σ' (i + 1) = w' := if_neg (by omega)
        exact .inl (there.trans here.symm)

variable {σ : Nat → World} {n c : Nat} {p q : Deployment} {m : Manifest} {goal : Goal}

/-- The program was held under its name at some moment up to `n`. -/
def Held (σ : Nat → World) (n : Nat) (p : Deployment) : Prop :=
  ∃ i ≤ n, (σ i).program p.name = some p

/-- In the section of the moment `i` the call finds the program that its client wants. -/
structure Finds (σ : Nat → World) (c i : Nat) (goal : Goal) (p : Deployment) : Prop where
  before : (σ i).calls c = .idle
  after : (σ (i + 1)).calls c = .looking goal p
  held : (σ i).program goal.program = some p
  named : p.name = goal.program

/-- The call has found the program before the moment `n`. -/
def Found (σ : Nat → World) (n c : Nat) (goal : Goal) (p : Deployment) : Prop :=
  ∃ i < n, Finds σ c i goal p

/-- In the section of the moment `j` the call records the execution `e` of the program `q`. -/
structure Records (σ : Nat → World) (c j : Nat) (program : String) (argument : Text) (m : Manifest)
    (q : Deployment) (e : Execution) : Prop where
  before : (σ j).calls c = .starting program argument m
  held : (σ j).program program = some q
  written : (σ (j + 1)).record e.name = some e
  revision : e.revision = q.revision

theorem Held.mono (held : Held σ n p) : Held σ (n + 1) p := by
  obtain ⟨i, before, held⟩ := held
  exact ⟨i, Nat.le_succ_of_le before, held⟩

theorem Held.succ (held : Held σ (n + 1) p) :
    Held σ n p ∨ (σ (n + 1)).program p.name = some p := by
  obtain ⟨i, before, held⟩ := held
  rcases Nat.le_succ_iff.1 before with before | rfl
  · exact .inl ⟨i, before, held⟩
  · exact .inr held

theorem Found.mono (found : Found σ n c goal p) : Found σ (n + 1) c goal p := by
  obtain ⟨i, before, finds⟩ := found
  exact ⟨i, Nat.lt_succ_of_lt before, finds⟩

theorem Found.held (found : Found σ n c goal p) : Held σ n p := by
  obtain ⟨i, before, finds⟩ := found
  refine ⟨i, Nat.le_of_lt before, ?_⟩
  rw [finds.named]
  exact finds.held

/-- What a call is under way with comes from a program that was held: the one that it has recorded
or the one that it has found. -/
def Explained (σ : Nat → World) (n c : Nat) : Call → Prop
  | .caching p m => Held σ n p ∧ Manifest.IsFormOf p.source m
  | .looking goal p => Found σ n c goal p
  | .keeping goal p m => Found σ n c goal p ∧ Manifest.IsFormOf p.source m
  | .served p m => (∃ name, Found σ n c (.read name) p) ∧ Manifest.IsFormOf p.source m
  | .starting program argument m =>
    ∃ p, Found σ n c (.start program argument) p ∧ Manifest.IsFormOf p.source m
  | .created e m _ => ∃ j < n, ∃ program argument q, Records σ c j program argument m q e
  | _ => True

theorem Explained.mono {call : Call} (explained : Explained σ n c call) :
    Explained σ (n + 1) c call := by
  cases call with
  | caching p m => exact ⟨explained.1.mono, explained.2⟩
  | looking goal p => exact Found.mono explained
  | keeping goal p m => exact ⟨explained.1.mono, explained.2⟩
  | served p m =>
    obtain ⟨⟨name, found⟩, form⟩ := explained
    exact ⟨⟨name, found.mono⟩, form⟩
  | starting program argument m =>
    obtain ⟨p, found, form⟩ := explained
    exact ⟨p, found.mono, form⟩
  | created e m start =>
    obtain ⟨j, before, records⟩ := explained
    exact ⟨j, Nat.lt_succ_of_lt before, records⟩
  | _ => exact trivial

/-- Whatever the client wants the parsed form for, it comes from the program that was found. -/
theorem explained_next (found : Found σ n c goal p) (form : Manifest.IsFormOf p.source m) :
    Explained σ n c (goal.next p m) := by
  cases goal with
  | read name => exact ⟨⟨name, found⟩, form⟩
  | start program argument => exact ⟨p, found, form⟩

/-- Up to the moment `n` no revision was given to two texts of a program, and what is kept and
under way comes from programs that were held. -/
structure Consistent (σ : Nat → World) (n : Nat) : Prop where
  named : (σ n).service.Named
  given : ∀ p k, Held σ n p → p.revision = Registry.revisionText k →
    k ≤ (σ n).service.registry.revisions
  unique : ∀ p q, Held σ n p → Held σ n q → p.name = q.name → p.revision = q.revision → p = q
  kept : ∀ name form, (σ n).service.parsed.get? name = some form →
    ∃ p, Held σ n p ∧ p.name = name ∧ p.revision = form.revision ∧
      Manifest.IsFormOf p.source form.manifest
  calls : ∀ c, Explained σ n c ((σ n).calls c)

/-- The programs that are held after an edit were held before, but for one with a new revision. -/
theorem held_of_edits {r r' : Registry} (edits : r.Edits r') {name : String}
    (held : r'.programs.get? name = some p) :
    r.programs.get? name = some p ∨
      p.name = name ∧ p.revision = Registry.revisionText r'.revisions ∧
        r.revisions < r'.revisions := by
  cases edits with
  | kept programs _ =>
    rw [programs] at held
    exact .inl held
  | recorded q programs revision given =>
    rw [programs, Table.get?_set] at held
    split at held
    · next same =>
      cases held
      exact .inr ⟨same.symm, revision, by omega⟩
    · exact .inl held
  | removed other programs _ =>
    rw [programs, Table.get?_erase] at held
    split at held
    · cases held
    · exact .inl held

theorem le_of_edits {r r' : Registry} (edits : r.Edits r') : r.revisions ≤ r'.revisions := by
  cases edits <;> omega

theorem explained_after {α : Type} {answer : Except Problem α} {next : α → Call}
    (each : ∀ a, answer = .ok a → Explained σ n c (next a)) :
    Explained σ n c (.after answer next) := by
  cases answer with
  | ok a => exact each a rfl
  | error why => exact trivial

/-- A form that is kept of a program's revision is the form of the program's text. -/
theorem Consistent.form_of_cached? (consistent : Consistent σ n) (held : Held σ n p)
    (kept : (σ n).service.cached? p = some m) : Manifest.IsFormOf p.source m := by
  unfold Service.cached? at kept
  split at kept
  · next form bound =>
    split at kept
    · next revision =>
      cases kept
      obtain ⟨q, heldThen, name, sameRevision, isForm⟩ := consistent.kept p.name form bound
      have same : q = p := consistent.unique q p heldThen held name (sameRevision.trans revision)
      rwa [same] at isForm
    · cases kept
  · cases kept

/-- One section of a call explains what the call is under way with then. -/
theorem Consistent.explained (consistent : Consistent σ n)
    (step : CallStep (σ n).service ((σ n).calls c) (σ (n + 1)).service ((σ (n + 1)).calls c)) :
    Explained σ (n + 1) c ((σ (n + 1)).calls c) := by
  have now := consistent.calls c
  generalize before : (σ n).calls c = call at step now
  generalize after : (σ (n + 1)).calls c = next at step
  generalize service : (σ (n + 1)).service = s' at step
  have explained := now.mono
  have held {p : Deployment} (held : s'.registry.programs.get? p.name = some p) :
      Held σ (n + 1) p := by
    refine ⟨n + 1, Nat.le_refl _, ?_⟩
    rw [program, service]
    exact held
  cases step with
  | deploy parent id source description labels valid parsed locked =>
    refine explained_after fun p ok => ?_
    obtain ⟨now, created, -⟩ := Service.of_onRegistry locked
    rw [ok] at created
    obtain ⟨isHeld, same⟩ := Registry.of_createProgram created
    refine ⟨held isHeld, ?_⟩
    rw [same]
    exact Manifest.isFormOf_of_ofText parsed
  | update name source description labels given parsed locked =>
    refine explained_after fun p ok => ?_
    obtain ⟨now, updated, -⟩ := Service.of_onRegistry locked
    rw [ok] at updated
    obtain ⟨isHeld, same⟩ := Registry.of_updateProgram consistent.named given updated
    refine ⟨held isHeld, ?_⟩
    rw [same]
    exact Manifest.isFormOf_of_ofText parsed
  | look goal =>
    refine explained_after fun p ok => ?_
    rw [ok] at after
    have found : (σ n).program goal.program = some p := by
      unfold Registry.program at ok
      split at ok
      · next bound =>
        cases ok
        exact bound
      · cases ok
    exact ⟨n, Nat.lt_succ_self n, before, after, found, consistent.named _ _ found⟩
  | @hit goal p m kept =>
    have form := consistent.form_of_cached? (Found.held now) kept
    exact explained_next explained form
  | miss missing parsed => exact ⟨explained, Manifest.isFormOf_of_ofText parsed⟩
  | keep => exact explained_next explained.1 explained.2
  | @create program argument m start _ answer id issued fit fresh locked =>
    refine explained_after fun e ok => ?_
    obtain ⟨now, created, -⟩ := Service.of_onRegistry locked
    rw [ok] at created
    obtain ⟨q, deployed, revision, recorded⟩ := Registry.of_createExecution created
    refine ⟨n, Nat.lt_succ_self n, program, argument, q, before, deployed, ?_, revision⟩
    rw [record, service]
    exact recorded
  | delete | cancel => exact explained_after fun _ _ => trivial
  | refuse | relabel | cache | uncache | unreadable | misfit | register | find | lose | signal
  | answer | shutdown => exact trivial

theorem consistent_zero (named : (σ 0).service.Named)
    (given : ∀ name p k, (σ 0).program name = some p → p.revision = Registry.revisionText k →
      k ≤ (σ 0).service.registry.revisions)
    (parsed : (σ 0).service.parsed = ∅) (calls : ∀ c, (σ 0).calls c = .idle) :
    Consistent σ 0 := by
  have heldNow {p : Deployment} (held : Held σ 0 p) : (σ 0).program p.name = some p := by
    obtain ⟨i, before, held⟩ := held
    rwa [Nat.le_zero.1 before] at held
  refine ⟨named, fun p k held => given p.name p k (heldNow held), fun p q first second name _ => ?_,
    fun name form bound => ?_, fun c => ?_⟩
  · have first := heldNow first
    rw [name, heldNow second] at first
    exact (Option.some.inj first).symm
  · rw [parsed] at bound
    exact (Table.get?_empty_ne bound).elim
  · rw [calls]
    exact trivial

/-- A program that is held for the first time has a revision that none had before. -/
theorem Consistent.held_cases (consistent : Consistent σ n)
    (edits : (σ n).service.registry.Edits (σ (n + 1)).service.registry)
    (held : Held σ (n + 1) p) : Held σ n p ∨ (σ (n + 1)).program p.name = some p ∧
      p.revision = Registry.revisionText (σ (n + 1)).service.registry.revisions ∧
        ∀ q, Held σ n q → q.revision ≠ p.revision := by
  rcases held.succ with before | now
  · exact .inl before
  rcases held_of_edits edits now with before | ⟨_, new, more⟩
  · exact .inl ⟨n, Nat.le_refl n, before⟩
  refine .inr ⟨now, new, fun q heldBefore same => ?_⟩
  have := consistent.given q _ heldBefore (same.trans new)
  omega

theorem Consistent.unique_succ (consistent : Consistent σ n)
    (edits : (σ n).service.registry.Edits (σ (n + 1)).service.registry)
    (heldFirst : Held σ (n + 1) p) (heldSecond : Held σ (n + 1) q) (name : p.name = q.name)
    (revision : p.revision = q.revision) : p = q := by
  rcases consistent.held_cases edits heldFirst with first | ⟨now, _, others⟩
  · rcases consistent.held_cases edits heldSecond with second | ⟨_, _, others⟩
    · exact consistent.unique p q first second name revision
    · exact (others p first revision).elim
  · rcases consistent.held_cases edits heldSecond with second | ⟨now', _, _⟩
    · exact (others q second revision.symm).elim
    · rw [name, now'] at now
      exact (Option.some.inj now).symm

/-- A form that is kept now was kept before, or its program is the one with which a call was under
way. -/
theorem Consistent.kept_succ {name : String} {form : ParsedRevision}
    (consistent : Consistent σ n) (step : Step (σ n) (σ (n + 1)))
    (bound : (σ (n + 1)).service.parsed.get? name = some form) :
    ∃ p, Held σ (n + 1) p ∧ p.name = name ∧ p.revision = form.revision ∧
      Manifest.IsFormOf p.source form.manifest := by
  have earlier (bound : (σ n).service.parsed.get? name = some form) :
      ∃ p, Held σ (n + 1) p ∧ p.name = name ∧ p.revision = form.revision ∧
        Manifest.IsFormOf p.source form.manifest := by
    obtain ⟨p, held, backed⟩ := consistent.kept name form bound
    exact ⟨p, held.mono, backed⟩
  rcases step.parsed_cases consistent.named with same | ⟨other, erased⟩ | ⟨c, p, m, keeps, set⟩
  · rw [same] at bound
    exact earlier bound
  · rw [erased, Table.get?_erase] at bound
    split at bound
    · cases bound
    · exact earlier bound
  · rw [set, Table.get?_set] at bound
    split at bound
    · next own =>
      cases bound
      have explained := consistent.calls c
      rcases keeps with caching | ⟨goal, keeping⟩
      · rw [caching] at explained
        exact ⟨p, explained.1.mono, own.symm, rfl, explained.2⟩
      · rw [keeping] at explained
        exact ⟨p, explained.1.held.mono, own.symm, rfl, explained.2⟩
    · exact earlier bound

theorem Consistent.step (consistent : Consistent σ n) (step : Step (σ n) (σ (n + 1))) :
    Consistent σ (n + 1) := by
  have edits := step.edits consistent.named
  refine ⟨fun name p held => ?_, fun p k held revision => ?_,
    fun p q first second name revision => ?_, fun name form bound => ?_, fun c => ?_⟩
  · rcases held_of_edits edits held with before | ⟨same, _⟩
    · exact consistent.named name p before
    · exact same
  · rcases consistent.held_cases edits held with before | ⟨_, new, _⟩
    · exact Nat.le_trans (consistent.given p k before revision) (le_of_edits edits)
    · exact Nat.le_of_eq (Registry.revisionText_injective (revision.symm.trans new))
  · exact consistent.unique_succ edits first second name revision
  · exact consistent.kept_succ step bound
  · rcases step.calls_cases c with same | step | ⟨e, start, _, executed⟩ | ⟨_, down, _⟩
    · rw [same]
      exact (consistent.calls c).mono
    · exact consistent.explained step
    · rw [executed]
      exact trivial
    · rw [down]
      exact trivial

theorem Consistent.stay (consistent : Consistent σ n) (same : σ (n + 1) = σ n) :
    Consistent σ (n + 1) := by
  have heldBefore {p : Deployment} (held : Held σ (n + 1) p) : Held σ n p := by
    rcases held.succ with before | now
    · exact before
    · rw [same] at now
      exact ⟨n, Nat.le_refl n, now⟩
  refine ⟨?_, fun p k held => ?_, fun p q first second => ?_, fun name form bound => ?_,
    fun c => ?_⟩
  · rw [same]
    exact consistent.named
  · rw [same]
    exact consistent.given p k (heldBefore held)
  · exact consistent.unique p q (heldBefore first) (heldBefore second)
  · rw [same] at bound
    obtain ⟨p, held, backed⟩ := consistent.kept name form bound
    exact ⟨p, held.mono, backed⟩
  · rw [same]
    exact (consistent.calls c).mono

/-- A history of a service over a numbered registry is consistent at all moments. -/
theorem History.consistent {r : Registry} {budget : Int} {clock : Instant}
    (history : History (rest (.new r budget clock)) σ) (numbered : r.Numbered) (n : Nat) :
    Consistent σ n := by
  induction n with
  | zero =>
    refine consistent_zero ?_ ?_ ?_ ?_ <;> rw [history.init]
    · exact numbered.named
    · exact numbered.given
    · rfl
    · exact fun _ => rfl
  | succ n ih =>
    rcases history.next n with same | step
    · exact ih.stay same
    · exact ih.step step

theorem History.eq_of_revision_eq {r : Registry} {budget : Int} {clock : Instant}
    (history : History (rest (.new r budget clock)) σ) (numbered : r.Numbered) {i j : Nat}
    {name : String} (here : (σ i).program name = some p) (there : (σ j).program name = some q)
    (revision : p.revision = q.revision) : p = q := by
  have first : p.name = name := (history.consistent numbered i).named name p here
  have second : q.name = name := (history.consistent numbered j).named name q there
  refine (history.consistent numbered (max i j)).unique p q ⟨i, Nat.le_max_left i j, ?_⟩
    ⟨j, Nat.le_max_right i j, ?_⟩ (first.trans second.symm) revision
  · rwa [first]
  · rwa [second]

end World

end ImpHost
