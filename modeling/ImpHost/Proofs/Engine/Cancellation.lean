import ImpHost.Proofs.Engine.Budget
import ImpHost.Proofs.Engine.Slices

/-!
Engines that are cancelled.

An engine is used for one run after the other, and it may be cancelled at any time, also between two
questions of a run. `Engine.Session.play` follows such a history event by event. Before the first
question at which the engine has to stop, a run goes as on an engine of its own that nobody
disturbs; at that question it ends (`Engine.course_of_play`).

Main statement: `Engine.cancellation_stops_and_stays`.
-/

namespace ImpHost.Engine

/-- What can happen to an engine: a run begins, the run that goes on comes to its next question, or
the engine is cancelled. -/
inductive Event where
  | execute (context : Context) (m : Memory)
  | ask
  | cancel

/-- An engine with the context of its current or last run, and how that run stands. -/
structure Session where
  engine : Engine
  context : Context
  status : Status

namespace Session

/-- An engine that has not run yet. -/
def new (program : Command) (budget : Int) : Session :=
  ⟨.new program budget, .background, .succeeded⟩

/-- What an event makes of a session, if it can happen: a run begins when none goes on, and a run
that goes on asks and takes its step if it may. -/
def next (s : Session) : Event → Option Session
  | .execute context m =>
    if s.status = .running then none else some ⟨s.engine.begin m, context, .running⟩
  | .ask =>
    if s.status = .running then
      some ⟨(s.engine.advance s.context 1).1, s.context, (s.engine.advance s.context 1).2⟩
    else none
  | .cancel => some { s with engine := s.engine.cancel }

/-- What events make of a session, one after the other, if they can happen. -/
def play (s : Session) : List Event → Option Session
  | [] => some s
  | event :: events => (s.next event).bind fun t => t.play events

variable {s t : Session} {event : Event} {events : List Event}

/-- All that an event can do. -/
theorem next_cases (happened : s.next event = some t) :
    (∃ context m, event = .execute context m ∧ s.status ≠ .running ∧
        t = ⟨s.engine.begin m, context, .running⟩) ∨
      (event = .ask ∧ s.status = .running ∧
        t = ⟨(s.engine.advance s.context 1).1, s.context, (s.engine.advance s.context 1).2⟩) ∨
      (event = .cancel ∧ t = { s with engine := s.engine.cancel }) := by
  cases event with
  | execute context m =>
    rw [next] at happened
    split at happened
    · cases happened
    · next idle => exact .inl ⟨context, m, rfl, idle, (Option.some.inj happened).symm⟩
  | ask =>
    rw [next] at happened
    split at happened
    · next running => exact .inr (.inl ⟨rfl, running, (Option.some.inj happened).symm⟩)
    · cases happened
  | cancel => exact .inr (.inr ⟨rfl, (Option.some.inj happened).symm⟩)

theorem play_append (s : Session) (events later : List Event) :
    s.play (events ++ later) = (s.play events).bind fun t => t.play later := by
  induction events generalizing s with
  | nil => rfl
  | cons event events ih =>
    rw [List.cons_append, play, play, Option.bind_assoc]
    exact congrArg _ (funext ih)

theorem exists_of_play_append {later : List Event} (played : s.play (events ++ later) = some t) :
    ∃ u, s.play events = some u ∧ u.play later = some t := by
  rw [play_append] at played
  exact Option.bind_eq_some_iff.1 played

theorem exists_of_play_cons (played : s.play (event :: events) = some t) :
    ∃ u, s.next event = some u ∧ u.play events = some t :=
  Option.bind_eq_some_iff.1 played

/-- An engine keeps its program and its budget, and it is marked from the first cancellation on. -/
theorem engine_of_next (happened : s.next event = some t) :
    t.engine.program = s.engine.program ∧ t.engine.budget = s.engine.budget ∧
      (t.engine.meter.cancelled = true ↔ s.engine.meter.cancelled = true ∨ event = .cancel) := by
  rcases next_cases happened with ⟨context, m, rfl, _, rfl⟩ | ⟨rfl, _, rfl⟩ | ⟨rfl, rfl⟩
  · exact ⟨rfl, rfl, by simp [begin]⟩
  · obtain ⟨program, budget⟩ := s.engine.program_advance s.context 1
    exact ⟨program, budget, by simp [cancelled_advance]⟩
  · exact ⟨rfl, rfl, by simp [cancel]⟩

theorem engine_of_play (played : s.play events = some t) :
    t.engine.program = s.engine.program ∧ t.engine.budget = s.engine.budget ∧
      (t.engine.meter.cancelled = true ↔ s.engine.meter.cancelled = true ∨ .cancel ∈ events) := by
  induction events generalizing s with
  | nil =>
    cases played
    exact ⟨rfl, rfl, by simp⟩
  | cons event events ih =>
    obtain ⟨u, happened, later⟩ := exists_of_play_cons played
    obtain ⟨program, budget, marked⟩ := engine_of_next happened
    obtain ⟨program', budget', marked'⟩ := ih later
    refine ⟨program'.trans program, budget'.trans budget, ?_⟩
    rw [marked', marked, List.mem_cons, or_assoc, eq_comm (a := event)]

end Session

/-! ## Questions of a run -/

/-- Whether the event is a question. -/
def Event.isAsk : Event → Bool
  | .ask => true
  | _ => false

/-- Whether the event begins a run. -/
def Event.isExecute : Event → Bool
  | .execute _ _ => true
  | _ => false

/-- The number of questions among the events. -/
def asks (events : List Event) : Nat :=
  events.countP Event.isAsk

/-- A cancellation is among the events when no more than `n` questions have been asked. -/
def Lands (events : List Event) (n : Nat) : Prop :=
  ∃ earlier later, events = earlier ++ .cancel :: later ∧ asks earlier ≤ n

/-- The engine has to stop the run at the question after `n` others: the context is over by then, or
the engine was cancelled before the run or at an earlier moment of it. -/
def Due (context : Context) (before after : List Event) (n : Nat) : Prop :=
  context (n + 1) ≠ none ∨ .cancel ∈ before ∨ Lands after n

section

variable {context : Context} {before after : List Event} {event : Event} {n : Nat}

theorem asks_append (events later : List Event) :
    asks (events ++ later) = asks events + asks later :=
  List.countP_append

/-- A cancellation lands before the question that is still to come. -/
theorem lands_asks_iff : Lands after (asks after) ↔ .cancel ∈ after := by
  constructor
  · rintro ⟨earlier, later, rfl, _⟩
    exact List.mem_append_right _ List.mem_cons_self
  · intro cancelled
    obtain ⟨earlier, later, rfl⟩ := List.append_of_mem cancelled
    refine ⟨earlier, later, rfl, ?_⟩
    rw [asks_append]
    exact Nat.le_add_right ..

/-- A later event changes nothing about the questions that have been asked, and one that is no
cancellation nothing about the next one. -/
theorem lands_concat_iff (past : n < asks after ∨ event ≠ .cancel) :
    Lands (after ++ [event]) n ↔ Lands after n := by
  constructor
  · rintro ⟨earlier, later, split, few⟩
    rcases List.eq_nil_or_concat later with rfl | ⟨later, last, rfl⟩
    · obtain ⟨rfl, same⟩ := List.append_inj' split rfl
      cases same
      rcases past with less | other
      · exact (Nat.not_lt.2 few less).elim
      · exact (other rfl).elim
    · rw [List.concat_eq_append, ← List.cons_append, ← List.append_assoc] at split
      exact ⟨earlier, later, (List.append_inj' split rfl).1, few⟩
  · rintro ⟨earlier, later, rfl, few⟩
    exact ⟨earlier, later ++ [event], by rw [List.append_assoc]; rfl, few⟩

theorem due_concat_iff (past : n < asks after ∨ event ≠ .cancel) :
    Due context before (after ++ [event]) n ↔ Due context before after n := by
  rw [Due, Due, lands_concat_iff past]

theorem due_concat_ask_iff :
    Due context before (after ++ [.ask]) n ↔ Due context before after n :=
  due_concat_iff (.inr nofun)

end

/-! ## Runs that nobody disturbs -/

/-- The first `n` steps of a program on an engine of its own, in a context that never ends and
without a cancellation. -/
def undisturbed (program : Command) (budget : Int) (m : Memory) (n : Nat) : Engine × Status :=
  (new program budget).execute .background n m

/-- The engine with its mark set or not. -/
def mark (marked : Bool) (e : Engine) : Engine :=
  { e with meter := { e.meter with cancelled := marked } }

section

variable {program : Command} {budget : Int} {m : Memory} {n : Nat}

/-- An undisturbed run that goes on has a command to run, and it has counted every question. -/
theorem undisturbed_of_running (running : (undisturbed program budget m n).2 = .running) :
    ∃ c k left, (undisturbed program budget m n).1 =
      ⟨program, budget, ⟨n, n, false⟩, some ⟨c :: k, left⟩⟩ := by
  obtain ⟨machine, meter, c, k, left, start, run, engine⟩ := exists_of_advance_running running
  cases start
  obtain ⟨_, _, host, spent, _⟩ := outcomeWithin_account (e := new program budget) rfl budget m n
  have outcome :
      (new program budget).outcomeWithin budget m n = .running meter ⟨c :: k, left⟩ := run
  rw [outcome] at host spent
  have counted : meter = ⟨n, n, false⟩ := by
    rw [← spent id]
    exact host
  refine ⟨c, k, left, engine.trans ?_⟩
  rw [counted]
  rfl

theorem undisturbed_succ (running : (undisturbed program budget m n).2 = .running) :
    undisturbed program budget m (n + 1) =
      (undisturbed program budget m n).1.advance .background 1 :=
  advance_add running

end

/-! ## The course of a run -/

/-- Where a run stands whose events so far are `after`, and `before` those before it began. Either
no question had to be its last, and it stands as an undisturbed run does after as many questions, or
it was stopped at the first question that had to be its last. -/
inductive Course (program : Command) (budget : Int) (context : Context) (m : Memory)
    (before after : List Event) (s : Session) : Prop
  | going (quiet : ∀ n < asks after, ¬ Due context before after n) (own : s.context = context)
    (engine : s.engine =
      (undisturbed program budget m (asks after)).1.mark s.engine.meter.cancelled)
    (status : s.status = (undisturbed program budget m (asks after)).2)
  | stopped (n : Nat) (last : asks after = n + 1) (due : Due context before after n)
    (first : ∀ j < n, ¬ Due context before after j)
    (running : (undisturbed program budget m n).2 = .running)
    (status : s.status = .failed (.host (.ofContext (context (n + 1)))))
    (steps : s.engine.steps = n)
    (snapshot : s.engine.snapshot? = (undisturbed program budget m n).1.snapshot?)

section

variable {program : Command} {budget : Int} {context : Context} {m : Memory}
  {before after : List Event} {s t : Session}

/-- A run that begins stands where an undisturbed one does. -/
theorem course_nil {e : Engine} (program_eq : e.program = program) (budget_eq : e.budget = budget) :
    Course program budget context m before [] ⟨e.begin m, context, .running⟩ := by
  refine .going (fun n less => (Nat.not_lt_zero n less).elim) rfl ?_ rfl
  subst program_eq budget_eq
  rfl

/-- A cancellation changes nothing but the mark. -/
theorem Course.cancel (course : Course program budget context m before after s) :
    Course program budget context m before (after ++ [.cancel])
      { s with engine := s.engine.cancel } := by
  have same : asks (after ++ [.cancel]) = asks after := asks_append after [.cancel]
  cases course with
  | going quiet own engine status =>
    refine .going (fun n less => ?_) own ?_ (by rw [same]; exact status)
    · rw [same] at less
      rw [due_concat_iff (.inl less)]
      exact quiet n less
    · rw [same]
      have marked : s.engine.cancel =
          ((undisturbed program budget m (asks after)).1.mark s.engine.meter.cancelled).cancel :=
        congrArg Engine.cancel engine
      exact marked
  | stopped n last due first running status steps snapshot =>
    have past (j : Nat) (le : j ≤ n) : j < asks after := by omega
    refine .stopped n (same.trans last) ?_ (fun j less => ?_) running status steps snapshot
    · rwa [due_concat_iff (.inl (past n (Nat.le_refl n)))]
    · rw [due_concat_iff (.inl (past j (Nat.le_of_lt less)))]
      exact first j less

/-- The next question stops the run if it has to be the last one. Otherwise the run goes on as an
undisturbed one does. -/
theorem Course.ask (course : Course program budget context m before after s)
    (marked : s.engine.meter.cancelled = true ↔ .cancel ∈ before ∨ .cancel ∈ after)
    (running : s.status = .running) :
    Course program budget context m before (after ++ [.ask])
      ⟨(s.engine.advance s.context 1).1, s.context, (s.engine.advance s.context 1).2⟩ := by
  have count : asks (after ++ [.ask]) = asks after + 1 := asks_append after [.ask]
  cases course with
  | stopped n last due first goes status => cases status.symm.trans running
  | going quiet own engine status =>
    have goes := status.symm.trans running
    obtain ⟨c, k, left, undisturbedEngine⟩ := undisturbed_of_running goes
    have here : s.engine.machine = some ⟨c :: k, left⟩ := by
      rw [engine, undisturbedEngine]
      rfl
    have asked : s.engine.meter.asked = asks after := by
      rw [engine, undisturbedEngine]
      rfl
    have due_iff : Due context before after (asks after) ↔
        context (asks after + 1) ≠ none ∨ s.engine.meter.cancelled = true := by
      rw [Due, lands_asks_iff, marked]
    by_cases due : Due context before after (asks after)
    · have stop := due_iff.1 due
      rw [← asked] at stop
      have ends := advance_one_of_stop here (own ▸ stop)
      refine .stopped (asks after) count (due_concat_ask_iff.2 due)
        (fun j less now => quiet j less (due_concat_ask_iff.1 now)) goes ?_ ?_ ?_
      · rw [ends, asked, own]
      · rw [ends, engine, undisturbedEngine]
        rfl
      · rw [ends, undisturbedEngine]
        rfl
    · have pass := not_or.1 ((not_congr due_iff).1 due)
      have unmarked : s.engine.meter.cancelled = false := Bool.eq_false_iff.2 pass.2
      have onward : context (s.engine.meter.asked + 1) = none := by
        rw [asked]
        exact Decidable.not_not.1 pass.1
      -- Without a mark the engine is that of the undisturbed run, and it goes on as that one does.
      have alone : s.engine = (undisturbed program budget m (asks after)).1 := by
        rw [engine, unmarked, undisturbedEngine]
        rfl
      have further : s.engine.advance s.context 1 =
          undisturbed program budget m (asks after + 1) := by
        rw [own, advance_one_of_pass here onward, undisturbed_succ goes, alone]
      refine .going (fun n less => ?_) own ?_ ?_
      · rw [count] at less
        rw [due_concat_ask_iff]
        rcases Nat.lt_succ_iff_lt_or_eq.1 less with less | rfl
        · exact quiet n less
        · exact due
      · rw [count, further]
        rfl
      · rw [count, further]

/-- A run that goes on is stopped at its next question if that has to be the last one, with the
steps it has made and the store it has. -/
theorem Course.stops (course : Course program budget context m before after s)
    (marked : s.engine.meter.cancelled = true ↔ .cancel ∈ before ∨ .cancel ∈ after)
    (running : s.status = .running) (due : Due context before after (asks after)) :
    ∃ t, s.next .ask = some t ∧
      t.status = .failed (.host (.ofContext (context (asks after + 1)))) ∧
      t.engine.steps = asks after ∧ t.engine.snapshot? = s.engine.snapshot? := by
  have count : asks (after ++ [.ask]) = asks after + 1 := asks_append after [.ask]
  refine ⟨_, if_pos running, ?_⟩
  cases course.ask marked running with
  | going quiet =>
    exact (quiet (asks after) (count ▸ Nat.lt_succ_self _) (due_concat_ask_iff.2 due)).elim
  | stopped n last _ _ _ status steps snapshot =>
    obtain rfl : asks after = n := Nat.succ.inj (count.symm.trans last)
    refine ⟨status, steps, snapshot.trans ?_⟩
    cases course with
    | stopped _ _ _ _ _ status => cases status.symm.trans running
    | going _ _ engine =>
      rw [engine]
      rfl

/-- What further events make of a run, as long as no other run begins. -/
theorem Course.play {later : List Event} (course : Course program budget context m before after s)
    (marked : s.engine.meter.cancelled = true ↔ .cancel ∈ before ∨ .cancel ∈ after)
    (played : s.play later = some t) (own : ∀ event ∈ later, event.isExecute = false) :
    Course program budget context m before (after ++ later) t := by
  induction later generalizing s after with
  | nil =>
    cases played
    rwa [List.append_nil]
  | cons event later ih =>
    obtain ⟨u, happened, played⟩ := Session.exists_of_play_cons played
    obtain ⟨_, _, marks⟩ := Session.engine_of_next happened
    have marked' : u.engine.meter.cancelled = true ↔
        .cancel ∈ before ∨ .cancel ∈ after ++ [event] := by
      rw [marks, marked, or_assoc, List.mem_append, List.mem_singleton, eq_comm (a := event)]
    have course' : Course program budget context m before (after ++ [event]) u := by
      rcases Session.next_cases happened with ⟨_, _, rfl, _⟩ | ⟨rfl, running, rfl⟩ | ⟨rfl, rfl⟩
      · cases own _ List.mem_cons_self
      · exact course.ask marked running
      · exact course.cancel
    have rest := ih course' marked' played fun event member =>
      own event (List.mem_cons_of_mem _ member)
    rwa [List.append_assoc] at rest

/-- How a run began: on an engine with the program and the budget of a new one, marked if there was
a cancellation before. -/
theorem exists_of_play_execute
    (played : (Session.new program budget).play (before ++ .execute context m :: after) = some s) :
    ∃ e : Engine, e.program = program ∧ e.budget = budget ∧
      (e.meter.cancelled = true ↔ .cancel ∈ before) ∧
      Session.play ⟨e.begin m, context, .running⟩ after = some s := by
  obtain ⟨u, earlier, played⟩ := Session.exists_of_play_append played
  obtain ⟨v, happened, played⟩ := Session.exists_of_play_cons played
  obtain ⟨program_eq, budget_eq, marked⟩ := Session.engine_of_play earlier
  rcases Session.next_cases happened with ⟨_, _, same, _, rfl⟩ | ⟨other, _⟩ | ⟨other, _⟩
  · cases same
    refine ⟨u.engine, program_eq, budget_eq, ?_, played⟩
    rw [marked]
    exact or_iff_right Bool.false_ne_true
  · cases other
  · cases other

theorem marked_iff_of_play
    (played : (Session.new program budget).play (before ++ .execute context m :: after) = some s) :
    s.engine.meter.cancelled = true ↔ .cancel ∈ before ∨ .cancel ∈ after := by
  have unmarked : (Session.new program budget).engine.meter.cancelled = false := rfl
  obtain ⟨_, _, marked⟩ := Session.engine_of_play played
  rw [marked, unmarked, List.mem_append, List.mem_cons]
  simp

theorem course_of_play
    (played : (Session.new program budget).play (before ++ .execute context m :: after) = some s)
    (own : ∀ event ∈ after, event.isExecute = false) :
    Course program budget context m before after s := by
  obtain ⟨e, program_eq, budget_eq, marked, played⟩ := exists_of_play_execute played
  have start : Course program budget context m before [] ⟨e.begin m, context, .running⟩ :=
    course_nil program_eq budget_eq
  refine start.play ?_ played own
  exact marked.trans (or_iff_left List.not_mem_nil).symm

/-- An engine that is marked stops every run at its first question. -/
theorem execute_of_marked {e : Engine} (marked : e.meter.cancelled = true) (context : Context)
    (m : Memory) (fuel : Nat) :
    (e.execute context (fuel + 1) m).2 = .failed (.host (.ofContext (context 1))) ∧
      (e.execute context (fuel + 1) m).1.steps = 0 ∧
      (e.execute context (fuel + 1) m).1.snapshot? = some m := by
  have stop : (e.begin m).advance context 1 = _ :=
    advance_one_of_stop rfl (.inr marked)
  have isOver : ((e.begin m).advance context 1).2 ≠ .running := by
    rw [stop]
    nofun
  have whole : e.execute context (fuel + 1) m = (e.begin m).advance context 1 := by
    rw [execute, Nat.add_comm, advance_of_over isOver]
  rw [whole, stop]
  exact ⟨rfl, rfl, rfl⟩

/-- Let an engine go through any history of runs and cancellations, the last run of which began with
the store `m` after the events `before`, and let `after` be the events of this run. If a question of
the run had to be its last, the run was stopped at the first such question, as cancelled, with the
steps and the store of the undisturbed run at this question; a context that is over is told before a
cancellation, and either before the budget. If there was no such question, the run stands as the
undisturbed one does after as many questions, be it at its end or on its way; if it goes on and its
next question has to be its last, it is stopped there. A cancellation stays: every later run on the
engine is stopped at its first question with its store as it was. Without a cancellation before it,
a run does not depend on what came before. -/
theorem cancellation_stops_and_stays (program : Command) (budget : Int) (context : Context)
    (m : Memory) (before after : List Event) (s : Session)
    (played : (Session.new program budget).play (before ++ .execute context m :: after) = some s)
    (own : ∀ event ∈ after, event.isExecute = false) :
    (∀ n, n < asks after → Due context before after n → (∀ j < n, ¬ Due context before after j) →
      asks after = n + 1 ∧ (undisturbed program budget m n).2 = .running ∧
        s.status = .failed (.host (.ofContext (context (n + 1)))) ∧ s.engine.steps = n ∧
        s.engine.snapshot? = (undisturbed program budget m n).1.snapshot?) ∧
    ((∀ n < asks after, ¬ Due context before after n) →
      Alike (s.engine, s.status) (undisturbed program budget m (asks after))) ∧
    (s.status = .running → Due context before after (asks after) →
      ∃ t, s.next .ask = some t ∧
        t.status = .failed (.host (.ofContext (context (asks after + 1)))) ∧
        t.engine.steps = asks after ∧ t.engine.snapshot? = s.engine.snapshot?) ∧
    (.cancel ∈ before ++ after → ∀ (context' : Context) (m' : Memory) (fuel : Nat),
      let r := s.engine.execute context' (fuel + 1) m'
      r.2 = .failed (.host (.ofContext (context' 1))) ∧ r.1.steps = 0 ∧
        r.1.snapshot? = some m') ∧
    (.cancel ∉ before →
      (Session.new program budget).play (.execute context m :: after) = some s) ∧
    ∀ ending : Option ContextEnd, (Interruption.ofContext ending).report = .cancelled
      (ending.elim "execution cancelled" fun why => "execution stopped: " ++ why.text) := by
  refine ⟨fun n asked due first => ?_, fun quiet => ?_, fun running due => ?_,
    fun cancelled context' m' fuel => ?_, fun never => ?_, fun ending => ?_⟩
  · cases course_of_play played own with
    | going quiet => exact (quiet n asked due).elim
    | stopped n' last due' first' running status steps snapshot =>
      have same : n' = n := by
        refine Nat.le_antisymm ?_ ?_
        · exact Nat.not_lt.1 fun less => first' n less due
        · exact Nat.not_lt.1 fun less => first n' less due'
      subst same
      exact ⟨last, running, status, steps, snapshot⟩
  · cases course_of_play played own with
    | going _ _ engine status =>
      refine ⟨status, ?_, ?_⟩ <;> dsimp only <;> rw [engine] <;> rfl
    | stopped n last due => exact (quiet n (by omega) due).elim
  · exact (course_of_play played own).stops (marked_iff_of_play played) running due
  · have marked := (marked_iff_of_play played).2 (List.mem_append.1 cancelled)
    exact execute_of_marked marked context' m' fuel
  · obtain ⟨e, rfl, rfl, marked, played⟩ := exists_of_play_execute played
    have unmarked : e.meter.cancelled = false := Bool.eq_false_iff.2 fun is => never (marked.1 is)
    have same : (new e.program e.budget).begin m = e.begin m := by
      rw [begin, begin, unmarked]
      rfl
    have idle : (Session.new e.program e.budget).status ≠ .running := by
      simp [Session.new]
    rw [Session.play, Session.next, if_neg idle]
    exact (congrArg (fun e => Session.play ⟨e, context, .running⟩ after) same).trans played
  · cases ending <;> rfl

/-- The context of a first run of an endless loop stops it at its second question. A second run is
cancelled after two questions, so its third one stops it, and a third run makes no step. -/
theorem cancellation_stops_and_stays_second_run :
    let loop : Command := .whileDo (.lit true) (.assign "x" (.int 1))
    let m : Memory := Table.set ∅ "x" (.int 0)
    let before : List Event := [.execute (.endsAt 2 .deadline) m, .ask, .ask]
    let after : List Event := [.ask, .ask, .cancel, .ask]
    ∃ s, (Session.new loop 0).play (before ++ .execute .background m :: after) = some s ∧
      s.status = .failed (.host .cancelled) ∧ s.engine.steps = 2 ∧
      s.engine.snapshot? = some (m.set "x" (.int 1)) ∧
      (s.engine.execute .background 1 m).1.steps = 0 := by
  intro loop m before after
  have possible :
      ((Session.new loop 0).play (before ++ .execute .background m :: after)).isSome := rfl
  obtain ⟨s, played⟩ := Option.isSome_iff_exists.1 possible
  have own : ∀ event ∈ after, event.isExecute = false := by
    simp [after, Event.isExecute]
  have due : Due .background before after 2 :=
    .inr (.inr ⟨[.ask, .ask], [.ask], rfl, by decide⟩)
  have first (j : Nat) (less : j < 2) : ¬ Due .background before after j := by
    have asked : ¬ Lands [.ask, .ask] j := by
      rintro ⟨earlier, later, split, _⟩
      have member : Event.cancel ∈ [Event.ask, .ask] :=
        split ▸ List.mem_append_right earlier List.mem_cons_self
      simp at member
    have cancelled : Lands ([.ask, .ask] ++ [.cancel]) j ↔ Lands [.ask, .ask] j :=
      lands_concat_iff (.inl less)
    have whole : Lands ([.ask, .ask, .cancel] ++ [.ask]) j ↔ Lands [.ask, .ask, .cancel] j :=
      lands_concat_iff (.inr nofun)
    rintro (ends | earlier | lands)
    · exact ends rfl
    · simp [before] at earlier
    · exact asked (cancelled.1 (whole.1 lands))
  obtain ⟨stops, _, _, stays, _⟩ :=
    cancellation_stops_and_stays loop 0 .background m before after s played own
  obtain ⟨_, _, status, steps, snapshot⟩ := stops 2 (by decide) due first
  refine ⟨s, played, status, steps, snapshot.trans rfl, ?_⟩
  exact (stays (by simp [after]) .background m 0).2.1

end

end ImpHost.Engine
