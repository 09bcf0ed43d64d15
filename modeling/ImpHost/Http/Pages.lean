import ImpHost.Html.Layout
import ImpHost.Html.Playground
import ImpHost.Http.Executions
import ImpHost.Http.Interpreter

/-!
Requests for pages.
-/

namespace ImpHost.Http

open Html (Scope)

/-- The seconds that a run in the playground may take. -/
def playgroundSeconds : Nat := 10

/-- How many executions the dashboard shows. -/
def recentShown : Nat := 10

/-- The place whose programs the pages show. -/
def scopePlace (scope : Scope) : String :=
  Resource.place scope.project scope.location

/-- The program with an identifier. -/
def scopeProgram (scope : Scope) (id : String) : String :=
  Resource.program (scopePlace scope) id

/-- The programs of a place, the last updated first. -/
def latestPrograms (s : Service) (scope : Scope) : List Deployment :=
  (s.registry.programsBelow (scopePlace scope)).mergeSort fun p q =>
    decide (q.updated.nanos ≤ p.updated.nanos)

/-- Executions, the newest first; those of one moment stay in order. -/
def latestExecutions (executions : List Execution) : List Execution :=
  executions.mergeSort fun e f => decide (f.started.nanos ≤ e.started.nanos)

/-- The executions of the given programs. -/
def executionsOfAll (s : Service) (programs : List Deployment) : List Execution :=
  programs.flatMap fun p => s.registry.executionsOf p.name

/-- The dashboard. -/
def dashboard (scope : Scope) : Handler := fun s _ _ =>
  let programs := latestPrograms s scope
  let executions := executionsOfAll s programs
  let recent := (latestExecutions executions).take recentShown
  (s, .page (Html.page scope (some .dashboard)
    (Html.dashboard s.clock (.of executions) programs recent)))

/-- The list of programs. -/
def programList (scope : Scope) : Handler := fun s _ _ =>
  let summaries := (latestPrograms s scope).map fun p =>
    let executions := s.registry.executionsOf p.name
    ⟨p, executions.length, executions.countP fun e => e.state == .active⟩
  (s, .page (Html.page scope (some .programs) (Html.programList s.clock summaries)))

/-- The page of a program, with the reason for which the last attempt to run it failed. -/
def programPage (scope : Scope) (s : Service) (id error : String) : Service × Response :=
  let name := scopeProgram scope id
  match s.registry.program name with
  | .error _ =>
    (s, .page (Html.page scope none (Html.notFound ("Program '" ++ id ++ "' not found"))))
  | .ok p =>
    let executions := s.registry.executionsOf name
    let (s, parsed) := s.program name
    let form? : Option Html.ProgramForm := match parsed with
      | .ok m => some ⟨m.program.formatIndent, m.store⟩
      | .error _ => none
    (s, .page (Html.page scope (some .programs)
      (Html.programDetail s.clock id p form? executions error)))

/-- The first parameter of a path. -/
def param (ps : List String) (i : Nat) : String :=
  (ps[i]?).getD ""

/-- The page of a program. -/
def programDetail (scope : Scope) : Handler := fun s _ ps =>
  programPage scope s (param ps 0) ""

/-- The address of the page of an execution. -/
def executionAddress (program id : String) : String :=
  "/ui/executions/" ++ program ++ "/" ++ id

/-- A text without the white space at its ends. -/
def trimmed (t : Text) : Text :=
  String.ofList (trimSpace t.chars)

/-- Starts an execution from the page of its program. -/
def executeProgram (scope : Scope) : Handler := fun s r ps =>
  let id := param ps 0
  match s.execute (scopeProgram scope id) (trimmed (r.formValue "argument")) with
  | (s, .ok e) => (s, .redirect 303 (executionAddress id e.id))
  | (s, .error why) => programPage scope s id why.message

/-- The list of all executions. -/
def allExecutions (scope : Scope) : Handler := fun s _ _ =>
  let programs := s.registry.programsBelow (scopePlace scope)
  (s, .page (Html.page scope (some .executions)
    (Html.executionList s.clock none (latestExecutions (executionsOfAll s programs)))))

/-- The list of the executions of a program. -/
def executionList (scope : Scope) : Handler := fun s _ ps =>
  let id := param ps 0
  (s, .page (Html.page scope (some .programs)
    (Html.executionList s.clock (some id) (s.registry.executionsOf (scopeProgram scope id)))))

/-- The page of an execution. -/
def executionDetail (scope : Scope) : Handler := fun s _ ps =>
  let program := param ps 0
  let id := param ps 1
  match s.registry.execution (Resource.execution (scopeProgram scope program) id) with
  | .error _ =>
    (s, .page (Html.page scope none (Html.notFound ("Execution '" ++ id ++ "' not found"))))
  | .ok e =>
    let live? := match s.progress? e with
      | some (some m, steps) => some (m, steps)
      | _ => none
    (s, .page (Html.page scope (some .executions)
      (Html.executionDetail s.clock program id e live?)))

/-- Cancels an execution from its page. That it has ended already is not worth an error page. -/
def cancelFromPage (scope : Scope) : Handler := fun s _ ps =>
  let program := param ps 0
  let id := param ps 1
  let (s, _) := s.cancel (Resource.execution (scopeProgram scope program) id)
  (s, .redirect 303 (executionAddress program id))

/-- Runs the contents of the playground. -/
def runPlayground (s : Service) (source store : Text) : Html.PlaygroundRun :=
  match Memory.ofJson store with
  | .error why => ⟨none, "", "invalid store: " ++ why.message⟩
  | .ok start =>
    let formatted := match Command.parse source with
      | .ok c => c.formatIndent
      | .error _ => ""
    match s.runWithin (playgroundSeconds * Service.asksPerSecond) source start with
    | .error why => ⟨none, formatted, why.message⟩
    | .ok (engine, status) =>
      ⟨some (engine.snapshot?.getD ∅, engine.steps), formatted,
        (status.problem?.map Problem.message).getD ""⟩

/-- The playground. -/
def playground (scope : Scope) : Handler := fun s r _ =>
  let source := r.formValue "source"
  let store := r.formValue "store"
  let run? := if r.method == "POST" then some (runPlayground s source store) else none
  (s, .page (Html.page scope (some .playground) (Html.playground source.lossy store.lossy run?)))

end ImpHost.Http
