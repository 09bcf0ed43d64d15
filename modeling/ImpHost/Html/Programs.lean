import ImpHost.Html.Executions

/-!
Pages on programs: the dashboard, the list of programs and the page of one program.
-/

namespace ImpHost.Html

/-- How many bytes of a description the tables show. -/
def descriptionWidth : Nat := 60

/-- The cell with the description of a program. -/
def descriptionCell (p : Deployment) : Html :=
  cell (text (p.description.cut descriptionWidth).lossy)

/-! ## The dashboard -/

/-- How many executions are in each state. -/
structure StateCounts where
  active : Nat
  succeeded : Nat
  failed : Nat
  cancelled : Nat

/-- How many of the executions are in each state. -/
def StateCounts.of (executions : List Execution) : StateCounts :=
  let count (s : ExecutionState) := executions.countP fun e => e.state == s
  ⟨count .active, count .succeeded, count .failed, count .cancelled⟩

/-- The count of one state. -/
def statCard (s : ExecutionState) (n : Nat) (label : String) : Html :=
  markup ("  <div class=\"stat\"><div class=\"num " ++ s.styleClass ++ "\">") ++ number n
    ++ markup ("</div><div class=\"label\">" ++ label ++ "</div></div>\n")

/-- A program on the dashboard. -/
def dashboardProgram (now : Instant) (p : Deployment) : Html :=
  markup "\n    <tr>\n" ++ cell (programLink p.id) ++ descriptionCell p ++ cell (text p.revision)
    ++ cell (text (now.ago p.updated)) ++ markup "    </tr>\n    "

/-- An execution on the dashboard. -/
def dashboardExecution (now : Instant) (e : Execution) : Html :=
  markup "\n    <tr>\n      " ++ stateCell e.state ++ markup "\n"
    ++ cell (programLink (programIdOf e))
    ++ cell (executionLink e (text ((executionIdOf e : Text).cut 8).lossy))
    ++ progressCells now e ++ markup "    </tr>\n    "

/-- The contents of the dashboard. -/
def dashboard (now : Instant) (counts : StateCounts) (programs : List Deployment)
    (recent : List Execution) : Html :=
  markup "\n<h1>Dashboard</h1>\n\n<div class=\"card stats\">\n"
    ++ statCard .active counts.active "Active"
    ++ statCard .succeeded counts.succeeded "Succeeded"
    ++ statCard .failed counts.failed "Failed"
    ++ statCard .cancelled counts.cancelled "Cancelled"
    ++ markup "</div>\n\n<h2>Programs</h2>\n<div class=\"card\">\n  "
    ++ (if programs.isEmpty then
        markup "\n  <p class=\"empty\">No programs deployed. Deploy one with the REST API, the gRPC API, "
          ++ markup "or --programs-dir.</p>\n  "
      else
        markup "\n  <table>\n    <tr><th>Name</th><th>Description</th><th>Revision</th>"
          ++ markup "<th>Updated</th></tr>\n    "
          ++ concat (programs.map (dashboardProgram now)) ++ markup "\n  </table>\n  ")
    ++ markup "\n</div>\n\n<h2>Recent executions</h2>\n<div class=\"card\">\n  "
    ++ (if recent.isEmpty then markup "\n  <p class=\"empty\">No executions yet.</p>\n  "
      else
        markup "\n  <table>\n    <tr><th>State</th><th>Program</th><th>Execution</th><th>Steps</th>"
          ++ markup "<th>Started</th></tr>\n    "
          ++ concat (recent.map (dashboardExecution now)) ++ markup "\n  </table>\n  ")
    ++ markup "\n</div>\n"

/-! ## The list of programs -/

/-- A program with the number of its executions and of those that are active. -/
structure ProgramSummary where
  program : Deployment
  executions : Nat
  active : Nat

/-- A row of the list of programs. -/
def programRow (now : Instant) (s : ProgramSummary) : Html :=
  let p := s.program
  markup "\n    <tr>\n" ++ cell (programLink p.id) ++ descriptionCell p
    ++ cell (number p.source.countLines)
    ++ cell (markup "<a href=\"/ui/programs/" ++ url p.id ++ markup "/executions\">"
      ++ number s.executions ++ markup "</a>")
    ++ cell (number s.active) ++ cell (text (now.ago p.updated)) ++ markup "    </tr>\n    "

/-- The contents of the list of programs. -/
def programList (now : Instant) (programs : List ProgramSummary) : Html :=
  markup "\n<h1>Programs</h1>\n\n<div class=\"card\">\n  "
    ++ (if programs.isEmpty then markup "\n  <p class=\"empty\">No programs deployed.</p>\n  "
      else
        markup "\n  <table>\n    <tr><th>Name</th><th>Description</th><th>Lines</th>"
          ++ markup "<th>Executions</th><th>Active</th><th>Updated</th></tr>\n    "
          ++ concat (programs.map (programRow now)) ++ markup "\n  </table>\n  ")
    ++ markup "\n</div>\n"

/-! ## The page of a program -/

/-- An execution on the page of its program. -/
def programExecution (now : Instant) (e : Execution) : Html :=
  markup "\n    <tr>\n      " ++ stateCell e.state ++ markup "\n"
    ++ cell (executionLink e (text (executionIdOf e)))
    ++ progressCells now e
    ++ cell (text (now.lasting e.started e.ended)) ++ markup "    </tr>\n    "

/-- What the parsed form of a program shows: its layout and its initial store. -/
structure ProgramForm where
  formatted : String
  store : Memory

/-- A heading with formatted source under it. -/
def formattedSection (formatted : String) : Html :=
  when (formatted != "")
    (markup "\n<h2>Formatted</h2>\n<pre>" ++ text formatted ++ markup "</pre>\n")

/-- The form to run a program. -/
def executeForm (id : String) : Html :=
  markup "<h2>Trigger Execution</h2>\n<div class=\"card\">\n  <form method=\"post\" action=\"/ui/programs/"
    ++ url id
    ++ lines [
      "/execute\">",
      "    <label class=\"muted\" for=\"argument\">Argument (JSON object merged over the default store)</label>",
      "    <textarea id=\"argument\" name=\"argument\" rows=\"3\" placeholder='\x7b\"n\": 10\x7d'></textarea>",
      "    <p><button type=\"submit\">Execute</button></p>",
      "  </form>",
      "</div>"]

/-- The contents of the page of a program. `error` is why the last attempt to run it failed. -/
def programDetail (now : Instant) (id : String) (p : Deployment) (form? : Option ProgramForm)
    (executions : List Execution) (error : String) : Html :=
  let description := p.description.lossy
  let store := (form?.map ProgramForm.store).getD ∅
  markup "\n\n<h1>" ++ text id ++ markup "</h1>\n"
    ++ when (description != "") (markup "<p>" ++ text description ++ markup "</p>")
    ++ markup "\n<p class=\"muted\">" ++ text p.name ++ markup " &middot; revision "
    ++ text p.revision ++ markup " &middot; updated " ++ text p.updated.render
    ++ markup "</p>\n\n"
    ++ when (error != "") (markup "<div class=\"card error\">" ++ text error ++ markup "</div>")
    ++ markup "\n\n" ++ executeForm id ++ markup "\n"
    ++ when (!store.entries.isEmpty)
      (markup "\n<h2>Default store</h2>\n<div class=\"card\">\n" ++ storeTable store
        ++ markup "</div>\n")
    ++ markup "\n\n<h2>Source (" ++ number p.source.countLines ++ markup " lines)</h2>\n<pre>"
    ++ text p.source.lossy ++ markup "</pre>\n\n"
    ++ formattedSection ((form?.map ProgramForm.formatted).getD "")
    ++ markup "\n\n<h2>Executions</h2>\n<div class=\"card\">\n  "
    ++ (if executions.isEmpty then markup "\n  <p class=\"empty\">No executions yet.</p>\n  "
      else
        markup "\n  <table>\n    <tr><th>State</th><th>Execution</th><th>Steps</th><th>Started</th>"
          ++ markup "<th>Duration</th></tr>\n    "
          ++ concat (executions.map (programExecution now)) ++ markup "\n  </table>\n  ")
    ++ markup "\n</div>\n\n"

end ImpHost.Html
