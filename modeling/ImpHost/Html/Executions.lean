import ImpHost.Html.Basic
import ImpHost.Json.Indent
import ImpHost.Memory.Basic
import ImpHost.Registry.Record
import ImpHost.Time.Span

/-!
Pages on executions: the list of executions, the page of one execution, and the pieces that other
pages show of them.
-/

namespace ImpHost

namespace ExecutionState

/-- The class under which the style knows a state. -/
def styleClass : ExecutionState → String
  | .active => "state-active"
  | .succeeded => "state-succeeded"
  | .failed => "state-failed"
  | .cancelled => "state-cancelled"
  | .other _ => ""

/-- The sign that stands for a state. -/
def icon : ExecutionState → String
  | .active => "&#9654;"
  | .succeeded => "&#10003;"
  | .failed => "&#10007;"
  | .cancelled => "&#9632;"
  | .other _ => "&#8226;"

end ExecutionState

namespace Html

/-- The identifier of the program in the name of an execution. -/
def programIdOf (e : Execution) : String :=
  Resource.segmentAfter Resource.programSegment e.name

/-- The identifier in the name of an execution. -/
def executionIdOf (e : Execution) : String :=
  Resource.segmentAfter Resource.executionSegment e.name

/-- A state with its sign, in a cell of its own colour. -/
def stateCell (s : ExecutionState) : Html :=
  markup "<td class=\"" ++ text s.styleClass ++ markup "\">" ++ markup s.icon ++ markup " "
    ++ text s.name ++ markup "</td>"

/-- A link to a program. -/
def programLink (id : String) : Html :=
  markup "<a href=\"/ui/programs/" ++ url id ++ markup "\">" ++ text id ++ markup "</a>"

/-- A link to an execution. -/
def executionLink (e : Execution) (label : Html) : Html :=
  markup "<a href=\"/ui/executions/" ++ url (programIdOf e) ++ markup "/" ++ url (executionIdOf e)
    ++ markup "\">" ++ label ++ markup "</a>"

/-- A cell on a line of its own. -/
def cell (h : Html) : Html :=
  markup "      <td>" ++ h ++ markup "</td>\n"

/-- The cells on the progress of an execution. -/
def progressCells (now : Instant) (e : Execution) : Html :=
  cell (number e.steps) ++ cell (text (now.ago e.started))

/-- The rows of a store, on one line. -/
def storeRows (m : Memory) : Html :=
  concat (m.entries.map fun (x, v) =>
    markup "<tr><td>" ++ text x ++ markup "</td><td>" ++ text v.kind.name ++ markup "</td><td>"
      ++ text v.render ++ markup "</td></tr>")

/-- The table of a store. -/
def storeTable (m : Memory) : Html :=
  markup "  <table>\n    <tr><th>Variable</th><th>Type</th><th>Value</th></tr>\n    "
    ++ storeRows m ++ markup "\n  </table>\n"

/-- A JSON document with a line for each field. -/
def jsonText (s : String) : Html :=
  text (String.ofList (Json.indent s.toList))

/-- A row of the list of executions. -/
def executionRow (now : Instant) (e : Execution) : Html :=
  markup "\n    <tr>\n      " ++ stateCell e.state ++ markup "\n"
    ++ cell (programLink (programIdOf e))
    ++ cell (executionLink e (text (executionIdOf e)))
    ++ progressCells now e
    ++ cell (text (now.lasting e.started e.ended))
    ++ markup "    </tr>\n    "

/-- The contents of the list of executions: of one program, or of all. -/
def executionList (now : Instant) (program? : Option String) (executions : List Execution) : Html :=
  markup "\n"
    ++ (match program? with
      | some id => markup "\n<h1>Executions of " ++ programLink id ++ markup "</h1>\n"
      | Option.none => markup "\n<h1>Executions</h1>\n")
    ++ markup "\n\n<div class=\"card\">\n  "
    ++ (if executions.isEmpty then markup "\n  <p class=\"empty\">No executions found.</p>\n  "
      else
        markup "\n  <table>\n    <tr><th>State</th><th>Program</th><th>Execution</th><th>Steps</th>"
          ++ markup "<th>Started</th><th>Duration</th></tr>\n    "
          ++ concat (executions.map (executionRow now))
          ++ markup "\n  </table>\n  ")
    ++ markup "\n</div>\n"

/-- A heading with a JSON document under it, unless there is none. -/
def jsonSection (title s : String) : Html :=
  when (s != "") (markup ("\n<h2>" ++ title ++ "</h2>\n<pre>") ++ jsonText s ++ markup "</pre>\n")

/-- The failure of an execution. -/
def failureSection : Option ExecutionFailure → Html
  | Option.none => none
  | some f =>
    markup "\n<h2 class=\"error\">Error</h2>\n<pre>" ++ jsonText f.payload ++ markup "</pre>\n"
      ++ jsonSection "Store at failure" f.context ++ markup "\n"

/-- The contents of the page of an execution. While it runs, `live?` has its store and steps. -/
def executionDetail (now : Instant) (program id : String) (e : Execution)
    (live? : Option (Memory × Nat)) : Html :=
  markup "\n\n<h1>Execution " ++ text id
    ++ markup "</h1>\n<p class=\"muted\">\n  Program " ++ programLink program
    ++ markup "\n  &middot; revision " ++ text e.revision
    ++ markup "\n</p>\n\n<div class=\"card\">\n  <table>\n    <tr><th>State</th>" ++ stateCell e.state
    ++ markup "</tr>\n    <tr><th>Started</th><td>" ++ text e.started.render
    ++ markup "</td></tr>\n    <tr><th>Ended</th><td>" ++ text e.ended.render
    ++ markup "</td></tr>\n    <tr><th>Duration</th><td>" ++ text (now.lasting e.started e.ended)
    ++ markup "</td></tr>\n    <tr><th>Steps</th><td>"
    ++ number ((live?.map fun l => (l.2 : Int)).getD e.steps)
    ++ markup "</td></tr>\n  </table>\n  "
    ++ when (e.state == .active)
      (markup "\n  <form method=\"post\" action=\"/ui/executions/" ++ url program ++ markup "/"
        ++ url id ++ markup "/cancel\">\n    <p><button class=\"danger\" type=\"submit\">"
        ++ markup "Cancel Execution</button></p>\n  </form>\n  ")
    ++ markup "\n</div>\n\n"
    ++ (match live? with
      | some (m, _) =>
        markup "\n<h2>Live store</h2>\n<div class=\"card\">\n" ++ storeTable m ++ markup "</div>\n"
      | Option.none => none)
    ++ markup "\n\n" ++ jsonSection "Argument" e.argument
    ++ markup "\n\n" ++ jsonSection "Final store" e.result
    ++ markup "\n\n" ++ failureSection e.failure?
    ++ markup "\n\n"

end Html

end ImpHost
