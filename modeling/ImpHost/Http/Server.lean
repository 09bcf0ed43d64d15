import ImpHost.Http.Pages

/-!
The routes of the server, and the server as a function from requests to responses.
-/

namespace ImpHost.Http

/-- The path of the programs of a place. -/
def programsPath : Pattern :=
  [.fixed "/v1/projects/", .param, .fixed "/locations/", .param, .fixed "/workflows"]

/-- The path of a program. -/
def programPath : Pattern :=
  [.fixed "/v1/projects/", .param, .fixed "/locations/", .param, .fixed "/workflows/", .param]

/-- The path of the executions of a program. -/
def executionsPath : Pattern :=
  programPath ++ [.fixed "/executions"]

/-- The path of an execution. -/
def executionPath : Pattern :=
  programPath ++ [.fixed "/executions/", .param]

/-- The routes of the server. -/
def routes (scope : Html.Scope) : List (Route Service) := [
  ⟨"POST", programsPath, createProgram⟩,
  ⟨"GET", programPath, getProgram⟩,
  ⟨"GET", programsPath, listPrograms⟩,
  ⟨"PATCH", programPath, updateProgram⟩,
  ⟨"DELETE", programPath, deleteProgram⟩,
  ⟨"POST", executionsPath, createExecution⟩,
  ⟨"GET", executionPath, getExecution⟩,
  ⟨"GET", executionsPath, listExecutions⟩,
  ⟨"POST", executionPath ++ [.fixed ":cancel"], cancelExecution⟩,
  ⟨"POST", [.fixed "/v1/imp:run"], run⟩,
  ⟨"POST", [.fixed "/v1/imp:parse"], parse⟩,
  ⟨"GET", [.fixed "/ui"], dashboard scope⟩,
  ⟨"GET", [.fixed "/ui/programs"], programList scope⟩,
  ⟨"GET", [.fixed "/ui/programs/", .param], programDetail scope⟩,
  ⟨"POST", [.fixed "/ui/programs/", .param, .fixed "/execute"], executeProgram scope⟩,
  ⟨"GET", [.fixed "/ui/programs/", .param, .fixed "/executions"], executionList scope⟩,
  ⟨"GET", [.fixed "/ui/executions"], allExecutions scope⟩,
  ⟨"GET", [.fixed "/ui/executions/", .param, .fixed "/", .param], executionDetail scope⟩,
  ⟨"POST", [.fixed "/ui/executions/", .param, .fixed "/", .param, .fixed "/cancel"],
    cancelFromPage scope⟩,
  ⟨"GET", [.fixed "/ui/playground"], playground scope⟩,
  ⟨"POST", [.fixed "/ui/playground"], playground scope⟩,
  ⟨"GET", [.fixed "/"], fun s _ _ => (s, .redirect 302 "/ui")⟩]

/-- Answers a request. -/
def serve (scope : Html.Scope) (s : Service) (r : Request) : Service × Response :=
  dispatch (routes scope) s r

end ImpHost.Http
