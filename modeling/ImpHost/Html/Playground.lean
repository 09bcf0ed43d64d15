import ImpHost.Html.Programs

/-!
The playground: a form for source and a store, and what running them came to.
-/

namespace ImpHost.Html

/-- What running the contents of the playground came to. -/
structure PlaygroundRun where
  /-- The store that was left and the steps made, if the source was run. -/
  result? : Option (Memory × Nat)
  /-- The source in its standard layout; empty if it is no program. -/
  formatted : String
  /-- Why the run failed; empty if it did not. -/
  error : String

/-- The store that a run left. -/
def resultSection (error : String) : Option (Memory × Nat) → Html
  | Option.none => none
  | some (m, steps) =>
    markup ("\n<h2>" ++ (if error = "" then "Final store" else "Store at failure") ++ " (")
      ++ number steps ++ markup " steps)</h2>\n<div class=\"card\">\n  "
      ++ (if m.entries.isEmpty then markup "\n  <p class=\"empty\">The store is empty.</p>\n  "
        else markup "\n" ++ storeTable m ++ markup "  ")
      ++ markup "\n</div>\n"

/-- What a run came to. -/
def runSection : Option PlaygroundRun → Html
  | Option.none => none
  | some run =>
    markup "\n"
      ++ when (run.error != "")
        (markup "\n<h2 class=\"error\">Error</h2>\n<pre class=\"error\">" ++ text run.error
          ++ markup "</pre>\n")
      ++ markup "\n\n" ++ resultSection run.error run.result?
      ++ markup "\n\n" ++ formattedSection run.formatted
      ++ markup "\n"

/-- The contents of the playground. -/
def playground (source store : String) (run? : Option PlaygroundRun) : Html :=
  lines [
    "",
    "",
    "<h1>Playground</h1>",
    "",
    "<div class=\"card\">",
    "  <form method=\"post\" action=\"/ui/playground\">",
    "    <label class=\"muted\" for=\"source\">Source</label>"]
    ++ markup "    <textarea id=\"source\" name=\"source\" rows=\"10\" "
    ++ markup "placeholder=\"x := 1; while (x <= 100) do x := (x * 2) end\">" ++ text source
    ++ markup "</textarea>\n    <label class=\"muted\" for=\"store\">Initial store (JSON object)</label>\n"
    ++ markup "    <textarea id=\"store\" name=\"store\" rows=\"2\" placeholder='\x7b\"n\": 10\x7d'>"
    ++ text store
    ++ lines [
      "</textarea>",
      "    <p><button type=\"submit\">Run</button></p>",
      "  </form>",
      "</div>",
      ""]
    ++ runSection run? ++ markup "\n\n"

end ImpHost.Html
