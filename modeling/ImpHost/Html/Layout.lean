import ImpHost.Html.Basic

/-!
The frame that all pages share: the head with its style, the bar with the pages, and the place whose
programs are shown.
-/

namespace ImpHost.Html

/-- The pages of the bar. -/
inductive Section where
  | dashboard
  | programs
  | executions
  | playground
deriving DecidableEq

/-- The project and the location whose programs the pages show. -/
structure Scope where
  project : String
  location : String

/-- The head of a page. -/
def head : Html :=
  lines [
    "<!DOCTYPE html>",
    "<html lang=\"en\">",
    "<head>",
    "  <meta charset=\"utf-8\">",
    "  <meta name=\"viewport\" content=\"width=device-width, initial-scale=1\">",
    "  <title>IMP Interpreter</title>",
    "  <style>",
    "    * \x7b box-sizing: border-box; \x7d",
    "    body \x7b margin: 0; font-family: -apple-system, BlinkMacSystemFont, \"Segoe UI\", Roboto, sans-serif; background: #f6f7f9; color: #1f2328; \x7d",
    "    header \x7b background: #24292f; color: #fff; padding: 0 24px; display: flex; align-items: center; height: 52px; \x7d",
    "    header .brand \x7b font-weight: 700; font-size: 18px; margin-right: 32px; \x7d",
    "    header .brand span \x7b color: #7ee787; \x7d",
    "    header nav a \x7b color: #c9d1d9; text-decoration: none; margin-right: 20px; font-size: 14px; \x7d",
    "    header nav a.active, header nav a:hover \x7b color: #fff; \x7d",
    "    header .scope \x7b margin-left: auto; font-size: 12px; color: #8b949e; \x7d",
    "    main \x7b max-width: 1100px; margin: 24px auto; padding: 0 24px; \x7d",
    "    h1 \x7b font-size: 22px; margin: 0 0 16px; \x7d",
    "    h2 \x7b font-size: 16px; margin: 24px 0 8px; \x7d",
    "    .card \x7b background: #fff; border: 1px solid #d0d7de; border-radius: 6px; padding: 16px; margin-bottom: 16px; \x7d",
    "    .stats \x7b display: flex; gap: 16px; \x7d",
    "    .stat \x7b flex: 1; text-align: center; \x7d",
    "    .stat .num \x7b font-size: 28px; font-weight: 700; \x7d",
    "    .stat .label \x7b font-size: 12px; color: #57606a; text-transform: uppercase; \x7d",
    "    table \x7b width: 100%; border-collapse: collapse; font-size: 14px; \x7d",
    "    th, td \x7b text-align: left; padding: 8px; border-bottom: 1px solid #eaeef2; \x7d",
    "    th \x7b color: #57606a; font-weight: 600; \x7d",
    "    a \x7b color: #0969da; \x7d",
    "    pre \x7b background: #f6f8fa; border: 1px solid #d0d7de; border-radius: 6px; padding: 12px; overflow-x: auto; font-size: 13px; \x7d",
    "    textarea \x7b width: 100%; font-family: ui-monospace, SFMono-Regular, Menlo, monospace; font-size: 13px; padding: 8px; \x7d",
    "    button \x7b background: #2da44e; color: #fff; border: 0; border-radius: 6px; padding: 6px 14px; font-size: 14px; cursor: pointer; \x7d",
    "    button.danger \x7b background: #cf222e; \x7d",
    "    .muted \x7b color: #57606a; font-size: 13px; \x7d",
    "    .error \x7b color: #cf222e; \x7d",
    "    .state-active \x7b color: #0969da; \x7d",
    "    .state-succeeded \x7b color: #1a7f37; \x7d",
    "    .state-failed \x7b color: #cf222e; \x7d",
    "    .state-cancelled \x7b color: #57606a; \x7d",
    "    .empty \x7b color: #57606a; font-style: italic; \x7d",
    "  </style>",
    "</head>"]

/-- One page of the bar; the current one is marked. -/
def barItem (current : Option Section) (item : Section) (address title : String) : Html :=
  markup ("      <a href=\"" ++ address ++ "\" ")
    ++ when (current == some item) (markup "class=\"active\"")
    ++ markup (">" ++ title ++ "</a>\n")

/-- A page with the given contents. -/
def page (scope : Scope) (current : Option Section) (content : Html) : Html :=
  head
    ++ lines [
      "<body>",
      "  <header>",
      "    <div class=\"brand\">IMP <span>Interpreter</span></div>",
      "    <nav>"]
    ++ barItem current .dashboard "/ui" "Dashboard"
    ++ barItem current .programs "/ui/programs" "Programs"
    ++ barItem current .executions "/ui/executions" "Executions"
    ++ barItem current .playground "/ui/playground" "Playground"
    ++ markup "    </nav>\n    <div class=\"scope\">" ++ text scope.project ++ markup " / "
    ++ text scope.location
    ++ markup "</div>\n  </header>\n  <main>\n    " ++ content
    ++ lines ["", "  </main>", "</body>", "</html>", "", ""]

/-- The contents of the page for what does not exist. -/
def notFound (message : String) : Html :=
  markup "\n<h1>Not Found</h1>\n<div class=\"card\">\n  <p>" ++ text message
    ++ lines ["</p>", "  <p><a href=\"/ui\">Back to dashboard</a></p>", "</div>"]

end ImpHost.Html
