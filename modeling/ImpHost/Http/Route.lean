import ImpHost.Http.Basic

/-!
Routes. A pattern is made of fixed parts and parameters. Letters count without their case and
slashes at the end do not count; a parameter is never empty, and it ends where the fixed part after
it begins for the first time, or at the next slash.
-/

namespace ImpHost.Http

/-- A part of a pattern. -/
inductive Part where
  | fixed (s : String)
  | param
deriving DecidableEq

/-- A pattern of paths. -/
abbrev Pattern := List Part

namespace Pattern

/-- The position of the first occurrence of `mark`. -/
def indexOf? (mark : List Char) : (cs : List Char) → Option Nat
  | [] => none
  | c :: cs => if mark.isPrefixOf (c :: cs) then some 0 else (indexOf? mark cs).map (· + 1)

/-- A fixed part without slashes at its end, unless it is a slash alone. -/
def boundary (s : String) : List Char :=
  let cs := s.toList
  if cs.length ≤ 1 then cs else (cs.reverse.dropWhile (· == '/')).reverse

/-- How long the parameter at the front of `cs` is, in front of the parts `rest`. -/
def paramLength (cs : List Char) : Pattern → Nat
  | .fixed s :: _ =>
    match indexOf? (boundary s) cs with
    | some n => if 1 < (boundary s).length ∧ (cs.take n).contains '/' then 0 else n
    | none => cs.length
  | _ => (cs.takeWhile (· != '/')).length

/-- The parameters of a path, as they were sent: `cs` is the path in lower case without slashes at
its end, and `sent` the path itself. -/
def params? : Pattern → (cs sent : List Char) → Option (List String)
  | [], cs, _ => if cs.isEmpty then some [] else none
  | .fixed s :: rest, cs, sent =>
    if s.toList.isPrefixOf cs then params? rest (cs.drop s.length) (sent.drop s.length) else none
  | .param :: rest, cs, sent =>
    let n := paramLength cs rest
    if n = 0 then none
    else (params? rest (cs.drop n) (sent.drop n)).map (String.ofList (sent.take n) :: ·)

/-- The path in the form in which it is compared with patterns. -/
def comparable (path : List Char) : List Char :=
  let lower := path.map Char.toLower
  if lower.length ≤ 1 then lower else (lower.reverse.dropWhile (· == '/')).reverse

/-- The parameters of a path that fits the pattern. -/
def match? (p : Pattern) (path : String) : Option (List String) :=
  p.params? (comparable path.toList) path.toList

end Pattern

/-- A route: what is done for the paths that fit a pattern. -/
structure Route (σ : Type) where
  method : String
  pattern : Pattern
  handle : σ → Request → List String → σ × Response

/-- The methods that requests can have. -/
def methods : List String :=
  ["GET", "HEAD", "POST", "PUT", "DELETE", "CONNECT", "OPTIONS", "TRACE", "PATCH"]

/-- The methods that a route answers. Whatever answers `GET` answers `HEAD` too. -/
def Route.answers {σ : Type} (route : Route σ) (method : String) : Bool :=
  route.method == method || (route.method == "GET" && method == "HEAD")

/-- A path in messages that may be shown as HTML. -/
def shownPath (path : String) : String :=
  String.ofList (path.toList.flatMap fun c =>
    if c == '+' || c.toNat == 0 then [c] else Html.escaped c)

/-- The response to a path that no route has. -/
def noRoute (r : Request) : Response :=
  .of 404 (.plain ("Cannot " ++ r.method ++ " " ++ shownPath r.path))

/-- Answers a request by the first route that fits. -/
def dispatch {σ : Type} (routes : List (Route σ)) (s : σ) (r : Request) : σ × Response :=
  if !methods.contains r.method then (s, .of 400 (.plain "Invalid http method"))
  else
    let found := routes.findSome? fun route =>
      if route.answers r.method then (route.pattern.match? r.path).map fun ps => (route, ps)
      else none
    let (s, response) := match found with
      | some (route, ps) => route.handle s r ps
      | none =>
        if routes.any fun route => (route.pattern.match? r.path).isSome then
          (s, .of 405 (.plain "Method Not Allowed"))
        else (s, noRoute r)
    (s, if r.method == "HEAD" then response.withoutBody else response)

end ImpHost.Http
