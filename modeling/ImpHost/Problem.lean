import ImpHost.Diagnostic.Basic

/-!
Problems: what the failure of a request tells whoever made it. A problem has a message; it may have
a diagnostic of the interpreter behind it, a place in a manifest, or the reason for which the
request was refused. `Problem.code` sorts problems for the protocols that carry them.
-/

namespace ImpHost

/-- Reasons to refuse a request. -/
inductive Refusal where
  /-- The request itself is malformed. -/
  | invalidArgument
  /-- What it names does not exist. -/
  | notFound
  /-- What it creates exists already. -/
  | alreadyExists
  /-- The execution that it is about has ended. -/
  | notActive
deriving DecidableEq

/-- The name of a reason. -/
def Refusal.name : Refusal → String
  | .invalidArgument => "InvalidArgument"
  | .notFound => "NotFound"
  | .alreadyExists => "AlreadyExists"
  | .notActive => "NotActive"

/-- Sorts of problems, as protocols know them. -/
inductive Code where
  | invalidArgument
  | failedPrecondition
  | notFound
  | alreadyExists
  | resourceExhausted
  | canceled
  | internal
deriving DecidableEq

/-- The name of a sort. -/
def Code.name : Code → String
  | .invalidArgument => "InvalidArgument"
  | .failedPrecondition => "FailedPrecondition"
  | .notFound => "NotFound"
  | .alreadyExists => "AlreadyExists"
  | .resourceExhausted => "ResourceExhausted"
  | .canceled => "Canceled"
  | .internal => "Internal"

/-- What a failure tells. -/
structure Problem where
  message : String
  /-- The place in a manifest, which is empty for the manifest as a whole. -/
  location? : Option String
  /-- The diagnostic behind the failure. -/
  diagnostic? : Option Diagnostic
  refusal? : Option Refusal
deriving DecidableEq, Inhabited

namespace Problem

/-- A problem with nothing but a message. -/
def plain (message : String) : Problem :=
  ⟨message, none, none, none⟩

/-- A diagnostic as a problem. -/
def ofDiagnostic (d : Diagnostic) : Problem :=
  ⟨d.text, none, some d, none⟩

/-- A refusal. -/
def refused (why : Refusal) (message : String) : Problem :=
  ⟨message, none, none, some why⟩

/-- The same problem, with what was being done in front of its message. -/
def whileDoing (what : String) (p : Problem) : Problem :=
  { p with message := what ++ ": " ++ p.message }

/-- The sort of a diagnostic. -/
def codeOfDiagnostic (d : Diagnostic) : Code :=
  if d.isStatic then .invalidArgument
  else if d.kind = Diagnostic.Kind.cancelled then .canceled
  else if d.kind = Diagnostic.Kind.limit then .resourceExhausted
  else .failedPrecondition

/-- The sort of a problem. A diagnostic decides it; otherwise a fault of a manifest counts as a
malformed request. -/
def code (p : Problem) : Code :=
  match p.diagnostic? with
  | some d => codeOfDiagnostic d
  | none =>
    if p.location?.isSome then .invalidArgument
    else
      match p.refusal? with
      | some .invalidArgument => .invalidArgument
      | some .notFound => .notFound
      | some .alreadyExists => .alreadyExists
      | some .notActive => .failedPrecondition
      | none => .internal

/-- The name under which a problem is reported. -/
def name (p : Problem) : String :=
  if p.location?.isSome then "ParseError"
  else
    match p.diagnostic?, p.refusal? with
    | some d, _ => d.kind
    | none, some why => why.name
    | none, none => "Error"

end Problem

end ImpHost
