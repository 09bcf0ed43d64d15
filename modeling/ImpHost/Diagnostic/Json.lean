import ImpHost.Diagnostic.Basic
import ImpHost.Json.Reader
import ImpHost.Json.Record
import ImpHost.Text.Basic

/-!
Diagnostics as JSON objects, the payload of a failed execution. A position of zero and an empty
name are left out, and what is left out is read as zero or empty.
-/

namespace ImpHost

/-- Why a text is no payload. -/
inductive PayloadError where
  /-- The text is no JSON object with fields of the right kind. -/
  | malformed
  /-- The kind is missing. -/
  | noKind
deriving DecidableEq

namespace Diagnostic

/-- The payload. -/
def toJson (d : Diagnostic) : Json :=
  .object ([("kind", .string d.kind), ("message", .string d.message)]
    ++ (if d.pos = 0 then [] else [("position", .int d.pos)])
    ++ (if d.name = "" then [] else [("name", .string d.name)]))

/-- The text of the payload. -/
def payload (d : Diagnostic) : String :=
  d.toJson.render

/-- Applies a field of a payload. -/
def applyField (d : Diagnostic) (key : String) (v : Json) : Option Diagnostic :=
  if Json.names "kind" key then (v.stringOver d.kind).map fun s => { d with kind := s }
  else if Json.names "message" key then
    (v.stringOver d.message).map fun s => { d with message := s }
  else if Json.names "position" key then (v.intOver d.pos).map fun n => { d with pos := n }
  else if Json.names "name" key then (v.stringOver d.name).map fun s => { d with name := s }
  else some d

/-- The diagnostic of a payload. -/
def ofPayload (text : Text) : Except PayloadError Diagnostic :=
  match (Json.parse? text.chars).bind (Json.record applyField ⟨"", "", 0, ""⟩) with
  | none => .error .malformed
  | some d => if d.kind = "" then .error .noKind else .ok d

end Diagnostic

end ImpHost
