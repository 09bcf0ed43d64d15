import ImpHost.Json.Reader
import ImpHost.Json.Record
import ImpHost.Registry.Record

/-!
Records as JSON objects, the form in which a database keeps them. What is empty may be left out,
and what is left out is read as empty.
-/

namespace ImpHost

namespace Json

/-- A field that is left out if its text is empty. -/
def unlessEmpty (key s : String) : List (String × Json) :=
  if s = "" then [] else [(key, .string s)]

/-- The moment in a field, over what it had. -/
def instantOver (old : Instant) : Json → Option Instant
  | .string s => Instant.parse? s.toList
  | .null => some old
  | _ => none

/-- The text in a field, over what it had. -/
def textOver (old : Text) : Json → Option Text
  | .string s => some s
  | .null => some old
  | _ => none

end Json

namespace Labels

/-- The labels as fields, in byte order of their names. -/
def fields (l : Labels) : List (String × Json) :=
  (l.entries.mergeSort fun a b => !decide (b.1 < a.1)).map fun (k, v) => (k, .string v)

/-- Adds one label. -/
def applyField (l : Labels) (key : String) (v : Json) : Option Labels :=
  (v.stringOver "").map (l.set key)

/-- The labels in a field, over what it had. -/
def replacing (old : Option Labels) : Json → Option (Option Labels)
  | .null => some none
  | v => (Json.record applyField (old.getD ∅) v).map some

end Labels

namespace Deployment

/-- The record as JSON. -/
def toJson (p : Deployment) : Json :=
  .object ([("name", .string p.name)]
    ++ (if p.description.isEmpty then [] else [("description", .bytes p.description)])
    ++ [("state", .string p.state.name), ("revisionId", .string p.revision),
      ("createTime", .string p.created.exactStamp), ("updateTime", .string p.updated.exactStamp),
      ("sourceContents", .bytes p.source)]
    ++ (match p.labels with
      | some l => if l.entries.isEmpty then [] else [("labels", .object (Labels.fields l))]
      | none => []))

/-- The record as a database keeps it. -/
def encode (p : Deployment) : Text :=
  p.toJson.render

/-- The record of an object without fields. -/
def blank : Deployment :=
  ⟨"", ∅, .other "", "", .unset, .unset, ∅, none⟩

/-- Applies a field of a record. -/
def applyField (p : Deployment) (key : String) (v : Json) : Option Deployment :=
  if Json.names "name" key then (v.stringOver p.name).map fun s => { p with name := s }
  else if Json.names "description" key then
    (v.textOver p.description).map fun t => { p with description := t }
  else if Json.names "state" key then
    (v.stringOver p.state.name).map fun s => { p with state := .ofName s }
  else if Json.names "revisionId" key then
    (v.stringOver p.revision).map fun s => { p with revision := s }
  else if Json.names "createTime" key then
    (v.instantOver p.created).map fun t => { p with created := t }
  else if Json.names "updateTime" key then
    (v.instantOver p.updated).map fun t => { p with updated := t }
  else if Json.names "sourceContents" key then
    (v.textOver p.source).map fun t => { p with source := t }
  else if Json.names "labels" key then
    (Labels.replacing p.labels v).map fun l => { p with labels := l }
  else some p

/-- The record that a database keeps as `text`. -/
def decode? (text : Text) : Option Deployment :=
  (Json.parse? text.chars).bind (Json.record applyField blank)

end Deployment

namespace ExecutionFailure

/-- The failure as JSON. -/
def toJson (f : ExecutionFailure) : Json :=
  .object ([("payload", .string f.payload)] ++ Json.unlessEmpty "context" f.context)

/-- Applies a field of a failure. -/
def applyField (f : ExecutionFailure) (key : String) (v : Json) : Option ExecutionFailure :=
  if Json.names "payload" key then (v.stringOver f.payload).map fun s => { f with payload := s }
  else if Json.names "context" key then
    (v.stringOver f.context).map fun s => { f with context := s }
  else some f

/-- The failure in a field, over what it had. -/
def replacing (old : Option ExecutionFailure) : Json → Option (Option ExecutionFailure)
  | .null => some none
  | v => (Json.record applyField (old.getD ⟨"", ""⟩) v).map some

end ExecutionFailure

namespace Execution

/-- The record as JSON. -/
def toJson (e : Execution) : Json :=
  .object ([("name", .string e.name), ("state", .string e.state.name)]
    ++ Json.unlessEmpty "argument" e.argument
    ++ Json.unlessEmpty "result" e.result
    ++ (match e.failure? with
      | some f => [("error", f.toJson)]
      | none => [])
    ++ [("startTime", .string e.started.exactStamp), ("endTime", .string e.ended.exactStamp),
      ("workflowRevisionId", .string e.revision), ("steps", .int e.steps)])

/-- The record as a database keeps it. -/
def encode (e : Execution) : Text :=
  e.toJson.render

/-- The record of an object without fields. -/
def blank : Execution :=
  ⟨"", .other "", "", "", none, .unset, .unset, "", 0⟩

/-- Applies a field of a record. -/
def applyField (e : Execution) (key : String) (v : Json) : Option Execution :=
  if Json.names "name" key then (v.stringOver e.name).map fun s => { e with name := s }
  else if Json.names "state" key then
    (v.stringOver e.state.name).map fun s => { e with state := .ofName s }
  else if Json.names "argument" key then
    (v.stringOver e.argument).map fun s => { e with argument := s }
  else if Json.names "result" key then
    (v.stringOver e.result).map fun s => { e with result := s }
  else if Json.names "error" key then
    (ExecutionFailure.replacing e.failure? v).map fun f => { e with failure? := f }
  else if Json.names "startTime" key then
    (v.instantOver e.started).map fun t => { e with started := t }
  else if Json.names "endTime" key then
    (v.instantOver e.ended).map fun t => { e with ended := t }
  else if Json.names "workflowRevisionId" key then
    (v.stringOver e.revision).map fun s => { e with revision := s }
  else if Json.names "steps" key then (v.intOver e.steps).map fun n => { e with steps := n }
  else some e

/-- The record that a database keeps as `text`. -/
def decode? (text : Text) : Option Execution :=
  (Json.parse? text.chars).bind (Json.record applyField blank)

end Execution

end ImpHost
