import ImpHost.Diagnostic.Json
import ImpHost.Engine
import ImpHost.Proofs.Json.Numbers
import ImpHost.Proofs.Text
import ImpHost.Registry.Basic

/-!
Diagnostics are read from their payloads.

A payload is read field by field, and a field that is left out is one that would change nothing
(`Diagnostic.record_fields`). So a diagnostic of any kind and at any position of 64 bits comes back
(`Diagnostic.ofPayload_payload`), and with it what an engine returns (`Failure.ofPayload_payload`).
-/

namespace ImpHost

namespace Diagnostic

open Json

/-! ## The payload -/

/-- The fields of a payload. -/
def fields (d : Diagnostic) : List (String × Json) :=
  [("kind", .string d.kind), ("message", .string d.message)]
    ++ (if d.pos = 0 then [] else [("position", .int d.pos)])
    ++ (if d.name = "" then [] else [("name", .string d.name)])

theorem readInObject_field {d : Diagnostic} {field : String × Json} (member : field ∈ d.fields)
    (depth : Nat) : ReadInObject depth field.2 field.2 := by
  simp only [fields, List.mem_append, List.mem_cons, List.not_mem_nil, or_false] at member
  rcases member with ((rfl | rfl) | position) | name
  · exact (readAs_string _).inObject
  · exact (readAs_string _).inObject
  · split at position
    · cases position
    · cases List.mem_singleton.1 position
      exact readInObject_int depth d.pos
  · split at name
    · cases name
    · cases List.mem_singleton.1 name
      exact (readAs_string _).inObject

/-- A payload is read as the object that it is written from. -/
theorem parse?_payload (d : Diagnostic) :
    Json.parse? (Text.ofString d.payload).chars = some (.object d.fields) := by
  have whole := ReadAs.object (f := id) fun _ member => readInObject_field (d := d) member 9999
  have same : d.fields.map (fun field => (field.1, id field.2)) = d.fields := List.map_id _
  rw [same] at whole
  rw [Text.chars_ofString, payload, render, String.toList_ofList]
  exact parse?_of_readAs whole

/-- An integer of 64 bits is read from its field. -/
theorem intOver_int {n : Int} (low : Value.minInt ≤ n) (high : n ≤ Value.maxInt) (old : Int) :
    intOver old (.int n) = some n := by
  have spelled : (Numeral.ofInt n).SpellsInt64 := by
    rw [Numeral.SpellsInt64, Numeral.toInt_ofInt]
    exact ⟨rfl, rfl, low, high⟩
  rw [Json.int, intOver, ← Numeral.spelled_ofInt, Numeral.parseInt?_spelled, if_pos spelled,
    Numeral.toInt_ofInt]

/-- The fields of a payload are applied one after the other. A field that is left out is one that
would change nothing. -/
theorem record_fields {d : Diagnostic} (low : Value.minInt ≤ d.pos) (high : d.pos ≤ Value.maxInt) :
    (Json.object d.fields).record applyField ⟨"", "", 0, ""⟩ = some d := by
  obtain ⟨kind, message, pos, name⟩ := d
  have position : (if pos = 0 then [] else [("position", Json.int pos)]).foldlM
      (fun d f => applyField d f.1 f.2) ⟨kind, message, 0, ""⟩ = some ⟨kind, message, pos, ""⟩ := by
    split
    · next zero =>
      rw [zero]
      rfl
    · have applied : applyField ⟨kind, message, 0, ""⟩ "position" (.int pos) =
          (intOver 0 (.int pos)).map fun n => ⟨kind, message, n, ""⟩ := rfl
      rw [List.foldlM_cons, applied, intOver_int low high]
      rfl
  have named : (if name = "" then [] else [("name", Json.string name)]).foldlM
      (fun d f => applyField d f.1 f.2) ⟨kind, message, pos, ""⟩ =
        some ⟨kind, message, pos, name⟩ := by
    split
    · next empty =>
      rw [empty]
      rfl
    · have applied : applyField ⟨kind, message, pos, ""⟩ "name" (.string name) =
          some ⟨kind, message, pos, name⟩ := rfl
      rw [List.foldlM_cons, applied]
      rfl
  have first : [("kind", Json.string kind), ("message", Json.string message)].foldlM
      (fun d f => applyField d f.1 f.2) ⟨"", "", 0, ""⟩ = some ⟨kind, message, 0, ""⟩ := by
    have kindApplied : applyField ⟨"", "", 0, ""⟩ "kind" (.string kind) =
        some ⟨kind, "", 0, ""⟩ := rfl
    have messageApplied : applyField ⟨kind, "", 0, ""⟩ "message" (.string message) =
        some ⟨kind, message, 0, ""⟩ := rfl
    rw [List.foldlM_cons, kindApplied, Option.bind_eq_bind, Option.bind_some, List.foldlM_cons,
      messageApplied]
    rfl
  simp only [Json.record, fields]
  rw [List.foldlM_append, List.foldlM_append, first]
  exact (congrArg (· >>= _) position).trans named

/-- A diagnostic is read from its payload. -/
theorem ofPayload_payload {d : Diagnostic} (kind : d.kind ≠ "") (low : Value.minInt ≤ d.pos)
    (high : d.pos ≤ Value.maxInt) : ofPayload d.payload = .ok d := by
  rw [ofPayload, parse?_payload, Option.bind_some, record_fields low high]
  exact if_neg kind

end Diagnostic

/-- The kinds of what an engine returns. -/
def Diagnostic.Kind.ofRuns : List String :=
  [unbound, type, limit, cancelled]

/-- What an engine returns is of one of these kinds, and at no position. -/
theorem Failure.kind_mem_and_pos_eq {why : Failure Interruption} {d : Diagnostic}
    (told : why.problem.diagnostic? = some d) : d.kind ∈ Diagnostic.Kind.ofRuns ∧ d.pos = 0 := by
  cases why with
  | host interruption =>
    cases told
    cases interruption with
    | context | cancelled => exact ⟨by simp [Diagnostic.Kind.ofRuns, Interruption.report,
        Diagnostic.cancelled], rfl⟩
    | limit => exact ⟨by simp [Diagnostic.Kind.ofRuns, Interruption.report, Diagnostic.limit], rfl⟩
  | program e =>
    cases e with
    | unbound =>
      cases told
      exact ⟨by simp [Diagnostic.Kind.ofRuns, Diagnostic.unbound], rfl⟩
    | operands =>
      cases told
      exact ⟨by simp [Diagnostic.Kind.ofRuns, Diagnostic.type], rfl⟩
    | hole | operator => cases told

/-- What an engine returns is read from what is recorded of it. -/
theorem Failure.ofPayload_payload {why : Failure Interruption} {d : Diagnostic}
    (told : why.problem.diagnostic? = some d) :
    Diagnostic.ofPayload (Registry.payload why.problem) = .ok d := by
  obtain ⟨kind, pos⟩ := kind_mem_and_pos_eq told
  have named : d.kind ≠ "" := fun empty => absurd (empty ▸ kind) (by decide)
  rw [Registry.payload, told]
  exact Diagnostic.ofPayload_payload named (by rw [pos]; decide) (by rw [pos]; decide)

end ImpHost
