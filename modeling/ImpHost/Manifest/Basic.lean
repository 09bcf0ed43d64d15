import ImpHost.Memory.Json
import ImpHost.Problem
import ImpHost.Program.Parser
import ImpHost.Yaml.Node

/-!
Manifests: deployable programs with a name, a description and an initial store. A manifest is
written as a YAML mapping whose field `source` holds the program, or it is the bare source of a
program. `Manifest.ofText` tells the two forms apart.
-/

namespace ImpHost

/-- Why a scalar of a document is no value of the language. -/
inductive ValueError where
  /-- It is no scalar at all. -/
  | collection
  /-- The integer is beyond 64 bits, or is no integer although its tag says so. -/
  | outOfRange (text : String)
  /-- The number is no integer. -/
  | fraction (text : String)
  /-- The scalar is something else. -/
  | other (text : String)
  /-- The scalar denotes something with the tag `found`, but has the tag `wanted`. -/
  | mismatch (found wanted text : String)
deriving DecidableEq

namespace ValueError

/-- What values have to be, in messages. -/
def expected : String := "expected an integer or boolean, found "

/-- The problem with the scalar. -/
def problem : ValueError → Problem
  | .collection => .ofDiagnostic (.type (expected ++ "a collection"))
  | .outOfRange text => .ofDiagnostic (.type ("integer " ++ text ++ " out of range"))
  | .fraction text => .ofDiagnostic (.type (expected ++ text))
  | .other text => .ofDiagnostic (.type (expected ++ Text.quoteString text))
  | .mismatch found wanted text =>
    .plain ("yaml: cannot decode " ++ found ++ " \x60" ++ text ++ "\x60 as a " ++ wanted)

end ValueError

/-- The value that a scalar denotes. Its tag says what it has to be. -/
def Value.ofLeaf (leaf : Yaml.Leaf) : Except ValueError Value :=
  let r := Yaml.resolve leaf.text
  if leaf.tag = Yaml.Tag.bool then
    match r with
    | .bool b => .ok (.bool b)
    | r => .error (.mismatch r.tag leaf.tag leaf.text)
  else if leaf.tag = Yaml.Tag.int then
    match r with
    | .int n =>
      match Value.ofInt? n with
      | some v => .ok v
      | none => .error (.outOfRange leaf.text)
    | _ => .error (.outOfRange leaf.text)
  else if leaf.tag = Yaml.Tag.float then
    let number (d : Double) : Except ValueError Value :=
      match d.toInt?.bind Value.ofInt? with
      | some v => .ok v
      | none => .error (.fraction leaf.text)
    match r with
    | .float d => number d
    | .int n =>
      if (Value.ofInt? n).isSome then number (.ofInt n)
      else .error (.mismatch r.tag leaf.tag leaf.text)
    | r => .error (.mismatch r.tag leaf.tag leaf.text)
  else .error (.other leaf.text)

/-- The value that a tree denotes. -/
def Value.ofNode : Yaml.Node → Except ValueError Value
  | .scalar leaf => ofLeaf leaf
  | .alias _ (some leaf) => ofLeaf leaf
  | _ => .error .collection

/-- The value that a text denotes as a YAML document. -/
def Value.ofYaml (text : Text) : Except Problem Value :=
  match Yaml.parse text with
  | .error fault => .error (.plain ("invalid value " ++ text.quote ++ ": " ++ fault.message))
  | .ok none => .error (.plain "empty value")
  | .ok (some root) => (ofNode root).mapError ValueError.problem

/-- A deployable program. -/
structure Manifest where
  name : Text
  description : Text
  /-- The initial store, in document order. -/
  store : Memory
  source : Text
  /-- What `source` spells. -/
  program : Command

/-- Why a text is no manifest. -/
inductive ManifestError where
  | tooLarge (size : Nat)
  | malformed (fault : Yaml.Fault)
  | noDocument
  | notMapping
  /-- The field has to be a scalar. -/
  | notText (field : String)
  | unknownField (field : String)
  | noSource
  | source (why : ParseError)
  | storeNotMapping
  | duplicate (name : String)
  | entry (name : String) (why : ValueError)
deriving DecidableEq

namespace ManifestError

/-- Where in the manifest the fault is. -/
def location : ManifestError → String
  | .notText field => "'" ++ field ++ "'"
  | .source _ => "'source'"
  | .storeNotMapping => "'store'"
  | .duplicate name | .entry name _ => "store entry '" ++ name ++ "'"
  | _ => ""

/-- What the fault is. -/
def reason : ManifestError → String
  | .tooLarge size =>
    "manifest size " ++ toString size ++ " exceeds maximum " ++ toString maxSourceSize ++ " bytes"
  | .malformed fault => "invalid YAML: " ++ fault.message
  | .noDocument => "empty manifest"
  | .notMapping => "manifest must be a mapping"
  | .notText _ => "must be a string"
  | .unknownField field => "unknown field " ++ Text.quoteString field
  | .noSource => "'source' is required"
  | .source why => why.report.text
  | .storeNotMapping => "must be a mapping of variable names to values"
  | .duplicate _ => "duplicate variable"
  | .entry _ why => why.problem.message

/-- The diagnostic behind the fault. -/
def diagnostic? : ManifestError → Option Diagnostic
  | .source why => some why.report
  | .entry _ why => why.problem.diagnostic?
  | _ => none

/-- The problem with the text. -/
def problem (e : ManifestError) : Problem :=
  let front :=
    if e.location = "" then "manifest error: " else "manifest error at " ++ e.location ++ ": "
  ⟨front ++ e.reason, some e.location, e.diagnostic?, none⟩

end ManifestError

/-- Why a text is no program in either form. -/
inductive SourceError where
  | manifest (e : ManifestError)
  | bare (e : ParseError)
deriving DecidableEq

/-- The problem with the text. -/
def SourceError.problem : SourceError → Problem
  | .manifest e => e.problem
  | .bare e => .ofDiagnostic e.report

namespace Manifest

/-- Binds the entries of a mapping in document order. -/
def storeOfEntries (m : Memory) : List (Yaml.Node × Yaml.Node) → Except ManifestError Memory
  | [] => .ok m
  | (key, v) :: rest =>
    if (m.get? key.text).isSome then .error (.duplicate key.text)
    else
      match Value.ofNode v with
      | .error why => .error (.entry key.text why)
      | .ok v => storeOfEntries (m.set key.text v) rest

/-- The store that a tree denotes. -/
def storeOfNode : Yaml.Node → Except ManifestError Memory
  | .mapping entries => storeOfEntries ∅ entries
  | .scalar leaf => if leaf.tag = Yaml.Tag.null then .ok ∅ else .error .storeNotMapping
  | _ => .error .storeNotMapping

/-- The fields of a manifest. -/
structure Fields where
  name : String
  description : String
  source : String
  store : Memory

/-- The text of a field. -/
def fieldText (field : String) : Yaml.Node → Except ManifestError String
  | .scalar leaf => .ok leaf.text
  | _ => .error (.notText field)

/-- Reads one field. -/
def Fields.apply (f : Fields) (key : String) (v : Yaml.Node) : Except ManifestError Fields :=
  match key with
  | "name" => return { f with name := ← fieldText key v }
  | "description" => return { f with description := ← fieldText key v }
  | "source" => return { f with source := ← fieldText key v }
  | "store" => return { f with store := ← storeOfNode v }
  | key => .error (.unknownField key)

/-- The manifest with the given fields. -/
def ofFields (f : Fields) : Except ManifestError Manifest :=
  if (trimSpace f.source.toList).isEmpty then .error .noSource
  else
    match Command.parse f.source with
    | .error why => .error (.source why)
    | .ok program => .ok ⟨f.name, f.description, f.store, f.source, program⟩

/-- The manifest that a YAML document spells. -/
def ofYaml (text : Text) : Except ManifestError Manifest :=
  if maxSourceSize < text.size then .error (.tooLarge text.size)
  else
    match Yaml.parse text with
    | .error fault => .error (.malformed fault)
    | .ok none => .error .noDocument
    | .ok (some (.mapping entries)) => do
      let fields ← entries.foldlM (fun f e => f.apply e.1.text e.2) ⟨"", "", "", ∅⟩
      ofFields fields
    | .ok (some _) => .error .notMapping

/-- The manifest of bare source, with an empty store. -/
def ofSource (name source : Text) : Except ParseError Manifest := do
  let program ← Command.parse source
  return ⟨name, ∅, ∅, source, program⟩

/-- Whether a text is a mapping with a field `source`, as a manifest is and bare source is not. -/
def isManifest (text : Text) : Bool :=
  match Yaml.parse text with
  | .ok (some (.mapping entries)) => entries.any fun e => e.1.text == "source"
  | _ => false

/-- The same manifest with a name, if it has none. -/
def named (name : Text) (m : Manifest) : Manifest :=
  if m.name.isEmpty then { m with name } else m

/-- The program that a text in either form spells. -/
def ofText (name text : Text) : Except SourceError Manifest :=
  if isManifest text then ((ofYaml text).map (named name)).mapError .manifest
  else (ofSource name text).mapError .bare

/-- The store of an execution: the initial store, with the argument over it. -/
def initialStore (m : Manifest) (argument : Text) : Except Problem Memory :=
  match Memory.ofJson argument with
  | .ok args => .ok (m.store.merge args)
  | .error why =>
    .error (.refused .invalidArgument ("invalid argument: invalid argument JSON: " ++ why.message))

end Manifest

end ImpHost
