import ImpHost.Json.Reader
import ImpHost.Memory.Basic
import ImpHost.Scalar
import ImpHost.Text.Basic

/-!
Stores as JSON objects. A store is written with its bindings in order. Reading one takes the first
JSON value of the text, and binds the names in byte order; of several fields with one name the last
counts. An empty text and `null` are the empty store.
-/

namespace ImpHost

/-- Why a text is no store. -/
inductive StoreError where
  /-- The text does not start with a JSON object. -/
  | notObject
  /-- The entry has no value of the language. -/
  | entry (name : String) (why : Diagnostic)
deriving DecidableEq

namespace StoreError

/-- The wording of the failure. -/
def message : StoreError → String
  | .notObject => "store must be a JSON object: malformed object"
  | .entry name why => "store entry " ++ Text.quoteString name ++ ": " ++ why.text

/-- The diagnostic behind the failure. -/
def report? : StoreError → Option Diagnostic
  | .notObject => none
  | .entry _ why => some why

end StoreError

/-- A text without the white space at its ends. -/
def trimSpace (cs : List Char) : List Char :=
  ((cs.dropWhile Text.isSpace).reverse.dropWhile Text.isSpace).reverse

namespace Value

/-- A value as JSON. -/
def toJson : Value → Json
  | .int n => .int n.toInt
  | .bool b => .bool b

/-- The value at the front of a text: none if there is no JSON value. -/
def ofJson? (text : Text) : Option (Except Diagnostic Value) :=
  (Json.first? text.chars).map fun v => (Scalar.ofJson v).toValue

end Value

namespace Memory

/-- The store as a JSON object. -/
def toJson (m : Memory) : Json :=
  .object (m.entries.map fun (x, v) => (x, v.toJson))

/-- The last of each run of fields with one name. -/
def lastOfEach : List (String × Json) → List (String × Json)
  | [] => []
  | [f] => [f]
  | f :: g :: rest => if f.1 = g.1 then lastOfEach (g :: rest) else f :: lastOfEach (g :: rest)

/-- The fields with their names in byte order, the last of each name. -/
def sortedFields (fields : List (String × Json)) : List (String × Json) :=
  lastOfEach (fields.mergeSort fun f g => !decide (g.1 < f.1))

/-- The store that the fields of an object denote. -/
def ofFields (fields : List (String × Json)) : Except StoreError Memory := do
  let entries ← (sortedFields fields).mapM fun (x, v) =>
    match (Scalar.ofJson v).toValue with
    | .ok v => .ok (x, v)
    | .error why => .error (.entry x why)
  return Table.ofList entries

/-- The store that a JSON value denotes. -/
def ofValue : Json → Except StoreError Memory
  | .null => .ok ∅
  | .object fields => ofFields fields
  | _ => .error .notObject

/-- The store that a text denotes. -/
def ofJson (text : Text) : Except StoreError Memory :=
  let cs := trimSpace text.chars
  if cs.isEmpty then .ok ∅
  else
    match Json.first? cs with
    | some v => ofValue v
    | none => .error .notObject

end Memory

end ImpHost
