import ImpHost.Diagnostic.Basic
import ImpHost.Double.Shortest
import ImpHost.Json.Record
import ImpHost.Value

/-!
Values from documents. Only booleans and integers are values of the language; a number that a
document gives in double precision counts as an integer if it is one.
-/

namespace ImpHost

/-- What a document can give for a value. -/
inductive Scalar where
  | null
  | bool (b : Bool)
  | int (n : Int)
  | float (d : Double)
  /-- A number as it is spelled. -/
  | number (spelling : String)
  | string
  | list
  | map
deriving DecidableEq

namespace Scalar

/-- A failure to be a value of the language. -/
def unsupported (sort : String) : Except Diagnostic Value :=
  .error (.type ("unsupported value of type " ++ sort ++ " (want int or bool)"))

/-- The value that a scalar denotes. -/
def toValue : Scalar → Except Diagnostic Value
  | .bool b => .ok (.bool b)
  | .int n =>
    match Value.ofInt? n with
    | some v => .ok v
    | none => .error (.type ("integer " ++ toString n ++ " out of range"))
  | .float d =>
    match d.toInt?.bind Value.ofInt? with
    | some v => .ok v
    | none => .error (.type ("value " ++ d.render ++ " is not an integer"))
  | .number s =>
    match (Json.parseInt? s).bind Value.ofInt? with
    | some v => .ok v
    | none => .error (.type ("value " ++ s ++ " is not an integer"))
  | .null => .error (.type "null is not an IMP value")
  | .string => unsupported "string"
  | .list => unsupported "[]interface \x7b\x7d"
  | .map => unsupported "map[string]interface \x7b\x7d"

/-- What a JSON value gives for a value. -/
def ofJson : Json → Scalar
  | .null => .null
  | .bool b => .bool b
  | .number s => .number s
  | .string _ => .string
  | .bytes _ => .string
  | .array _ => .list
  | .object _ => .map

end Scalar

end ImpHost
