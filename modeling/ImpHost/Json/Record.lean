import ImpHost.Json.Basic
import ImpHost.Text.Decimal
import ImpHost.Value

/-!
Reading records from JSON objects. Fields are matched by name in any case, and fields that the
record does not have are ignored. Each field of the object is applied in turn, so of several fields
with one name the last counts, and `null` leaves a field as it is.
-/

namespace ImpHost.Json

/-- The number of 64 bits that a decimal with an optional sign denotes. -/
def parseInt? (spelling : String) : Option Int :=
  let (negative, digits) := Text.takeSign spelling.toList
  if digits.isEmpty || !digits.all Text.isAsciiDigit then none
  else
    let n : Int := Text.digitsValue digits
    let n := if negative then -n else n
    if Value.minInt ≤ n ∧ n ≤ Value.maxInt then some n else none

/-- A character without its case. Beside the letters, the long s and the sign for kelvin stand for
the letters that they fold to. -/
def foldChar (c : Char) : Char :=
  if 'a' ≤ c ∧ c ≤ 'z' then Char.ofNat (c.toNat - 0x20)
  else if c.toNat = 0x17F then 'S'
  else if c.toNat = 0x212A then 'K'
  else c

/-- Whether `key` names the field `name`. -/
def names (name key : String) : Bool :=
  key == name || key.toList.map foldChar == name.toList.map foldChar

/-- The string in a field, over what it had. -/
def stringOver (old : String) : Json → Option String
  | .string s => some s
  | .null => some old
  | _ => none

/-- The integer in a field, over what it had. -/
def intOver (old : Int) : Json → Option Int
  | .number s => parseInt? s
  | .null => some old
  | _ => none

/-- Applies the fields of an object to a record in turn; none if one of them does not fit, or if
the value is no object. `null` is the empty object. -/
def record {α : Type} (apply : α → String → Json → Option α) (start : α) : Json → Option α
  | .object fields => fields.foldlM (fun r f => apply r f.1 f.2) start
  | .null => some start
  | _ => none

end ImpHost.Json
