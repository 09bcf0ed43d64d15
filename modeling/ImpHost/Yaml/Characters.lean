import ImpHost.Text.Basic

/-!
The characters of a YAML document. A byte order mark at the front decides how the bytes are read:
UTF-16 in either order, or UTF-8, which is also what is read without a mark. Controls other than
tabs and line breaks are not allowed.
-/

namespace ImpHost.Yaml

/-- Why a text is no YAML document. -/
inductive Fault where
  /-- The bytes are no characters. -/
  | encoding
  /-- A character that no document may have. -/
  | control
  /-- The characters are no tokens, or the tokens no document. -/
  | malformed (problem : String)
  /-- An alias of an anchor that is not there. -/
  | unknownAnchor (name : String)
deriving DecidableEq

/-- The wording of a fault. -/
def Fault.message : Fault → String
  | .encoding => "yaml: invalid encoding"
  | .control => "yaml: control characters are not allowed"
  | .malformed problem => "yaml: " ++ problem
  | .unknownAnchor name => "yaml: unknown anchor '" ++ name ++ "' referenced"

/-- Whether a document may have the character. -/
def isAllowed (c : Char) : Bool :=
  let n := c.toNat
  n == 0x09 || n == 0x0A || n == 0x0D || (0x20 ≤ n && n ≤ 0x7E) || n == 0x85
    || (0xA0 ≤ n && n ≤ 0xFFFD) || 0x10000 ≤ n

/-- The characters of UTF-16 units, given by `unit` from two bytes each; `acc` has those so far in
reverse order. -/
def readUnits (unit : UInt8 → UInt8 → Nat) (acc : List Char) : List UInt8 → Option (List Char)
  | [] => some acc.reverse
  | [_] => none
  | a :: b :: rest =>
    let n := unit a b
    if n < 0xD800 ∨ 0xE000 ≤ n then readUnits unit (Char.ofNat n :: acc) rest
    else if 0xDC00 ≤ n then none
    else
      match rest with
      | c :: d :: rest' =>
        let m := unit c d
        if 0xDC00 ≤ m ∧ m < 0xE000 then
          readUnits unit (Char.ofNat ((n - 0xD800) * 0x400 + (m - 0xDC00) + 0x10000) :: acc) rest'
        else none
      | _ => none

/-- The unit of two bytes, the low one first. -/
def lowFirst (a b : UInt8) : Nat :=
  a.toNat + 256 * b.toNat

/-- The unit of two bytes, the high one first. -/
def highFirst (a b : UInt8) : Nat :=
  256 * a.toNat + b.toNat

/-- The characters of UTF-8 bytes. -/
def readUtf8 (bytes : ByteArray) : Option (List Char) :=
  (Text.toString? ⟨bytes⟩).map String.toList

/-- The characters of a document, by its byte order mark. -/
def readCharacters (t : Text) : Option (List Char) :=
  match t.bytes.data.toList with
  | 0xFF :: 0xFE :: rest => readUnits lowFirst [] rest
  | 0xFE :: 0xFF :: rest => readUnits highFirst [] rest
  | 0xEF :: 0xBB :: 0xBF :: rest => readUtf8 ⟨rest.toArray⟩
  | _ => readUtf8 t.bytes

/-- The characters of a document, all of them allowed. -/
def characters (t : Text) : Except Fault (List Char) :=
  match readCharacters t with
  | none => .error .encoding
  | some cs => if cs.all isAllowed then .ok cs else .error .control

end ImpHost.Yaml
