import ImpHost.Http.Basic
import ImpHost.Json.Reader

/-!
Fields sent in addresses and forms, as in `a=1&b=two+words`. A plus sign stands for a blank, and a
percent sign with two hexadecimal digits for a byte; a percent sign without them stands for itself.
-/

namespace ImpHost.Http

/-- The bytes that an encoded name or value denotes. A percent sign within the last two bytes ends
the decoding. -/
def decodeBytes (acc : ByteArray) : List UInt8 → ByteArray
  | [] => acc
  | b :: bytes =>
    if b == 0x25 then
      match bytes with
      | c :: d :: rest =>
        match Json.hexValue? (Char.ofNat c.toNat), Json.hexValue? (Char.ofNat d.toNat) with
        | some hi, some lo => decodeBytes (acc.push (UInt8.ofNat (16 * hi + lo))) rest
        | _, _ => decodeBytes (acc.push b) (c :: d :: rest)
      | short => acc.push b ++ ⟨short.toArray⟩
    else if b == 0x2B then decodeBytes (acc.push 0x20) bytes
    else decodeBytes (acc.push b) bytes

/-- The text that an encoded name or value denotes. -/
def decode (bytes : List UInt8) : Text :=
  ⟨decodeBytes .empty bytes⟩

/-- The parts of a list of bytes between the bytes `mark`. -/
def splitBytes (mark : UInt8) (part : List UInt8) : List UInt8 → List (List UInt8)
  | [] => [part.reverse]
  | b :: bytes =>
    if b == mark then part.reverse :: splitBytes mark [] bytes
    else splitBytes mark (b :: part) bytes

/-- The fields of a text, in order. -/
def fields (t : Text) : List (Text × Text) :=
  (splitBytes 0x26 [] t.bytes.data.toList).filterMap fun part =>
    let name := decode (part.takeWhile (· != 0x3D))
    let value := decode ((part.dropWhile (· != 0x3D)).drop 1)
    if name.isEmpty && value.isEmpty then none else some (name, value)

/-- The value of the first field `name`; empty if there is none. -/
def fieldValue (l : List (Text × Text)) (name : String) : Text :=
  (l.lookup (name : Text)).getD ∅

namespace Request

/-- The type of forms. -/
def formType : String := "application/x-www-form-urlencoded"

/-- The value of a field of the query. -/
def queryValue (r : Request) (name : String) : Text :=
  fieldValue (fields r.query) name

/-- The fields of a form that was sent. -/
def formFields (r : Request) : List (Text × Text) :=
  if r.contentType.startsWith formType then fields r.body else []

/-- The value of a field of the query or else of the form. -/
def formValue (r : Request) (name : String) : Text :=
  let v := r.queryValue name
  if v.isEmpty then fieldValue r.formFields name else v

/-- A type such as `application/x+json` without what stands before the plus sign. -/
def plainType (t : List Char) : List Char :=
  let front := t.takeWhile (· != ';')
  if !t.contains '+' then t
  else if !front.contains '+' then front
  else if !t.contains '/' then t
  else t.takeWhile (· != '/') ++ '/' :: (front.dropWhile (· != '+')).drop 1

/-- The type of the body in lower case, without parameters. -/
def bodyType (r : Request) : List Char :=
  (plainType (r.contentType.toList.map Char.toLower)).takeWhile (· != ';')

/-- The forms in which a record can be sent. -/
inductive Sent where
  | object (v : Json)
  | form (fields : List (Text × Text))

/-- What was sent as the record of a request; none if the body has no known type, or is not of the
type that it claims. -/
def sent? (r : Request) : Option Sent :=
  let t := r.bodyType
  if "json".toList.isSuffixOf t then (Json.parse? r.body.chars).map .object
  else if formType.toList.isPrefixOf t then some (.form r.formFields)
  else none

end Request

end ImpHost.Http
