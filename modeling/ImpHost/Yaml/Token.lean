import ImpHost.Yaml.Scalar

/-!
Tokens of YAML documents, and the readers of those that have a text of their own: anchors, aliases,
tags and directives.
-/

namespace ImpHost.Yaml

/-- The tokens of a document. -/
inductive Token where
  | streamStart | streamEnd
  | version (major minor : Nat)
  | tagDirective (handle uri : String)
  | documentStart | documentEnd
  | blockSequenceStart | blockMappingStart | blockEnd
  | flowSequenceStart | flowSequenceEnd
  | flowMappingStart | flowMappingEnd
  | blockEntry | flowEntry
  | key | value
  | alias (name : String)
  | anchor (name : String)
  /-- A tag: the handle that stands for the front of it, empty if nothing does, and the rest. -/
  | tag (handle suffix : String)
  /-- A scalar, and whether it was plain. -/
  | scalar (text : String) (plain : Bool)
deriving DecidableEq

/-- Letters, digits, hyphen and underscore. -/
def isNameChar (x : Char) : Bool :=
  ('0' ≤ x && x ≤ '9') || ('a' ≤ x && x ≤ 'z') || ('A' ≤ x && x ≤ 'Z') || x == '_' || x == '-'

/-- The characters of a tag beside those of names and escapes. -/
def isTagMark (x : Char) : Bool :=
  x == ';' || x == '/' || x == '?' || x == ':' || x == '@' || x == '&' || x == '=' || x == '+'
    || x == '$' || x == ',' || x == '.' || x == '!' || x == '~' || x == '*' || x == '\'' || x == '('
    || x == ')' || x == '[' || x == ']'

/-- Reads the name of an anchor or an alias after its indicator. -/
def readAnchor (c : Cursor) : Except Fault (String × Cursor) :=
  let (name, c) := c.takeWhile isNameChar
  let ended := blankAhead c.rest ||
    match c.rest with
    | x :: _ =>
      x == '?' || x == ':' || x == ',' || x == ']' || x == '}' || x == '%' || x == '@'
        || x.toNat == 0x60
    | [] => true
  if name.isEmpty || !ended then
    .error (.malformed "did not find expected alphabetic or numeric character")
  else .ok (String.ofList name, c)

/-- The length of a UTF-8 character by its first byte; none if no character starts with it. -/
def utf8Length? (byte : Nat) : Option Nat :=
  if byte < 0x80 then some 1
  else if 0xC0 ≤ byte ∧ byte < 0xE0 then some 2
  else if 0xE0 ≤ byte ∧ byte < 0xF0 then some 3
  else if 0xF0 ≤ byte ∧ byte < 0xF8 then some 4
  else none

/-- Reads `n` escaped bytes after the first of a character, which are in `acc`. -/
def readMoreBytes : (n : Nat) → (acc : ByteArray) → Cursor → Except Fault (ByteArray × Cursor)
  | 0, acc, c => .ok (acc, c)
  | n + 1, acc, c =>
    match c.rest with
    | '%' :: a :: b :: _ =>
      match hexNumber? [a, b] with
      | none => .error (.malformed "did not find URI escaped octet")
      | some byte =>
        if 0x80 ≤ byte ∧ byte < 0xC0 then readMoreBytes n (acc.push byte.toUInt8) (c.skip 3)
        else .error (.malformed "found an incorrect trailing UTF-8 octet")
    | _ => .error (.malformed "did not find URI escaped octet")

/-- Reads an escaped character of a tag. -/
def readEscape (acc : ByteArray) (c : Cursor) : Except Fault (ByteArray × Cursor) :=
  match c.rest with
  | '%' :: a :: b :: _ =>
    match hexNumber? [a, b] with
    | none => .error (.malformed "did not find URI escaped octet")
    | some byte =>
      match utf8Length? byte with
      | none => .error (.malformed "found an incorrect leading UTF-8 octet")
      | some n => readMoreBytes (n - 1) (acc.push byte.toUInt8) (c.skip 3)
  | _ => .error (.malformed "did not find URI escaped octet")

/-- Reads the characters of a tag onto `acc`. -/
def readUriChars : (fuel : Nat) → (acc : ByteArray) → Cursor → Except Fault (ByteArray × Cursor)
  | 0, acc, c => .ok (acc, c)
  | fuel + 1, acc, c =>
    match c.rest with
    | [] => .ok (acc, c)
    | x :: _ =>
      if x == '%' then do
        let (acc, c) ← readEscape acc c
        readUriChars fuel acc c
      else if isNameChar x || isTagMark x then
        readUriChars fuel (acc.push x.toNat.toUInt8) (c.skip 1)
      else .ok (acc, c)

/-- Reads the rest of a tag after `head`, of which the first character does not count. -/
def readUri (fuel : Nat) (head : List Char) (c : Cursor) : Except Fault (String × Cursor) := do
  let start := (Text.ofString (String.ofList (head.drop 1))).bytes
  let (bytes, after) ← readUriChars fuel start c
  if head.isEmpty && after.index == c.index then
    .error (.malformed "did not find expected tag URI")
  else return (Text.lossy ⟨bytes⟩, after)

/-- Reads the handle of a tag. -/
def readHandle (directive : Bool) (c : Cursor) : Except Fault (List Char × Cursor) :=
  if !c.isAt '!' then .error (.malformed "did not find expected '!'")
  else
    let (name, c) := (c.skip 1).takeWhile isNameChar
    if c.isAt '!' then .ok ('!' :: name ++ ['!'], c.skip 1)
    else if directive && !name.isEmpty then .error (.malformed "did not find expected '!'")
    else .ok ('!' :: name, c)

/-- Reads a tag. -/
def readTag (fuel : Nat) (c : Cursor) : Except Fault (Token × Cursor) := do
  let (token, c) ← match c.rest with
    | '!' :: '<' :: _ => do
      let (uri, c) ← readUri fuel [] (c.skip 2)
      if c.isAt '>' then pure (Token.tag "" uri, c.skip 1)
      else .error (.malformed "did not find the expected '>'")
    | _ => do
      let (handle, c) ← readHandle false c
      if 1 < handle.length && handle.getLast? == some '!' then
        let (suffix, c) ← readUri fuel [] c
        pure (Token.tag (String.ofList handle) suffix, c)
      else
        let (suffix, c) ← readUri fuel handle c
        pure (if suffix.isEmpty then Token.tag "" "!" else Token.tag "!" suffix, c)
  if blankAhead c.rest then return (token, c)
  else .error (.malformed "did not find expected whitespace or line break")

/-- Reads the number of a version. -/
def readVersionNumber (c : Cursor) : Except Fault (Nat × Cursor) :=
  let (digits, c) := c.takeWhile fun x => '0' ≤ x && x ≤ '9'
  if digits.isEmpty then .error (.malformed "did not find expected version number")
  else if 2 < digits.length then .error (.malformed "found extremely long version number")
  else .ok (digits.foldl (fun n d => 10 * n + (d.toNat - '0'.toNat)) 0, c)

/-- Reads a version after the name of its directive. -/
def readVersion (c : Cursor) : Except Fault (Token × Cursor) := do
  let (major, c) ← readVersionNumber c.skipBlanks
  if c.isAt '.' then
    let (minor, c) ← readVersionNumber (c.skip 1)
    return (.version major minor, c)
  else .error (.malformed "did not find expected digit or '.' character")

/-- Reads a handle and what it stands for after the name of its directive. -/
def readTagDirective (fuel : Nat) (c : Cursor) : Except Fault (Token × Cursor) := do
  let (handle, c) ← readHandle true c.skipBlanks
  match c.rest with
  | x :: _ =>
    if isBlank x then
      let (uri, c) ← readUri fuel [] c.skipBlanks
      if blankAhead c.rest then return (.tagDirective (String.ofList handle) uri, c)
      else .error (.malformed "did not find expected whitespace or line break")
    else .error (.malformed "did not find expected whitespace")
  | [] => .error (.malformed "did not find expected whitespace")

/-- Reads a directive and the rest of its line. -/
def readDirective (fuel : Nat) (c : Cursor) : Except Fault (Token × Cursor) := do
  let (name, c) := (c.skip 1).takeWhile isNameChar
  if name.isEmpty then .error (.malformed "could not find expected directive name")
  else if !blankAhead c.rest then
    .error (.malformed "found unexpected non-alphabetical character")
  else
    let (token, c) ←
      if String.ofList name == "YAML" then readVersion c
      else if String.ofList name == "TAG" then readTagDirective fuel c
      else .error (.malformed "found unknown directive name")
    let c := c.skipBlanks
    let c := if c.isAt '#' then (c.takeWhile fun x => !isBreak x).2 else c
    if breakAhead c.rest then return (token, c.skipBreak)
    else .error (.malformed "did not find expected comment or line break")

end ImpHost.Yaml
