import ImpHost.Yaml.Characters

/-!
A place in a YAML document: the characters from there on, and the line and the column, which
decide how a document is indented. The end of the document counts as a blank and as a line break.
-/

namespace ImpHost.Yaml

/-- Blanks within a line. -/
def isBlank (c : Char) : Bool :=
  c == ' ' || c == '\t'

/-- Line breaks: carriage return, line feed, next line, and the line and paragraph separators. -/
def isBreak (c : Char) : Bool :=
  c == '\r' || c == '\n' || c.toNat == 0x85 || c.toNat == 0x2028 || c.toNat == 0x2029

/-- Whether `cs` starts with a blank or a line break, or is at the end. -/
def blankAhead : List Char → Bool
  | [] => true
  | c :: _ => isBlank c || isBreak c

/-- Whether `cs` starts with a line break or is at the end. -/
def breakAhead : List Char → Bool
  | [] => true
  | c :: _ => isBreak c

/-- A place in a document. -/
structure Cursor where
  /-- The characters from here on. -/
  rest : List Char
  /-- The number of characters before. -/
  index : Nat
  line : Nat
  column : Nat
  /-- Whether there are only blanks since the last line break, and there was one. -/
  fresh : Bool

namespace Cursor

/-- The start of a document. -/
def start (cs : List Char) : Cursor :=
  ⟨cs, 0, 0, 0, false⟩

/-- The character here. -/
def head? (c : Cursor) : Option Char :=
  c.rest.head?

/-- Whether the character here is `x`. -/
def isAt (c : Cursor) (x : Char) : Bool :=
  c.rest.head? == some x

/-- The place `n` characters further on the same line. -/
def skip (c : Cursor) (n : Nat) : Cursor :=
  { c with
    rest := c.rest.drop n
    index := c.index + n
    column := c.column + n
    fresh := c.fresh && (c.rest.take n).all isBlank }

/-- The longest run of characters from here with the property `p`, and the place after it. -/
def takeWhile (c : Cursor) (p : Char → Bool) : List Char × Cursor :=
  let run := c.rest.takeWhile p
  (run, c.skip run.length)

/-- The place after the blanks. -/
def skipBlanks (c : Cursor) : Cursor :=
  (c.takeWhile isBlank).2

/-- The place after `n` characters that end with a line break. -/
def breakLine (c : Cursor) (n : Nat) : Cursor :=
  ⟨c.rest.drop n, c.index + n, c.line + 1, 0, true⟩

/-- Reads a line break: the characters that it stands for in a scalar, and the place after it. A
carriage return and a line feed are one break. -/
def takeBreak (c : Cursor) : List Char × Cursor :=
  match c.rest with
  | '\r' :: '\n' :: _ => (['\n'], c.breakLine 2)
  | x :: _ =>
    if x.toNat == 0x2028 || x.toNat == 0x2029 then ([x], c.breakLine 1)
    else if isBreak x then (['\n'], c.breakLine 1)
    else ([], c)
  | [] => ([], c)

/-- The place after a line break. -/
def skipBreak (c : Cursor) : Cursor :=
  c.takeBreak.2

/-- Whether a line here starts with three times the character `x`, alone. -/
def marker (c : Cursor) (x : Char) : Bool :=
  c.column == 0 &&
    match c.rest with
    | a :: b :: d :: rest => a == x && b == x && d == x && blankAhead rest
    | _ => false

/-- Whether the start or the end of a document is marked here. -/
def documentMarker (c : Cursor) : Bool :=
  c.marker '-' || c.marker '.'

end Cursor

end ImpHost.Yaml
