import ImpHost.Text.Quoted

/-!
JSON values and their text. Objects keep the order of their fields, and a number is kept as it is
spelled. The text has no blanks; besides what JSON asks for, it escapes the characters that matter
in HTML and the two line separators.
-/

namespace ImpHost

/-- A JSON value. -/
inductive Json where
  | null
  | bool (b : Bool)
  /-- A number as it is spelled. -/
  | number (spelling : String)
  | string (s : String)
  /-- A string of bytes that need not be UTF-8. -/
  | bytes (t : Text)
  | array (items : List Json)
  | object (fields : List (String × Json))
deriving Inhabited

namespace Json

/-- An integer. -/
def int (n : Int) : Json :=
  .number (toString n)

/-- How a character is written inside a string. -/
def escaped (c : Char) : List Char :=
  if c == '"' then ['\\', '"']
  else if c == '\\' then ['\\', '\\']
  else match c.toNat with
    | 0x08 => ['\\', 'b']
    | 0x0C => ['\\', 'f']
    | 0x0A => ['\\', 'n']
    | 0x0D => ['\\', 'r']
    | 0x09 => ['\\', 't']
    | n =>
      if n < 0x20 || c == '<' || c == '>' || c == '&' || n == 0x2028 || n == 0x2029 then
        '\\' :: 'u' :: Text.hexDigits 4 n
      else [c]

/-- How a piece of a text is written inside a string: a stray byte as the escape of the
replacement character. -/
def escapedPiece : Text.Piece → List Char
  | .char c => escaped c
  | .stray _ => '\\' :: 'u' :: Text.hexDigits 4 Text.replacement.toNat

/-- A string, in front of `k`. -/
def writeString (s : String) (k : List Char) : List Char :=
  '"' :: (s.toList.flatMap escaped ++ '"' :: k)

/-- A string of bytes, in front of `k`. -/
def writeBytes (t : Text) (k : List Char) : List Char :=
  '"' :: (t.pieces.flatMap escapedPiece ++ '"' :: k)

mutual

/-- A value, in front of `k`. -/
def write : Json → List Char → List Char
  | .null, k => "null".toList ++ k
  | .bool true, k => "true".toList ++ k
  | .bool false, k => "false".toList ++ k
  | .number s, k => s.toList ++ k
  | .string s, k => writeString s k
  | .bytes t, k => writeBytes t k
  | .array [], k => '[' :: ']' :: k
  | .array (v :: vs), k => '[' :: v.write (writeItems vs (']' :: k))
  | .object [], k => '{' :: '}' :: k
  | .object ((name, v) :: fs), k =>
    '{' :: writeString name (':' :: v.write (writeFields fs ('}' :: k)))

/-- The further items of an array, in front of `k`. -/
def writeItems : List Json → List Char → List Char
  | [], k => k
  | v :: vs, k => ',' :: v.write (writeItems vs k)

/-- The further fields of an object, in front of `k`. -/
def writeFields : List (String × Json) → List Char → List Char
  | [], k => k
  | (name, v) :: fs, k => ',' :: writeString name (':' :: v.write (writeFields fs k))

end

/-- The text of a value. -/
def render (v : Json) : String :=
  String.ofList (v.write [])

end Json

end ImpHost
