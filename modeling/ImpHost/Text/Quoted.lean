import ImpHost.Text.Basic
import ImpHost.Text.CharClass

/-!
Quoted texts in messages. Printable characters stand for themselves; the quote and the backslash
take a backslash; controls with a short name take it; all else is a hexadecimal escape.
-/

namespace ImpHost.Text

/-- The hexadecimal digit of `n`, in lower case, for `n < 16`. -/
def hexDigit (n : Nat) : Char :=
  Nat.digitChar n

/-- The last `width` hexadecimal digits of `n`. -/
def hexDigits : (width : Nat) → (n : Nat) → List Char
  | 0, _ => []
  | w + 1, n => hexDigits w (n / 16) ++ [hexDigit (n % 16)]

/-- How `c` is written inside the quote `quote`. -/
def quotedChar (quote c : Char) : List Char :=
  if c == quote || c == '\\' then ['\\', c]
  else if isPrintable c then [c]
  else match c.toNat with
    | 0x07 => ['\\', 'a']
    | 0x08 => ['\\', 'b']
    | 0x0C => ['\\', 'f']
    | 0x0A => ['\\', 'n']
    | 0x0D => ['\\', 'r']
    | 0x09 => ['\\', 't']
    | 0x0B => ['\\', 'v']
    | n =>
      if n < 0x20 || n == 0x7F then '\\' :: 'x' :: hexDigits 2 n
      else if n < 0x10000 then '\\' :: 'u' :: hexDigits 4 n
      else '\\' :: 'U' :: hexDigits 8 n

/-- How one piece of a text is written between double quotes; a stray byte is written as its two
hexadecimal digits. -/
def quotedPiece : Piece → List Char
  | .char c => quotedChar '"' c
  | .stray b => '\\' :: 'x' :: hexDigits 2 b.toNat

/-- A character between single quotes. -/
def quoteChar (c : Char) : String :=
  String.ofList ('\'' :: quotedChar '\'' c ++ ['\''])

/-- A character string between double quotes. -/
def quoteString (s : String) : String :=
  String.ofList ('"' :: s.toList.flatMap (quotedChar '"') ++ ['"'])

/-- A text between double quotes. -/
def quote (t : Text) : String :=
  String.ofList ('"' :: t.pieces.flatMap quotedPiece ++ ['"'])

end ImpHost.Text
