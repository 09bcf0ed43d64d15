import ImpHost.Text.Basic
import ImpHost.Text.Quoted

/-!
HTML text. What a program says itself is markup; what it was told goes through `Html.text` or
`Html.url`, so that it cannot open a tag or leave an attribute.
-/

namespace ImpHost

/-- A piece of an HTML document. -/
structure Html where
  source : String

namespace Html

instance : Append Html := ⟨fun a b => ⟨a.source ++ b.source⟩⟩

/-- A piece without contents. -/
def none : Html := ⟨""⟩

/-- Markup as it stands. -/
def markup (s : String) : Html := ⟨s⟩

/-- Markup, each item a line of its own. -/
def lines (l : List String) : Html :=
  ⟨String.join (l.map (· ++ "\n"))⟩

/-- Pieces one after the other. -/
def concat (l : List Html) : Html :=
  ⟨String.join (l.map Html.source)⟩

/-- A piece that is there only under a condition. -/
def when (condition : Bool) (h : Html) : Html :=
  if condition then h else none

/-- How a character is written as text or inside a quoted attribute. -/
def escaped (c : Char) : List Char :=
  if c == '&' then "&amp;".toList
  else if c == '<' then "&lt;".toList
  else if c == '>' then "&gt;".toList
  else if c == '"' then "&#34;".toList
  else if c == '\'' then "&#39;".toList
  else if c == '+' then "&#43;".toList
  else if c.toNat == 0 then [Text.replacement]
  else [c]

/-- Text that was told. -/
def text (s : String) : Html :=
  ⟨String.ofList (s.toList.flatMap escaped)⟩

/-- The bytes of an address that stand for themselves: letters, digits and the marks with and
without a meaning in addresses, but neither quotes nor parentheses. -/
def isAddressByte (b : UInt8) : Bool :=
  let c := Char.ofNat b.toNat
  c.isAlphanum || "-._~!#$&*+,/:;=?@[]".toList.contains c

/-- Whether a byte is a hexadecimal digit. -/
def isHexByte (b : UInt8) : Bool :=
  let c := Char.ofNat b.toNat
  Text.isAsciiDigit c || ('a' ≤ c && c ≤ 'f') || ('A' ≤ c && c ≤ 'F')

/-- The bytes of an address in which all else is written as a percent sign and two digits. Such
escapes stay as they are. -/
def addressChars : List UInt8 → List Char
  | [] => []
  | b :: bytes =>
    let isEscape := b == 0x25 && match bytes with
      | c :: d :: _ => isHexByte c && isHexByte d
      | _ => false
    if isAddressByte b || isEscape then Char.ofNat b.toNat :: addressChars bytes
    else '%' :: Text.hexDigits 2 b.toNat ++ addressChars bytes

/-- Part of an address in a quoted attribute. -/
def url (s : String) : Html :=
  text (String.ofList (addressChars s.toByteArray.data.toList))

/-- A number. -/
def number (n : Int) : Html :=
  ⟨toString n⟩

end Html

end ImpHost
