/-!
Texts as they arrive from outside: byte strings that are meant to be UTF-8, although nothing
guarantees it. `Text.pieces` reads a text as characters and stray bytes, and `Text.chars` puts the
replacement character in the place of each stray byte.
-/

namespace ImpHost

/-- A byte string from outside, meant to be UTF-8. -/
structure Text where
  bytes : ByteArray
deriving Hashable, Inhabited

namespace Text

instance : DecidableEq Text := fun s t =>
  match ByteArray.instDecidableEq s.bytes t.bytes with
  | isTrue same => isTrue (by cases s; cases t; exact congrArg Text.mk same)
  | isFalse differ => isFalse fun same => differ (congrArg Text.bytes same)

/-- The character that stands for a byte that is no part of a UTF-8 character. -/
def replacement : Char := '\uFFFD'

/-- What stands at one place of a text: a character, or a byte that starts none. -/
inductive Piece where
  | char (c : Char)
  | stray (b : UInt8)
deriving DecidableEq

/-- The character that a piece is read as. -/
def Piece.toChar : Piece → Char
  | .char c => c
  | .stray _ => replacement

/-- Appends the pieces of `bytes` from offset `i` on to `acc`. A stray byte is one piece. -/
def piecesFrom (bytes : ByteArray) (i : Nat) (acc : Array Piece) : Array Piece :=
  if h : i < bytes.size then
    match bytes.utf8DecodeChar? i with
    | some c => piecesFrom bytes (i + c.utf8Size) (acc.push (.char c))
    | none => piecesFrom bytes (i + 1) (acc.push (.stray bytes[i]))
  else acc
termination_by bytes.size - i
decreasing_by
  · have := c.utf8Size_pos
    omega
  · omega

/-- The characters and stray bytes of a text, in order. -/
def pieces (t : Text) : List Piece :=
  (piecesFrom t.bytes 0 #[]).toList

/-- The characters of a text, with `replacement` for each stray byte. -/
def chars (t : Text) : List Char :=
  t.pieces.map Piece.toChar

/-- The text as a character string, with `replacement` for each stray byte. -/
def lossy (t : Text) : String :=
  String.ofList t.chars

/-- The text as a character string, provided that all of it is UTF-8. -/
def toString? (t : Text) : Option String :=
  String.fromUTF8? t.bytes

/-- The UTF-8 bytes of a character string. -/
def ofString (s : String) : Text :=
  ⟨s.toByteArray⟩

instance : Coe String Text := ⟨ofString⟩

/-- The number of bytes. -/
def size (t : Text) : Nat :=
  t.bytes.size

/-- The text without bytes. -/
def empty : Text := ⟨ByteArray.empty⟩

instance : EmptyCollection Text := ⟨empty⟩

/-- Whether the text has no bytes. -/
def isEmpty (t : Text) : Bool :=
  t.size == 0

instance : Append Text := ⟨fun s t => ⟨s.bytes ++ t.bytes⟩⟩

/-- Texts in byte order: the order of their first differing byte, and a text before its
extensions. -/
def lt (s t : Text) : Bool :=
  decide (s.bytes.data.toList < t.bytes.data.toList)

/-- Whether `s` stands at the start of `t`. -/
def startsWith (t s : Text) : Bool :=
  s.bytes.data.toList.isPrefixOf t.bytes.data.toList

/-- The first `n` bytes and three dots, if there are more bytes than that. -/
def cut (t : Text) (n : Nat) : Text :=
  if t.size ≤ n then t else ⟨t.bytes.extract 0 n⟩ ++ ofString "..."

/-- The number of lines. The text without bytes has none, and a line break at the end begins one
more. -/
def countLines (t : Text) : Nat :=
  if t.isEmpty then 0 else t.bytes.data.toList.count 0x0A + 1

end Text

end ImpHost
