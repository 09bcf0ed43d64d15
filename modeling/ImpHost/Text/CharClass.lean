import ImpHost.Text.Letters
import ImpHost.Text.Digits
import ImpHost.Text.Graphics

/-!
Classes of characters, after Unicode 15. ASCII is decided by comparison and all else by the tables
of ranges.
-/

namespace ImpHost.Text

/-- Whether `n` lies in one of the inclusive ranges. -/
def inRanges (ranges : List (Nat × Nat)) (n : Nat) : Bool :=
  ranges.any fun (lo, hi) => lo ≤ n && n ≤ hi

/-- The digits that write numbers: `0` to `9`. -/
def isAsciiDigit (c : Char) : Bool :=
  '0' ≤ c && c ≤ '9'

/-- Letters: general category L. -/
def isLetter (c : Char) : Bool :=
  if c.toNat < 0x80 then ('a' ≤ c && c ≤ 'z') || ('A' ≤ c && c ≤ 'Z')
  else inRanges letterRanges c.toNat

/-- Decimal digits: general category Nd. -/
def isDecimalDigit (c : Char) : Bool :=
  if c.toNat < 0x80 then isAsciiDigit c
  else inRanges digitRanges c.toNat

/-- White space: the ASCII blanks and controls tab to carriage return, next line, and the
characters of category Z. -/
def isSpace (c : Char) : Bool :=
  let n := c.toNat
  (0x09 ≤ n && n ≤ 0x0D) || n == 0x20 || n == 0x85 || n == 0xA0 || n == 0x1680
    || (0x2000 ≤ n && n ≤ 0x200A) || n == 0x2028 || n == 0x2029 || n == 0x202F || n == 0x205F
    || n == 0x3000

/-- Characters that a quoted text shows as they are: the blank and the graphic characters. -/
def isPrintable (c : Char) : Bool :=
  if c.toNat < 0x80 then 0x20 ≤ c.toNat && c.toNat < 0x7F
  else inRanges graphicRanges c.toNat

/-- A character in lower case, if that is ASCII: beside the letters, the dotted capital i and the
sign for kelvin have such a form. -/
def lowerChar (c : Char) : Char :=
  if c.toNat = 0x130 then 'i'
  else if c.toNat = 0x212A then 'k'
  else c.toLower

end ImpHost.Text
