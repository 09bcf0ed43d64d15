import ImpHost.Text.Decimal
import ImpHost.Text.Quoted
import ImpHost.Time.Span
import ImpHost.Value

/-!
Numbers, truth values and spans of time as they are given on a command line.
-/

namespace ImpHost.Cli

/-- Why a text is no number. -/
inductive NumberFault where
  | malformed
  | outOfRange
deriving DecidableEq

/-- The wording of a fault. -/
def NumberFault.text : NumberFault → String
  | .malformed => "invalid syntax"
  | .outOfRange => "value out of range"

/-! ## Integers -/

/-- The value of a digit in the bases up to 36. -/
def digitValue? (c : Char) : Option Nat :=
  let l := c.toLower
  if Text.isAsciiDigit c then some (c.toNat - '0'.toNat)
  else if 'a' ≤ l ∧ l ≤ 'z' then some (l.toNat - 'a'.toNat + 10)
  else none

/-- The base that the front of a number names, and the digits after it. A leading zero alone is for
base eight. -/
def takeBase : List Char → Nat × List Char
  | '0' :: c :: d :: rest =>
    match c.toLower with
    | 'b' => (2, d :: rest)
    | 'o' => (8, d :: rest)
    | 'x' => (16, d :: rest)
    | _ => (8, c :: d :: rest)
  | '0' :: rest => (8, rest)
  | cs => (10, cs)

/-- The value of digits after those with the value `n`. It is out of range from the first digit on
that leads beyond 64 bits, whatever follows. -/
def digitsValue (base : Nat) (separated : Bool) (n : Nat) : List Char → Except NumberFault Nat
  | [] => .ok n
  | c :: cs =>
    if separated && c == '_' then digitsValue base separated n cs
    else
      match digitValue? c with
      | none => .error .malformed
      | some d =>
        if base ≤ d then .error .malformed
        else if 2 * Value.halfRange ≤ n * base + d then .error .outOfRange
        else digitsValue base separated (n * base + d) cs

/-- What the character before an underscore was. -/
inductive Before where
  | start
  | digit
  | underscore
  | other
deriving DecidableEq

/-- Whether each underscore stands between digits. -/
def separatorsOk (hex : Bool) (before : Before) : List Char → Bool
  | [] => before != .underscore
  | c :: cs =>
    if Text.isAsciiDigit c || (hex && 'a' ≤ c.toLower && c.toLower ≤ 'f') then
      separatorsOk hex .digit cs
    else if c == '_' then before == .digit && separatorsOk hex .underscore cs
    else before != .underscore && separatorsOk hex .other cs

/-- Whether the underscores of a number separate its digits. The mark of a base counts as a
digit. -/
def underscoresOk : List Char → Bool
  | '0' :: c :: rest =>
    if ['b', 'o', 'x'].contains c.toLower then separatorsOk (c.toLower == 'x') .digit rest
    else separatorsOk false .start ('0' :: c :: rest)
  | cs => separatorsOk false .start cs

/-- The integer of 64 bits with a sign and a magnitude. -/
def signed (negative : Bool) (n : Nat) : Except NumberFault Int :=
  let v : Int := if negative then -n else n
  if Value.minInt ≤ v ∧ v ≤ Value.maxInt then .ok v else .error .outOfRange

/-- The integer that a text spells, which may name its base and separate its digits. -/
def readInt (s : String) : Except NumberFault Int :=
  let (negative, cs) := Text.takeSign s.toList
  if cs.isEmpty then .error .malformed
  else do
    let (base, digits) := takeBase cs
    let n ← digitsValue base true 0 digits
    if digits.contains '_' && !underscoresOk cs then .error .malformed
    else signed negative n

/-- The integer that a text spells in decimal. -/
def readDecimal (s : String) : Except NumberFault Int :=
  let (negative, cs) := Text.takeSign s.toList
  if cs.isEmpty then .error .malformed
  else (digitsValue 10 false 0 cs).bind (signed negative)

/-! ## Truth values -/

/-- The truth value that a text spells. -/
def readBool? (s : String) : Option Bool :=
  if ["1", "t", "T", "TRUE", "true", "True"].contains s then some true
  else if ["0", "f", "F", "FALSE", "false", "False"].contains s then some false
  else none

/-! ## Spans of time -/

/-- Why a text is no span of time. -/
inductive SpanFault where
  | malformed
  | noUnit
  | unknownUnit (unit : String)
deriving DecidableEq

/-- A text between quotes, in which all that is not printable ASCII is written byte by byte. -/
def quoteBytes (s : String) : String :=
  String.ofList ('"' :: s.toList.flatMap (fun c =>
    if c.toNat < 0x20 || 0x80 ≤ c.toNat then
      (String.singleton c).toByteArray.data.toList.flatMap fun b =>
        '\\' :: 'x' :: Text.hexDigits 2 b.toNat
    else if c == '"' || c == '\\' then ['\\', c]
    else [c]) ++ ['"'])

/-- The wording of a fault in the text `s`. -/
def SpanFault.text (s : String) : SpanFault → String
  | .malformed => "time: invalid duration " ++ quoteBytes s
  | .noUnit => "time: missing unit in duration " ++ quoteBytes s
  | .unknownUnit unit =>
    "time: unknown unit " ++ quoteBytes unit ++ " in duration " ++ quoteBytes s

/-- The units of time with their nanoseconds. The sign for micro has two forms. -/
def units : List (String × Nat) :=
  [("ns", 1), ("us", 1000), ("\u00b5s", 1000), ("\u03bcs", 1000), ("ms", 1000000),
    ("s", 1000000000), ("m", 60000000000), ("h", 3600000000000)]

/-- The characters of a number in a span. -/
def isSpanDigit (c : Char) : Bool :=
  Text.isAsciiDigit c || c == '.'

/-- A number with its unit at the front of a span, and what follows it. -/
structure SpanPart where
  whole : List Char
  /-- The digits after the point. -/
  fraction : List Char
  unit : List Char
  rest : List Char

namespace SpanPart

/-- Splits the unit off, after the digits of a number. -/
def ofUnit (whole fraction cs : List Char) : SpanPart :=
  ⟨whole, fraction, cs.takeWhile fun c => !isSpanDigit c, cs.dropWhile fun c => !isSpanDigit c⟩

/-- The number and the unit at the front of a span. -/
def take (cs : List Char) : SpanPart :=
  let whole := cs.takeWhile Text.isAsciiDigit
  match cs.dropWhile Text.isAsciiDigit with
  | '.' :: after =>
    ofUnit whole (after.takeWhile Text.isAsciiDigit) (after.dropWhile Text.isAsciiDigit)
  | after => ofUnit whole [] after

theorem length_rest_ofUnit {whole fraction cs : List Char}
    (named : (ofUnit whole fraction cs).unit ≠ []) :
    (ofUnit whole fraction cs).rest.length < cs.length := by
  have parts := congrArg List.length
    (@List.takeWhile_append_dropWhile _ (fun c => !isSpanDigit c) cs)
  have := List.length_pos_iff.2 named
  simp only [ofUnit, List.length_append] at this parts ⊢
  omega

theorem length_rest_take {cs : List Char} (named : (take cs).unit ≠ []) :
    (take cs).rest.length < cs.length := by
  have whole := (@List.dropWhile_sublist _ cs Text.isAsciiDigit).length_le
  unfold take at named ⊢
  dsimp only at named ⊢
  split at named
  next after eq =>
    have fraction := (@List.dropWhile_sublist _ after Text.isAsciiDigit).length_le
    have := length_rest_ofUnit named
    rw [eq, List.length_cons] at whole
    omega
  next =>
    have := length_rest_ofUnit named
    omega

/-- The nanoseconds of a part whose unit has `unit` of them. -/
def nanos (p : SpanPart) (unit : Nat) : Nat :=
  Text.digitsValue p.whole * unit
    + Text.digitsValue p.fraction * unit / Nat.pow 10 p.fraction.length

end SpanPart

/-- The greatest number of nanoseconds. -/
def maxNanos : Nat := Value.halfRange

/-- Adds up the parts of a span, after those that make up `total`. -/
def spanParts (total : Nat) (cs : List Char) : Except SpanFault Nat :=
  if cs.isEmpty then .ok total
  else
    let part := SpanPart.take cs
    if part.whole.isEmpty && part.fraction.isEmpty then .error .malformed
    else if maxNanos < Text.digitsValue part.whole then .error .malformed
    else if _unnamed : (SpanPart.take cs).unit = [] then .error .noUnit
    else
      match units.lookup (String.ofList part.unit) with
      | none => .error (.unknownUnit (String.ofList part.unit))
      | some unit =>
        if maxNanos < total + part.nanos unit then .error .malformed
        else spanParts (total + part.nanos unit) (SpanPart.take cs).rest
termination_by cs.length
decreasing_by exact SpanPart.length_rest_take _unnamed

/-- The span that a text spells: numbers with units one after the other, or a zero. -/
def readSpan (s : String) : Except SpanFault Span :=
  let (negative, cs) := Text.takeSign s.toList
  if cs = ['0'] then .ok ⟨0⟩
  else if cs.isEmpty then .error .malformed
  else do
    let n ← spanParts 0 cs
    if negative then .ok ⟨-n⟩
    else if maxNanos ≤ n then .error .malformed
    else .ok ⟨n⟩

end ImpHost.Cli
