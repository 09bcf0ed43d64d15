import ImpHost.Json.Reader
import ImpHost.Yaml.Cursor

/-!
Scalars in YAML documents: plain, between quotes, and in blocks. Each reader returns the text of the
scalar and the place after it. A single line break within a scalar is folded to a blank, and of
several the first is dropped; a literal block keeps them all. The loops carry fuel, for which the
number of characters left is enough.
-/

namespace ImpHost.Yaml

/-- White space within a scalar: blanks on one line, or the line breaks that it spans. -/
inductive Gap where
  /-- Blanks without a line break. -/
  | blanks (run : List Char)
  /-- The first line break, which is empty if it is escaped, and those after it, the last one
  first. -/
  | breaks (first : List Char) (more : List Char)

/-- What a gap stands for between two parts of a scalar. -/
def Gap.folded : Gap → List Char
  | .blanks run => run
  | .breaks first more =>
    if first = ['\n'] then (if more.isEmpty then [' '] else more.reverse)
    else first ++ more.reverse

/-- Whether a gap spans lines. -/
def Gap.spansLines : Gap → Bool
  | .blanks _ => false
  | .breaks _ _ => true

/-- Reads white space. Where `indent` is given, a tab in the indentation of a line is a fault. -/
def readGap (indent : Option Nat) : (fuel : Nat) → Gap → Cursor → Except Fault (Gap × Cursor)
  | 0, gap, c => .ok (gap, c)
  | fuel + 1, gap, c =>
    match c.rest with
    | [] => .ok (gap, c)
    | x :: _ =>
      if isBlank x then
        match gap with
        | .blanks run =>
          let (more, c) := c.takeWhile isBlank
          readGap indent fuel (.blanks (run ++ more)) c
        | .breaks _ _ =>
          match indent with
          | some n =>
            if x == '\t' && c.column < n then
              .error (.malformed "found a tab character that violates indentation")
            else readGap indent fuel gap (c.skip 1)
          | none => readGap indent fuel gap (c.skip 1)
      else if isBreak x then
        let (text, c) := c.takeBreak
        match gap with
        | .blanks _ => readGap indent fuel (.breaks text []) c
        | .breaks first more => readGap indent fuel (.breaks first (text ++ more)) c
      else .ok (gap, c)

/-- The number of characters of a plain scalar up to the next white space or the end of the scalar:
a colon before white space, and in a flow collection also one of its indicators. -/
def plainLength (flow : Bool) : List Char → (n : Nat) → Nat
  | [], n => n
  | x :: rest, n =>
    if isBlank x || isBreak x then n
    else if x == ':' && blankAhead rest then n
    else if flow &&
        (x == ',' || x == '?' || x == '[' || x == ']' || x == '{' || x == '}') then n
    else plainLength flow rest (n + 1)

/-- Reads the rest of a plain scalar after a gap; `acc` has its text so far in reverse order. Tells
also whether the scalar is followed by a line break. -/
def readPlain (flow : Bool) (indent : Nat) :
    (fuel : Nat) → (acc : List Char) → Gap → Cursor → Except Fault (List Char × Bool × Cursor)
  | 0, acc, gap, c => .ok (acc.reverse, gap.spansLines, c)
  | fuel + 1, acc, gap, c =>
    if c.documentMarker || c.isAt '#' then .ok (acc.reverse, gap.spansLines, c)
    else
      let n := plainLength flow c.rest 0
      let (acc, gap) :=
        if n = 0 then (acc, gap)
        else ((c.rest.take n).reverse ++ (gap.folded.reverse ++ acc), .blanks [])
      let c := c.skip n
      match c.rest with
      | [] => .ok (acc.reverse, gap.spansLines, c)
      | x :: _ =>
        if isBlank x || isBreak x then do
          let (gap, c) ← readGap (some indent) (fuel + 1) gap c
          if !flow && c.column < indent then return (acc.reverse, gap.spansLines, c)
          else readPlain flow indent fuel acc gap c
        else .ok (acc.reverse, gap.spansLines, c)

/-- The characters that an escape of one letter denotes. -/
def escape? (x : Char) : Option Char :=
  match x with
  | '0' => some '\x00'
  | 'a' => some '\x07'
  | 'b' => some '\x08'
  | 't' => some '\t'
  | '\t' => some '\t'
  | 'n' => some '\n'
  | 'v' => some '\x0b'
  | 'f' => some '\x0c'
  | 'r' => some '\r'
  | 'e' => some '\x1b'
  | ' ' => some ' '
  | '"' => some '"'
  | '\'' => some '\''
  | '\\' => some '\\'
  | 'N' => some '\u0085'
  | '_' => some '\u00a0'
  | 'L' => some '\u2028'
  | 'P' => some '\u2029'
  | _ => none

/-- The number of digits of an escape by number. -/
def escapeDigits? (x : Char) : Option Nat :=
  match x with
  | 'x' => some 2
  | 'u' => some 4
  | 'U' => some 8
  | _ => none

/-- The number that hexadecimal digits denote. -/
def hexNumber? (digits : List Char) : Option Nat :=
  digits.foldlM (fun n d => (Json.hexValue? d).map (16 * n + ·)) 0

/-- Reads the characters of a quoted scalar up to white space, the closing quote or an escaped line
break, onto `acc` in reverse order. Tells whether a line break was escaped. -/
def readQuotedRun (single : Bool) :
    (fuel : Nat) → (acc : List Char) → Cursor → Except Fault (List Char × Bool × Cursor)
  | 0, acc, c => .ok (acc, false, c)
  | fuel + 1, acc, c =>
    match c.rest with
    | [] => .ok (acc, false, c)
    | x :: rest =>
      if isBlank x || isBreak x then .ok (acc, false, c)
      else if single then
        match x, rest with
        | '\'', '\'' :: _ => readQuotedRun single fuel ('\'' :: acc) (c.skip 2)
        | '\'', _ => .ok (acc, false, c)
        | x, _ => readQuotedRun single fuel (x :: acc) (c.skip 1)
      else if x == '"' then .ok (acc, false, c)
      else if x == '\\' then
        match rest with
        | [] => .error (.malformed "found unknown escape character")
        | e :: digits =>
          if isBreak e then .ok (acc, true, (c.skip 1).skipBreak)
          else
            match escape? e, escapeDigits? e with
            | some ch, _ => readQuotedRun single fuel (ch :: acc) (c.skip 2)
            | none, some n =>
              match (if (digits.take n).length = n then hexNumber? (digits.take n) else none) with
              | none => .error (.malformed "did not find expected hexdecimal number")
              | some value =>
                if value.isValidChar then
                  readQuotedRun single fuel (Char.ofNat value :: acc) (c.skip (2 + n))
                else .error (.malformed "found invalid Unicode character escape code")
            | none, none => .error (.malformed "found unknown escape character")
      else readQuotedRun single fuel (x :: acc) (c.skip 1)

/-- Reads the rest of a quoted scalar; `acc` has its text so far in reverse order. -/
def readQuoted (single : Bool) :
    (fuel : Nat) → (acc : List Char) → Cursor → Except Fault (List Char × Cursor)
  | 0, _, _ => .error (.malformed "found unexpected end of stream")
  | fuel + 1, acc, c =>
    if c.documentMarker then .error (.malformed "found unexpected document indicator")
    else if c.rest.isEmpty then .error (.malformed "found unexpected end of stream")
    else do
      let (acc, escaped, c) ← readQuotedRun single (fuel + 1) acc c
      if c.isAt (if single then '\'' else '"') then return (acc.reverse, c.skip 1)
      else
        let gap := if escaped then Gap.breaks [] [] else Gap.blanks []
        let (gap, c) ← readGap none (fuel + 1) gap c
        readQuoted single fuel (gap.folded.reverse ++ acc) c

/-- What becomes of the line breaks at the end of a block. -/
inductive Chomp where
  | strip | clip | keep

/-- Reads the indicators of a block: what to do with its end, and its indentation if given. -/
def readBlockHeader (c : Cursor) : Except Fault (Chomp × Nat × Cursor) :=
  let chomp (c : Cursor) : Option (Chomp × Cursor) :=
    if c.isAt '+' then some (.keep, c.skip 1)
    else if c.isAt '-' then some (.strip, c.skip 1)
    else none
  let digit (c : Cursor) : Option (Nat × Cursor) :=
    match c.rest with
    | x :: _ => if '0' ≤ x ∧ x ≤ '9' then some (x.toNat - '0'.toNat, c.skip 1) else none
    | [] => none
  match chomp c with
  | some (how, c) =>
    match digit c with
    | some (0, _) => .error (.malformed "found an indentation indicator equal to 0")
    | some (n, c) => .ok (how, n, c)
    | none => .ok (how, 0, c)
  | none =>
    match digit c with
    | some (0, _) => .error (.malformed "found an indentation indicator equal to 0")
    | some (n, c) =>
      match chomp c with
      | some (how, c) => .ok (how, n, c)
      | none => .ok (.clip, n, c)
    | none => .ok (.clip, 0, c)

/-- Reads the empty lines of a block and the indentation of the next line. An indentation of zero
is not known yet. Returns the line breaks, the last one first, the widest indentation met, and the
place after. -/
def readBlockBreaks (indent : Nat) :
    (fuel : Nat) → (breaks : List Char) → (widest : Nat) → Cursor →
      Except Fault (List Char × Nat × Cursor)
  | 0, breaks, widest, c => .ok (breaks, widest, c)
  | fuel + 1, breaks, widest, c =>
    let spaces := (c.rest.takeWhile (· == ' ')).length
    let c := c.skip (if indent = 0 then spaces else min spaces (indent - c.column))
    let widest := max widest c.column
    if (indent == 0 || c.column < indent) && c.isAt '\t' then
      .error (.malformed "found a tab character where an indentation space is expected")
    else
      match c.rest with
      | [] => .ok (breaks, widest, c)
      | x :: _ =>
        if isBreak x then
          let (text, c) := c.takeBreak
          readBlockBreaks indent fuel (text ++ breaks) widest c
        else .ok (breaks, widest, c)

/-- Reads the lines of a block with the given indentation. The text so far is in `acc` in reverse
order; `first` is the line break after its last line, `more` has the empty lines after that, the
last one first, and `blank` tells whether its last line starts with a blank. -/
def readBlockLines (literal : Bool) (indent : Nat) :
    (fuel : Nat) → (acc first more : List Char) → (blank : Bool) → Cursor →
      Except Fault (List Char × List Char × List Char × Cursor)
  | 0, acc, first, more, _, c => .ok (acc, first, more, c)
  | fuel + 1, acc, first, more, blank, c =>
    if c.column == indent && !c.rest.isEmpty then do
      let blankLine := match c.rest with
        | x :: _ => isBlank x
        | [] => false
      let joint :=
        if !literal && !blank && !blankLine && first = ['\n'] then
          (if more.isEmpty then [' '] else [])
        else first
      let (line, c) := c.takeWhile fun x => !isBreak x
      let (first, c) := c.takeBreak
      let acc := line.reverse ++ (more ++ (joint.reverse ++ acc))
      let (more, _, c) ← readBlockBreaks indent (fuel + 1) [] 0 c
      readBlockLines literal indent fuel acc first more blankLine c
    else return (acc, first, more, c)

/-- Reads a block scalar after its indicator, in a collection indented by `outer`, which is less
than zero outside of any. -/
def readBlock (fuel : Nat) (literal : Bool) (outer : Int) (c : Cursor) :
    Except Fault (List Char × Cursor) := do
  let (how, increment, c) ← readBlockHeader c
  let c := c.skipBlanks
  let c := if c.isAt '#' then (c.takeWhile fun x => !isBreak x).2 else c
  if !breakAhead c.rest then
    .error (.malformed "did not find expected comment or line break")
  else
    let c := c.skipBreak
    let given := if increment = 0 then 0 else (max outer 0).toNat + increment
    let (more, widest, c) ← readBlockBreaks given fuel [] 0 c
    let indent := if given = 0 then max (max widest (outer + 1).toNat) 1 else given
    let (acc, first, more, c) ← readBlockLines literal indent fuel [] [] more false c
    let tail := match how with
      | .strip => []
      | .clip => first
      | .keep => first ++ more.reverse
    return (acc.reverse ++ tail, c)

end ImpHost.Yaml
