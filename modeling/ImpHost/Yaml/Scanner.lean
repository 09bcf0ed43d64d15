import ImpHost.Yaml.Token

/-!
The tokens of a document, found on demand. The indentation of block collections becomes tokens for
their start and end. A key without an indicator is recognised only by the colon after it, so where a
key may start is remembered, and the tokens from there on wait until it is settled.

Tokens are found three ahead of the one that is looked at, so a fault just after the end of a
document counts against it, and one further on does not.
-/

namespace ImpHost.Yaml

/-- A place where a key without an indicator may start. -/
structure SimpleKey where
  /-- Whether it still may be a key. -/
  possible : Bool
  /-- Whether nothing but a key may stand there. -/
  required : Bool
  /-- The number of the token there. -/
  number : Nat
  index : Nat
  line : Nat
  column : Nat

/-- The state of the search for tokens. -/
structure Scanner where
  cursor : Cursor
  /-- Enough fuel for any one token. -/
  fuel : Nat
  started : Bool
  /-- The tokens found and not yet taken. -/
  queue : List Token
  /-- The number of tokens taken. -/
  taken : Nat
  /-- The column of the innermost block collection, less than zero outside of any. -/
  indent : Int
  /-- The columns around it. -/
  outer : List Int
  /-- Whether a key may start here. -/
  keyAllowed : Bool
  /-- The candidate for a key in the innermost flow collection. -/
  keyHere : SimpleKey
  /-- The candidates in the flow collections around it. -/
  keysAround : List SimpleKey

namespace Scanner

/-- The candidate that is none. -/
def noKey : SimpleKey :=
  ⟨false, false, 0, 0, 0, 0⟩

/-- How deep collections may nest. -/
def maxDepth : Nat := 10000

/-- How far a colon may be from the start of its key. -/
def maxKeyLength : Nat := 1024

/-- The start of a document. -/
def start (cs : List Char) : Scanner :=
  ⟨.start cs, cs.length + 10, false, [], 0, -1, [], false, noKey, []⟩

/-- The number of flow collections around this place. -/
def flowLevel (s : Scanner) : Nat :=
  s.keysAround.length

/-- Whether this place is in no flow collection. -/
def inBlock (s : Scanner) : Bool :=
  s.keysAround.isEmpty

/-- Appends a token. -/
def push (s : Scanner) (t : Token) : Scanner :=
  { s with queue := s.queue ++ [t] }

/-- Puts a token in front of the token with the given number. -/
def insert (s : Scanner) (number : Nat) (t : Token) : Scanner :=
  let n := number - s.taken
  { s with queue := s.queue.take n ++ t :: s.queue.drop n }

/-- Whether a key here is out of reach of a colon at the place of the scanner. -/
def stale (s : Scanner) (k : SimpleKey) : Bool :=
  k.line < s.cursor.line || k.index + maxKeyLength < s.cursor.index

/-- The failure to find the colon of a key. -/
def missingColon : Fault :=
  .malformed "could not find expected ':'"

/-- Gives up a candidate for a key. -/
def dropKey (s : Scanner) : Except Fault Scanner :=
  if s.keyHere.possible && s.keyHere.required then .error missingColon
  else .ok { s with keyHere := { s.keyHere with possible := false } }

/-- Remembers that a key may start here. -/
def saveKey (s : Scanner) : Except Fault Scanner :=
  if s.keyAllowed then do
    let c := s.cursor
    let required := s.inBlock && s.indent == c.column
    let s ← s.dropKey
    return { s with
      keyHere := ⟨true, required, s.taken + s.queue.length, c.index, c.line, c.column⟩ }
  else .ok s

/-- Enters a block collection at `column`, if it is deeper than the present one; its start is put
in front of the token with the given number, or at the end. -/
def roll (s : Scanner) (column : Nat) (number : Option Nat) (t : Token) : Except Fault Scanner :=
  if s.inBlock && s.indent < column then
    if maxDepth ≤ s.outer.length then .error (.malformed "exceeded max depth of 10000")
    else
      let s := { s with outer := s.indent :: s.outer, indent := column }
      .ok (match number with
        | some n => s.insert n t
        | none => s.push t)
  else .ok s

/-- Leaves the columns of `outer` that are greater than `column`, with one end of a block each. -/
def unrollFrom (column : Int) (indent : Int) : (outer : List Int) → (ends : List Token) →
    Int × List Int × List Token
  | [], ends => (indent, [], ends)
  | next :: outer, ends =>
    if column < indent then unrollFrom column next outer (.blockEnd :: ends)
    else (indent, next :: outer, ends)

/-- Leaves the block collections that are deeper than `column`. -/
def unroll (s : Scanner) (column : Int) : Scanner :=
  if s.inBlock then
    let (indent, outer, ends) := unrollFrom column s.indent s.outer []
    { s with indent, outer, queue := s.queue ++ ends }
  else s

/-- The place after white space. -/
def skipSpace : (fuel : Nat) → Cursor → Cursor
  | 0, c => c
  | fuel + 1, c =>
    match c.rest with
    | x :: _ =>
      if isBlank x then skipSpace fuel c.skipBlanks
      else if isBreak x then skipSpace fuel c.skipBreak
      else c
    | [] => c

/-- The place after the comment lines from here on: each is a number sign and what follows it on
the line, and only white space stands between two of them. The place is the end of the last. -/
def skipComments : (fuel : Nat) → Cursor → Cursor
  | 0, c => c
  | fuel + 1, c =>
    let c := (c.takeWhile fun x => !isBreak x).2
    let between := (c.rest.takeWhile fun x => isBlank x || isBreak x).length
    match c.rest.drop between with
    | '#' :: _ => skipComments fuel (skipSpace (between + 1) c)
    | _ => c

/-- The place of the next token, and whether a key is allowed there: after white space and
comments. In a block a tab is no indentation. -/
def toNext (flow : Bool) : (fuel : Nat) → (keyAllowed : Bool) → Cursor → Bool × Cursor
  | 0, keyAllowed, c => (keyAllowed, c)
  | fuel + 1, keyAllowed, c =>
    let c := (c.takeWhile fun x => x == ' ' || ((flow || !keyAllowed) && x == '\t')).2
    let c := if c.isAt '#' then skipComments (fuel + 1) c else c
    match c.rest with
    | x :: _ =>
      if isBreak x then toNext flow fuel (keyAllowed || !flow) c.skipBreak
      else (keyAllowed, c)
    | [] => (keyAllowed, c)

/-- The place after the comment that follows a token on its line. -/
def skipLineComment (c : Cursor) : Cursor :=
  if c.fresh then c
  else
    let blanks := (c.rest.takeWhile isBlank).length
    if blanks < 512 && (c.rest.drop blanks).head? == some '#' then
      (c.takeWhile fun x => !isBreak x).2
    else c

/-- Moves the place of the scanner. -/
def moveTo (s : Scanner) (c : Cursor) : Scanner :=
  { s with cursor := c }

/-- Finds the end of the document. -/
def fetchEnd (s : Scanner) : Except Fault Scanner := do
  let c := s.cursor
  let c := if c.column = 0 then c else { c with column := 0, line := c.line + 1 }
  let s := (s.moveTo c).unroll (-1)
  let s ← s.dropKey
  return { s with keyAllowed := false }.push .streamEnd

/-- Finds a directive. -/
def fetchDirective (s : Scanner) : Except Fault Scanner := do
  let s ← (s.unroll (-1)).dropKey
  let (t, c) ← readDirective s.fuel s.cursor
  return ({ s with keyAllowed := false }.moveTo c).push t

/-- Finds the mark of the start or the end of a document. -/
def fetchMarker (s : Scanner) (t : Token) : Except Fault Scanner := do
  let s ← (s.unroll (-1)).dropKey
  return ({ s with keyAllowed := false }.moveTo (s.cursor.skip 3)).push t

/-- Finds the start of a flow collection. -/
def fetchFlowStart (s : Scanner) (t : Token) : Except Fault Scanner := do
  let s ← s.saveKey
  let s := { s with keysAround := s.keyHere :: s.keysAround, keyHere := noKey }
  if maxDepth < s.flowLevel then .error (.malformed "exceeded max depth of 10000")
  else return ({ s with keyAllowed := true }.moveTo (s.cursor.skip 1)).push t

/-- Finds the end of a flow collection. -/
def fetchFlowEnd (s : Scanner) (t : Token) : Except Fault Scanner := do
  let s ← s.dropKey
  let s := match s.keysAround with
    | k :: around => { s with keyHere := k, keysAround := around }
    | [] => s
  return ({ s with keyAllowed := false }.moveTo (s.cursor.skip 1)).push t

/-- Finds the comma of a flow collection. -/
def fetchFlowEntry (s : Scanner) : Except Fault Scanner := do
  let s ← s.dropKey
  return ({ s with keyAllowed := true }.moveTo (s.cursor.skip 1)).push .flowEntry

/-- Finds the indicator of an entry of a sequence. -/
def fetchBlockEntry (s : Scanner) : Except Fault Scanner := do
  let s ←
    if s.inBlock then
      if s.keyAllowed then s.roll s.cursor.column none .blockSequenceStart
      else .error (.malformed "block sequence entries are not allowed in this context")
    else pure s
  let s ← s.dropKey
  return ({ s with keyAllowed := true }.moveTo (s.cursor.skip 1)).push .blockEntry

/-- Finds the indicator of a key. -/
def fetchKey (s : Scanner) : Except Fault Scanner := do
  let s ←
    if s.inBlock then
      if s.keyAllowed then s.roll s.cursor.column none .blockMappingStart
      else .error (.malformed "mapping keys are not allowed in this context")
    else pure s
  let s ← s.dropKey
  return ({ s with keyAllowed := s.inBlock }.moveTo (s.cursor.skip 1)).push .key

/-- Finds the indicator of a value. If a key without an indicator came before it, the tokens of the
key are put in front of it. -/
def fetchValue (s : Scanner) : Except Fault Scanner := do
  let k := s.keyHere
  if k.possible && s.stale k && k.required then .error missingColon
  else if k.possible && !s.stale k then
    let s ← (s.insert k.number .key).roll k.column (some k.number) .blockMappingStart
    let s := { s with keyHere := { k with possible := false }, keyAllowed := false }
    return (s.moveTo (s.cursor.skip 1)).push .value
  else
    let s := { s with keyHere := { k with possible := false } }
    let s ←
      if s.inBlock then
        if s.keyAllowed then s.roll s.cursor.column none .blockMappingStart
        else .error (.malformed "mapping values are not allowed in this context")
      else pure s
    return ({ s with keyAllowed := s.inBlock }.moveTo (s.cursor.skip 1)).push .value

/-- Finds a token that may start a key, with the given reader. -/
def fetchKeyed (s : Scanner) (read : Cursor → Except Fault (Token × Cursor)) :
    Except Fault Scanner := do
  let s ← s.saveKey
  let (t, c) ← read s.cursor
  return ({ s with keyAllowed := false }.moveTo c).push t

/-- Finds a block scalar. -/
def fetchBlockScalar (s : Scanner) (literal : Bool) : Except Fault Scanner := do
  let s ← s.dropKey
  let (text, c) ← readBlock s.fuel literal s.indent (s.cursor.skip 1)
  return ({ s with keyAllowed := true }.moveTo c).push (.scalar (String.ofList text) false)

/-- Finds a plain scalar. After a line break a key may start again. -/
def fetchPlain (s : Scanner) : Except Fault Scanner := do
  let s ← s.saveKey
  let (text, atBreak, c) ←
    readPlain (!s.inBlock) (s.indent + 1).toNat s.fuel [] (.blanks []) s.cursor
  return ({ s with keyAllowed := atBreak }.moveTo c).push (.scalar (String.ofList text) true)

/-- Reads an anchor or an alias after its indicator. -/
def readNamed (token : String → Token) (c : Cursor) : Except Fault (Token × Cursor) := do
  let (name, c) ← readAnchor (c.skip 1)
  return (token name, c)

/-- Reads a quoted scalar. -/
def readQuotedToken (fuel : Nat) (single : Bool) (c : Cursor) : Except Fault (Token × Cursor) := do
  let (text, c) ← readQuoted single fuel [] (c.skip 1)
  return (.scalar (String.ofList text) false, c)

/-- The characters that start no plain scalar. -/
def isIndicator (x : Char) : Bool :=
  x == '-' || x == '?' || x == ':' || x == ',' || x == '[' || x == ']' || x == '{' || x == '}'
    || x == '#' || x == '&' || x == '*' || x == '!' || x == '|' || x == '>' || x == '\'' || x == '"'
    || x == '%' || x == '@' || x.toNat == 0x60

/-- Whether a plain scalar starts with `x` before `rest`. -/
def startsPlain (flow : Bool) (x : Char) (rest : List Char) : Bool :=
  !(isBlank x || isBreak x || isIndicator x)
    || (x == '-' && match rest with
      | y :: _ => !isBlank y
      | [] => true)
    || (!flow && (x == '?' || x == ':') && !blankAhead rest)

/-- Finds the token that starts with `x` before `rest`, which is no directive and no mark. -/
def fetchAt (s : Scanner) (x : Char) (rest : List Char) : Except Fault Scanner :=
  let flow := !s.inBlock
  if x == '[' then s.fetchFlowStart .flowSequenceStart
  else if x == '{' then s.fetchFlowStart .flowMappingStart
  else if x == ']' then s.fetchFlowEnd .flowSequenceEnd
  else if x == '}' then s.fetchFlowEnd .flowMappingEnd
  else if x == ',' then s.fetchFlowEntry
  else if x == '-' && blankAhead rest then s.fetchBlockEntry
  else if x == '?' && (flow || blankAhead rest) then s.fetchKey
  else if x == ':' && (flow || blankAhead rest) then s.fetchValue
  else if x == '*' then s.fetchKeyed (readNamed .alias)
  else if x == '&' then s.fetchKeyed (readNamed .anchor)
  else if x == '!' then s.fetchKeyed (readTag s.fuel)
  else if x == '|' && !flow then s.fetchBlockScalar true
  else if x == '>' && !flow then s.fetchBlockScalar false
  else if x == '\'' then s.fetchKeyed (readQuotedToken s.fuel true)
  else if x == '"' then s.fetchKeyed (readQuotedToken s.fuel false)
  else if startsPlain flow x rest then s.fetchPlain
  else .error (.malformed "found character that cannot start any token")

/-- Finds the next token. -/
def fetch (s : Scanner) : Except Fault Scanner :=
  if !s.started then .ok ({ s with started := true, keyAllowed := true }.push .streamStart)
  else
    let (keyAllowed, c) := toNext (!s.inBlock) s.fuel s.keyAllowed s.cursor
    let s := ({ s with keyAllowed }.moveTo c).unroll c.column
    match c.rest with
    | [] => s.fetchEnd
    | x :: rest =>
      if c.column == 0 && x == '%' then s.fetchDirective
      else if c.marker '-' then s.fetchMarker .documentStart
      else if c.marker '.' then s.fetchMarker .documentEnd
      else do
        let s ← s.fetchAt x rest
        if s.queue.getLast? == some .blockEntry then return s
        else return s.moveTo (skipLineComment s.cursor)

/-- Whether the token in front may turn out to be the start of a key. A required key that has lost
its colon is a fault. -/
def headIsKey (s : Scanner) : Except Fault Bool :=
  match (s.keyHere :: s.keysAround).find? fun k => k.possible && k.number == s.taken with
  | none => .ok false
  | some k =>
    if s.stale k then (if k.required then .error missingColon else .ok false) else .ok true

/-- Finds tokens until there are three and the first is settled. -/
def fill : (fuel : Nat) → Scanner → Except Fault Scanner
  | 0, s => .ok s
  | fuel + 1, s =>
    if s.queue.length < 3 then do
      let s ← s.fetch
      fill fuel s
    else do
      if ← s.headIsKey then
        let s ← s.fetch
        fill fuel s
      else return s

/-- The token in front, which is the end of the document if there are no more. -/
def peek (s : Scanner) : Except Fault (Token × Scanner) := do
  let s ← fill s.fuel s
  return (s.queue.headD .streamEnd, s)

/-- Takes the token in front. -/
def take (s : Scanner) : Scanner :=
  { s with queue := s.queue.tail, taken := s.taken + 1 }

end Scanner

end ImpHost.Yaml
