import ImpHost.Yaml.Resolve
import ImpHost.Yaml.Scanner

/-!
YAML documents as trees. Only the first document of a text is read. A tree is built from the tokens
by descent; every step takes fuel, of which the number of tokens is enough.

The reader is written after the documented rules of YAML. What is proved of manifests and of the
service relies on little of it: a document whose root is a mapping has a mark of one
(`not_unmarked_of_parse`), a document that is one word is that word (`parse_word`), a decimal
integer denotes itself or the nearest number of double precision (`resolve_integer`), and a text
without the mark of UTF-16 is read as UTF-8 (`strict_of_unmarked`). Beside these, fixed texts are
read. Nothing else of the reader is relied on.
-/

namespace ImpHost.Yaml

/-- A scalar with its tag in short form. -/
structure Leaf where
  tag : String
  text : String
deriving DecidableEq

/-- A tree. An alias keeps the scalar that it stands for, or nothing for a collection. -/
inductive Node where
  | scalar (leaf : Leaf)
  | sequence (items : List Node)
  | mapping (entries : List (Node × Node))
  | alias (name : String) (target : Option Leaf)
deriving Inhabited

/-- The text of a tree where a name is wanted: that of a scalar, the name of an alias, and
nothing for a collection. -/
def Node.text : Node → String
  | .scalar leaf => leaf.text
  | .sequence _ => ""
  | .mapping _ => ""
  | .alias name _ => name

/-- What is known in the middle of a document: the tokens ahead, the handles of tags, and the
anchors so far, the last one first. -/
structure Composer where
  scanner : Scanner
  handles : List (String × String)
  anchors : List (String × Option Leaf)

/-- A step in building a tree. -/
abbrev Compose := StateT Composer (Except Fault)

namespace Compose

/-- Looks at the token ahead. -/
def peek : Compose Token := fun c => do
  let (t, scanner) ← c.scanner.peek
  return (t, { c with scanner })

/-- Takes the token ahead. -/
def skip : Compose Unit := fun c =>
  return ((), { c with scanner := c.scanner.take })

/-- Takes the token ahead and looks at the next. -/
def skipPeek : Compose Token := do
  skip
  peek

/-- Gives up. -/
def fail {α : Type} (problem : String) : Compose α :=
  throw (.malformed problem)

/-- The scalar that stands where nothing is written. -/
def emptyScalar : Node :=
  .scalar ⟨Tag.null, ""⟩

/-- The tag in full: its handle is replaced by what it stands for. -/
def expandTag (handle suffix : String) : Compose String := do
  if handle = "" then return suffix
  else
    match (← get).handles.lookup handle with
    | some front => return front ++ suffix
    | none => fail "found undefined tag handle"

/-- Reads the anchor and the tag in front of a tree, in either order. Returns the token after
them. -/
def properties : Compose (Option String × Option String × Token) := do
  match ← peek with
  | .anchor name =>
    match ← skipPeek with
    | .tag handle suffix =>
      let t ← skipPeek
      return (some name, some (← expandTag handle suffix), t)
    | t => return (some name, none, t)
  | .tag handle suffix =>
    match ← skipPeek with
    | .anchor name =>
      let t ← skipPeek
      return (some name, some (← expandTag handle suffix), t)
    | t => return (none, some (← expandTag handle suffix), t)
  | t => return (none, none, t)

/-- Remembers what an anchor stands for. -/
def anchor (name : Option String) (target : Option Leaf) : Compose Unit :=
  match name with
  | some name => modify fun c => { c with anchors := (name, target) :: c.anchors }
  | none => pure ()

/-- The tag of a scalar: its own, or else that of strings if it is not plain, or else that of what
it denotes. -/
def scalarTag (tag : Option String) (text : String) (plain : Bool) : String :=
  match tag with
  | some tag => if tag = "" || tag = "!" then default else Tag.short tag
  | none => default
where
  /-- The tag of a scalar that has none. -/
  default : String :=
    if !plain then Tag.str
    else if text = "<<" then Tag.merge
    else (resolve text).tag

/-- A scalar with its properties. -/
def leaf (name tag : Option String) (text : String) (plain : Bool) : Compose Node := do
  let leaf : Leaf := ⟨scalarTag tag text plain, text⟩
  anchor name (some leaf)
  return .scalar leaf

mutual

/-- Reads a tree. Block collections are read only if `block` holds, and a sequence at the column of
its mapping only if `indentless` holds. -/
def node : (fuel : Nat) → (block indentless : Bool) → Compose Node
  | 0, _, _ => fail "did not find expected node content"
  | fuel + 1, block, indentless => do
    if let .alias name ← peek then
      skip
      match (← get).anchors.lookup name with
      | some target => return .alias name target
      | none => throw (.unknownAnchor name)
    else
      let (name, tag, t) ← properties
      match t with
      | .scalar text plain =>
        skip
        leaf name tag text plain
      | .flowSequenceStart =>
        anchor name none
        skip
        flowSequence fuel true []
      | .flowMappingStart =>
        anchor name none
        skip
        flowMapping fuel true []
      | t =>
        if indentless && t = .blockEntry then
          anchor name none
          indentlessSequence fuel []
        else if block && t = .blockSequenceStart then
          anchor name none
          skip
          blockSequence fuel []
        else if block && t = .blockMappingStart then
          anchor name none
          skip
          blockMapping fuel []
        else if name.isSome || (tag.getD "") ≠ "" then leaf name tag "" true
        else fail "did not find expected node content"

/-- Reads the entries of a block sequence; those so far are in reverse order. -/
def blockSequence : (fuel : Nat) → List Node → Compose Node
  | 0, _ => fail "did not find expected '-' indicator"
  | fuel + 1, items => do
    match ← peek with
    | .blockEntry =>
      let t ← skipPeek
      if t = .blockEntry || t = .blockEnd then blockSequence fuel (emptyScalar :: items)
      else
        let item ← node fuel true false
        blockSequence fuel (item :: items)
    | .blockEnd =>
      skip
      return .sequence items.reverse
    | _ => fail "did not find expected '-' indicator"

/-- Reads the entries of a sequence at the column of its mapping. -/
def indentlessSequence : (fuel : Nat) → List Node → Compose Node
  | 0, _ => fail "did not find expected '-' indicator"
  | fuel + 1, items => do
    match ← peek with
    | .blockEntry =>
      let t ← skipPeek
      if t = .blockEntry || t = .key || t = .value || t = .blockEnd then
        indentlessSequence fuel (emptyScalar :: items)
      else
        let item ← node fuel true false
        indentlessSequence fuel (item :: items)
    | _ => return .sequence items.reverse

/-- Reads the value of an entry of a block mapping. -/
def blockValue : (fuel : Nat) → Compose Node
  | 0 => fail "did not find expected key"
  | fuel + 1 => do
    match ← peek with
    | .value =>
      let t ← skipPeek
      if t = .key || t = .value || t = .blockEnd then return emptyScalar
      else node fuel true true
    | _ => return emptyScalar

/-- Reads the entries of a block mapping; those so far are in reverse order. -/
def blockMapping : (fuel : Nat) → List (Node × Node) → Compose Node
  | 0, _ => fail "did not find expected key"
  | fuel + 1, entries => do
    match ← peek with
    | .key =>
      let t ← skipPeek
      let key ←
        if t = .key || t = .value || t = .blockEnd then pure emptyScalar
        else node fuel true true
      let value ← blockValue fuel
      blockMapping fuel ((key, value) :: entries)
    | .blockEnd =>
      skip
      return .mapping entries.reverse
    | _ => fail "did not find expected key"

/-- Reads the value of an entry of a flow collection that ends with `close`. -/
def flowValue : (fuel : Nat) → (close : Token) → Compose Node
  | 0, _ => fail "did not find expected node content"
  | fuel + 1, close => do
    match ← peek with
    | .value =>
      let t ← skipPeek
      if t = .flowEntry || t = close then return emptyScalar
      else node fuel false false
    | _ => return emptyScalar

/-- Reads the entries of a flow sequence; those so far are in reverse order. An entry with a key
is a mapping of its own. -/
def flowSequence : (fuel : Nat) → (first : Bool) → List Node → Compose Node
  | 0, _, _ => fail "did not find expected ',' or ']'"
  | fuel + 1, first, items => do
    let t ← peek
    if t = .flowSequenceEnd then
      skip
      return .sequence items.reverse
    else
      let t ←
        if first then pure t
        else if t = .flowEntry then skipPeek
        else fail "did not find expected ',' or ']'"
      match t with
      | .key =>
        let t ← skipPeek
        let key ←
          if t = .value || t = .flowEntry || t = .flowSequenceEnd then do
            skip
            pure emptyScalar
          else node fuel false false
        let value ← flowValue fuel .flowSequenceEnd
        flowSequence fuel false (.mapping [(key, value)] :: items)
      | .flowSequenceEnd =>
        skip
        return .sequence items.reverse
      | _ =>
        let item ← node fuel false false
        flowSequence fuel false (item :: items)

/-- Reads the entries of a flow mapping; those so far are in reverse order. -/
def flowMapping : (fuel : Nat) → (first : Bool) → List (Node × Node) → Compose Node
  | 0, _, _ => fail "did not find expected ',' or closing brace"
  | fuel + 1, first, entries => do
    let t ← peek
    if t = .flowMappingEnd then
      skip
      return .mapping entries.reverse
    else
      let t ←
        if first then pure t
        else if t = .flowEntry then skipPeek
        else fail "did not find expected ',' or closing brace"
      match t with
      | .key =>
        let t ← skipPeek
        let key ←
          if t = .value || t = .flowEntry || t = .flowMappingEnd then pure emptyScalar
          else node fuel false false
        let value ← flowValue fuel .flowMappingEnd
        flowMapping fuel false ((key, value) :: entries)
      | .flowMappingEnd =>
        skip
        return .mapping entries.reverse
      | _ =>
        let key ← node fuel false false
        flowMapping fuel false ((key, emptyScalar) :: entries)

end

/-- Reads the directives in front of a document. -/
def directives : (fuel : Nat) → (versioned : Bool) → Compose Unit
  | 0, _ => fail "did not find expected <document start>"
  | fuel + 1, versioned => do
    match ← peek with
    | .version major minor =>
      if versioned then fail "found duplicate %YAML directive"
      else if major ≠ 1 || minor ≠ 1 then fail "found incompatible YAML document"
      else
        skip
        directives fuel true
    | .tagDirective handle uri =>
      if (((← get).handles.lookup handle).isSome) then fail "found duplicate %TAG directive"
      else
        modify fun c => { c with handles := c.handles ++ [(handle, uri)] }
        skip
        directives fuel versioned
    | _ => pure ()

/-- The handles that are always known; those of the directives come first. -/
def commonHandles : List (String × String) :=
  [("!", "!"), ("!!", Tag.longFront)]

/-- Reads the first document, if there is one. After it comes the mark of its end or something that
cannot be a part of it, at which nothing is done. -/
def document (fuel : Nat) : Compose (Option Node) := do
  if (← peek) = .streamStart then skip
  let t ← peek
  let explicit := match t with
    | .version _ _ | .tagDirective _ _ | .documentStart => true
    | _ => false
  if t = .streamEnd then return none
  else if explicit then
    directives fuel false
    modify fun c => { c with handles := c.handles ++ commonHandles }
    if (← peek) ≠ .documentStart then fail "did not find expected <document start>"
    else
      match ← skipPeek with
      | .version _ _ | .tagDirective _ _ | .documentStart | .documentEnd | .streamEnd =>
        return some emptyScalar
      | _ =>
        let root ← node fuel true false
        let _ ← peek
        return some root
  else
    modify fun c => { c with handles := commonHandles }
    let root ← node fuel true false
    let _ ← peek
    return some root

end Compose

/-- The first document of a text, none if the text has no document. -/
def parse (t : Text) : Except Fault (Option Node) := do
  let cs ← characters t
  let cs := if cs.isEmpty then ['\n'] else cs
  let fuel := 4 * cs.length + 20
  let (root, _) ← (Compose.document fuel).run ⟨.start cs, [], []⟩
  return root

end ImpHost.Yaml
