import ImpHost.Diagnostic.Basic
import ImpHost.Parsed
import ImpHost.Program.Basic
import ImpHost.Text.Basic
import ImpHost.Token.Lexer

/-!
The parser: recursive descent over the remaining tokens. An open parenthesis may start an
arithmetic expression, a comparison or a combination, so arithmetic is *tried*: it is there, or it
is not and everything is left to be read differently, or it fails for good once its operator has
been read. An attempt that finds nothing says at how many of the open parentheses ahead there is no
arithmetic, so that nested combinations do not try the same parentheses again at every level.

Each production returns the tokens after what it read with a proof that they are fewer, which is
why the parser ends.
-/

namespace ImpHost

/-- Where the parser is when it misses something. -/
inductive Place where
  | afterVariable (name : String)
  | rightHandSide
  | afterIf | afterIfCondition | afterThenBranch | closeIf
  | afterWhile | afterWhileCondition | closeWhile
  | afterArith (op : ArithOp) | closeArith
  | afterCompare (op : CompareOp) | closeCompare
  | afterNot | insideNot | closeNot
  | afterOpen | afterBool (op : BoolOp) | closeBool
deriving DecidableEq

/-- A place in messages. -/
def Place.text : Place → String
  | .afterVariable x => "after variable '" ++ x ++ "'"
  | .rightHandSide => "on right-hand side of ':='"
  | .afterIf => "after 'if'"
  | .afterIfCondition => "after 'if' condition"
  | .afterThenBranch => "after 'then' branch"
  | .closeIf => "to close 'if'"
  | .afterWhile => "after 'while'"
  | .afterWhileCondition => "after 'while' condition"
  | .closeWhile => "to close 'while'"
  | .afterArith op => "after '" ++ op.spelling ++ "'"
  | .closeArith => "to close arithmetic expression"
  | .afterCompare op => "after '" ++ op.spelling ++ "'"
  | .closeCompare => "to close comparison"
  | .afterNot => "after 'not'"
  | .insideNot => "inside 'not'"
  | .closeNot => "to close 'not'"
  | .afterOpen => "after '('"
  | .afterBool op => "after '" ++ op.spelling ++ "'"
  | .closeBool => "to close boolean expression"

/-- What the parser misses. -/
inductive Missing where
  | token (kind : Token.Kind) (place : Place)
  | command
  | arith (place : Place)
  | bool (place : Place)
  | connective
deriving DecidableEq

/-- What is missing, in messages. -/
def Missing.text : Missing → String
  | .token kind place => kind.describe ++ " " ++ place.text
  | .command => "a command ('skip', assignment, 'if' or 'while')"
  | .arith place => "arithmetic expression " ++ place.text
  | .bool place => "boolean expression " ++ place.text
  | .connective => "'and' or 'or' in boolean expression"

/-- Why tokens are no program. -/
inductive GrammarError where
  /-- The source is longer than a program may be. -/
  | tooLarge
  /-- There are no tokens. -/
  | emptyProgram
  /-- The token after the program. -/
  | trailing (found : Token)
  /-- What is missing, and the token in its place. -/
  | expected (missing : Missing) (found : Token)
deriving DecidableEq

/-- The greatest size of a source, in bytes. -/
def maxSourceSize : Nat := 131072

/-- The diagnostic of a violation of the grammar. -/
def GrammarError.report : GrammarError → Diagnostic
  | .tooLarge =>
    .grammar 0 ("source exceeds maximum size of " ++ toString maxSourceSize ++ " bytes")
  | .emptyProgram => .grammar 1 "empty program: expected a command"
  | .trailing t => .grammar t.pos ("unexpected " ++ t.found ++ " after end of program")
  | .expected missing t =>
    .grammar t.pos ("expected " ++ missing.text ++ ", found " ++ t.found)

/-- Why a source is no program. -/
inductive ParseError where
  | lexical (e : LexError)
  | grammar (e : GrammarError)
deriving DecidableEq

/-- The diagnostic of a source that is no program. -/
def ParseError.report : ParseError → Diagnostic
  | .lexical e => e.report
  | .grammar e => e.report

namespace Parser

/-- The token in front of `ts`, or the end of the input, which is at `stop`. -/
def current (stop : Int) : List Token → Token
  | [] => ⟨.eof, "", 0, stop⟩
  | t :: _ => t

/-- The failure to find what is missing in front of `ts`. -/
def fail (stop : Int) (ts : List Token) (missing : Missing) : GrammarError :=
  .expected missing (current stop ts)

/-- Reads a token of the given kind. -/
def expect (stop : Int) (kind : Token.Kind) (place : Place) :
    (ts : List Token) → Except GrammarError (Parsed Unit ts)
  | [] => .error (fail stop [] (.token kind place))
  | t :: ts =>
    if t.kind = kind then .ok ⟨(), ts, Nat.lt_succ_self _⟩
    else .error (fail stop (t :: ts) (.token kind place))

/-- The arithmetic operator that a kind of token spells. -/
def arithOp? : Token.Kind → Option ArithOp
  | .operator .plus => some .add
  | .operator .minus => some .sub
  | .operator .star => some .mul
  | _ => none

/-- The comparison that a kind of token spells. -/
def compareOp? : Token.Kind → Option CompareOp
  | .operator .lte => some .le
  | .operator .eq => some .eq
  | _ => none

/-- The connective that a kind of token spells. -/
def boolOp? : Token.Kind → Option BoolOp
  | .keyword .kAnd => some .and
  | .keyword .kOr => some .or
  | _ => none

/-- Reads an operator, if one that `read` knows is in front of `ts`. -/
def operator? {α : Type} (read : Token.Kind → Option α) : (ts : List Token) → Option (Parsed α ts)
  | [] => none
  | t :: ts => (read t.kind).map fun op => ⟨op, ts, Nat.lt_succ_self _⟩

/-- An attempt to read something that may not be there. -/
inductive Attempt (α : Type) (ts : List Token) where
  | hit (found : Parsed α ts)
  /-- Nothing was read. The first `opens` tokens are open parentheses, and no arithmetic expression
  starts at any of them. -/
  | miss (opens : Nat)

/-- An attempt that has to succeed. -/
def required {α : Type} {ts : List Token} (stop : Int) (missing : Missing) :
    Attempt α ts → Except GrammarError (Parsed α ts)
  | .hit found => .ok found
  | .miss _ => .error (fail stop ts missing)

/-- Tries to read an arithmetic expression: an integer, a variable, or an operation in
parentheses. -/
def tryArith (stop : Int) : (ts : List Token) → Except GrammarError (Attempt AExpr ts)
  | [] => .ok (.miss 0)
  | t :: ts =>
    match t.kind with
    | .int => .ok (.hit ⟨.int t.value, ts, Nat.lt_succ_self _⟩)
    | .var => .ok (.hit ⟨.var t.text, ts, Nat.lt_succ_self _⟩)
    | .lparen => do
      match ← tryArith stop ts with
      | .miss opens => return .miss (opens + 1)
      | .hit left =>
        let some op := operator? arithOp? left.rest | return .miss 1
        let right ← required stop (.arith (.afterArith op.tree)) (← tryArith stop op.rest)
        let close ← expect stop .rparen .closeArith right.rest
        return .hit ⟨.binary op.tree left.tree right.tree, close.rest,
          close.below (right.below (op.below (left.below (Nat.lt_succ_self _))))⟩
    | _ => .ok (.miss 0)
termination_by ts => ts.length
decreasing_by
  · exact Nat.lt_succ_self _
  · exact op.below (left.below (Nat.lt_succ_self _))

/-- Reads an arithmetic expression. -/
def parseArith (stop : Int) (place : Place) (ts : List Token) :
    Except GrammarError (Parsed AExpr ts) := do
  required stop (.arith place) (← tryArith stop ts)

/-- Tries to read the rest of a comparison after its open parenthesis, where no arithmetic
expression starts at the first `opens` tokens. -/
def tryCompare (stop : Int) (opens : Nat) (ts : List Token) :
    Except GrammarError (Attempt BExpr ts) := do
  if 0 < opens then return .miss opens
  else
    match ← tryArith stop ts with
    | .miss opens => return .miss opens
    | .hit left =>
      let some op := operator? compareOp? left.rest | return .miss 0
      let right ← parseArith stop (.afterCompare op.tree) op.rest
      let close ← expect stop .rparen .closeCompare right.rest
      return .hit ⟨.compare op.tree left.tree right.tree, close.rest,
        close.below (right.below (op.below left.shorter))⟩

/-- Reads a boolean expression, where no arithmetic expression starts at the first `opens` tokens.
After an open parenthesis a comparison is tried first, and if there is none, a combination is
read. -/
def parseBool (stop : Int) (opens : Nat) (place : Place) :
    (ts : List Token) → Except GrammarError (Parsed BExpr ts)
  | [] => .error (fail stop [] (.bool place))
  | t :: ts =>
    match t.kind with
    | .keyword .kTrue => .ok ⟨.lit true, ts, Nat.lt_succ_self _⟩
    | .keyword .kFalse => .ok ⟨.lit false, ts, Nat.lt_succ_self _⟩
    | .keyword .kNot => do
      let opened ← expect stop .lparen .afterNot ts
      let operand ← parseBool stop 0 .insideNot opened.rest
      let close ← expect stop .rparen .closeNot operand.rest
      return ⟨.not operand.tree, close.rest,
        close.below (operand.below (opened.below (Nat.lt_succ_self _)))⟩
    | .lparen => do
      match ← tryCompare stop (opens - 1) ts with
      | .hit compare => return ⟨compare.tree, compare.rest, compare.below (Nat.lt_succ_self _)⟩
      | .miss opens =>
        let left ← parseBool stop opens .afterOpen ts
        let some op := operator? boolOp? left.rest | .error (fail stop left.rest .connective)
        let right ← parseBool stop 0 (.afterBool op.tree) op.rest
        let close ← expect stop .rparen .closeBool right.rest
        return ⟨.binary op.tree left.tree right.tree, close.rest,
          close.below (right.below (op.below (left.below (Nat.lt_succ_self _))))⟩
    | _ => .error (fail stop (t :: ts) (.bool place))
termination_by ts => ts.length
decreasing_by
  · exact opened.below (Nat.lt_succ_self _)
  · exact Nat.lt_succ_self _
  · exact op.below (left.below (Nat.lt_succ_self _))

mutual

/-- Reads an atomic command: `skip`, an assignment, a conditional or a loop. -/
def parseAtomic (stop : Int) (ts : List Token) : Except GrammarError (Parsed Command ts) :=
  match ts with
  | [] => .error (fail stop [] .command)
  | t :: ts =>
    match t.kind with
    | .keyword .kSkip => .ok ⟨.skip, ts, Nat.lt_succ_self _⟩
    | .var => do
      let assign ← expect stop (.operator .assign) (.afterVariable t.text) ts
      let value ← parseArith stop .rightHandSide assign.rest
      return ⟨.assign t.text value.tree, value.rest,
        value.below (assign.below (Nat.lt_succ_self _))⟩
    | .keyword .kIf => do
      let cond ← parseBool stop 0 .afterIf ts
      let thenMark ← expect stop (.keyword .kThen) .afterIfCondition cond.rest
      have opened := thenMark.below (cond.below (Nat.lt_succ_self _))
      let yes ← parseCommand stop thenMark.rest
      let elseMark ← expect stop (.keyword .kElse) .afterThenBranch yes.rest
      have halfway := elseMark.below (yes.below opened)
      let no ← parseCommand stop elseMark.rest
      let close ← expect stop (.keyword .kEnd) .closeIf no.rest
      return ⟨.ite cond.tree yes.tree no.tree, close.rest,
        close.below (no.below halfway)⟩
    | .keyword .kWhile => do
      let cond ← parseBool stop 0 .afterWhile ts
      let doMark ← expect stop (.keyword .kDo) .afterWhileCondition cond.rest
      have opened := doMark.below (cond.below (Nat.lt_succ_self _))
      let body ← parseCommand stop doMark.rest
      let close ← expect stop (.keyword .kEnd) .closeWhile body.rest
      return ⟨.whileDo cond.tree body.tree, close.rest,
        close.below (body.below opened)⟩
    | _ => .error (fail stop (t :: ts) .command)
termination_by (ts.length, 0)
decreasing_by
  · exact Prod.Lex.left _ _ opened
  · exact Prod.Lex.left _ _ halfway
  · exact Prod.Lex.left _ _ opened

/-- Reads a command: atomic commands with semicolons between them, nested to the left. -/
def parseCommand (stop : Int) (ts : List Token) : Except GrammarError (Parsed Command ts) := do
  let first ← parseAtomic stop ts
  parseMore stop first.tree first.rest first.shorter
termination_by (ts.length, 2)
decreasing_by
  · exact Prod.Lex.right _ Nat.zero_lt_two
  · exact Prod.Lex.left _ _ first.shorter

/-- Reads the atomic commands that follow `left` after semicolons. The tokens `whole` are those
of which `left` was read. -/
def parseMore {whole : List Token} (stop : Int) (left : Command) (ts : List Token)
    (shorter : ts.length < whole.length) : Except GrammarError (Parsed Command whole) :=
  match ts with
  | [] => .ok ⟨left, [], shorter⟩
  | t :: rest =>
    if t.kind = .semi then do
      let right ← parseAtomic stop rest
      parseMore stop (.seq left right.tree) right.rest
        (right.below (Nat.lt_of_succ_lt shorter))
    else .ok ⟨left, t :: rest, shorter⟩
termination_by (ts.length, 1)
decreasing_by
  · exact Prod.Lex.left _ _ (Nat.lt_succ_self _)
  · exact Prod.Lex.left _ _ (right.below (Nat.lt_succ_self _))

end

/-- The position just after the last token. -/
def stopOf (ts : List Token) : Int :=
  match ts.getLast? with
  | none => 1
  | some t => t.pos + t.text.length

end Parser

/-- The program that the tokens spell. A token for the end of the input ends the program, whatever
follows it. -/
def Command.ofTokens (ts : List Token) : Except GrammarError Command :=
  if ts.isEmpty then .error .emptyProgram
  else do
    let stop := Parser.stopOf ts
    let program ← Parser.parseCommand stop ts
    let after := Parser.current stop program.rest
    if after.kind = .eof then return program.tree
    else .error (.trailing after)

/-- The program that a source spells, if its size is within the limit. -/
def Command.parse (source : Text) : Except ParseError Command :=
  if maxSourceSize < source.size then .error (.grammar .tooLarge)
  else
    match Token.lex source.chars with
    | .error e => .error (.lexical e)
    | .ok ts => (Command.ofTokens ts).mapError .grammar

end ImpHost
