import ImpHost.Program.Parser

/-!
The parser with a table of what it tried in vain.

`Parser` hands the outcome of an unsuccessful attempt at arithmetic on to the production that tries
the same parentheses next. Here the whole parse has one table instead, which every production reads
and extends: the positions of the open parentheses at which an attempt was given up. An attempt at
a position of the table is not made again. The cursor is explicit as well. An attempt that finds
nothing says where it leaves the cursor, and what follows starts from there or goes back.

The notes are taken or not (`keeps`). Without them every attempt is made anew, so that the two ways
to parse can be compared; that it makes no difference is `notes_are_transparent`.
-/

namespace ImpHost.Parser

/-- The positions at which an attempt at arithmetic was given up, the latest first. Positions are
only ever added, so the table of every earlier moment is what the list ends in. -/
abbrev Notes := List Nat

/-- A production that takes notes. They are kept whether it succeeds or fails. -/
abbrev Noting := ExceptT GrammarError (StateM Notes)

namespace Noting

/-- An attempt to read something that may not be there. -/
inductive Trial (α : Type) (ts : List Token) where
  | hit (found : Parsed α ts)
  /-- Nothing was read, and the cursor is in front of `rest`. -/
  | miss (rest : List Token)

/-- What needs no notes. -/
def once {α : Type} (x : Except GrammarError α) : Noting α :=
  fun notes => (x, notes)

/-- An attempt that has to succeed. Where the cursor is left, there something is missing. -/
def required {α : Type} {ts : List Token} (stop : Int) (missing : Missing) :
    Trial α ts → Except GrammarError (Parsed α ts)
  | .hit found => .ok found
  | .miss rest => .error (fail stop rest missing)

section

variable (keeps : Bool) (tokens : List Token)

/-- The position of `ts`, which are the last of the tokens. -/
def position (ts : List Token) : Nat :=
  tokens.length - ts.length

/-- Gives an attempt at arithmetic up: the cursor goes back to where the attempt began, and the
position is noted. -/
def giveUp (ts : List Token) : Noting (Trial AExpr ts) :=
  fun notes => (.ok (.miss ts), if keeps then position tokens ts :: notes else notes)

/-- Tries to read an arithmetic expression, unless it was tried here before. -/
def tryArith : (ts : List Token) → Noting (Trial AExpr ts)
  | [] => return .miss []
  | t :: ts =>
    match t.kind with
    | .int => return .hit ⟨.int t.value, ts, Nat.lt_succ_self _⟩
    | .var => return .hit ⟨.var t.text, ts, Nat.lt_succ_self _⟩
    | .lparen => do
      let notes ← get
      if position tokens (t :: ts) ∈ notes then return .miss (t :: ts)
      else
        match ← tryArith ts with
        | .miss _ => giveUp keeps tokens (t :: ts)
        | .hit left =>
          match operator? arithOp? left.rest with
          | none => giveUp keeps tokens (t :: ts)
          | some op =>
            let tried ← tryArith op.rest
            let right ← once (required (stopOf tokens) (.arith (.afterArith op.tree)) tried)
            let close ← once (expect (stopOf tokens) .rparen .closeArith right.rest)
            return .hit ⟨.binary op.tree left.tree right.tree, close.rest,
              close.below (right.below (op.below (left.below (Nat.lt_succ_self _))))⟩
    | _ => return .miss (t :: ts)
termination_by ts => ts.length
decreasing_by
  · exact Nat.lt_succ_self _
  · exact op.below (left.below (Nat.lt_succ_self _))

/-- Reads an arithmetic expression. -/
def parseArith (place : Place) (ts : List Token) : Noting (Parsed AExpr ts) := do
  let tried ← tryArith keeps tokens ts
  once (required (stopOf tokens) (.arith place) tried)

/-- What is left after four parts, each read where the one before ends, is less than there was. -/
theorem shorter_of_parts {α β γ δ : Type} {ts : List Token} (first : Parsed α ts)
    (second : Parsed β first.rest) (third : Parsed γ second.rest) (fourth : Parsed δ third.rest) :
    fourth.rest.length < ts.length :=
  fourth.below (third.below (second.below first.shorter))

/-- Tries to read the rest of a comparison after its open parenthesis. If a comparison sign is
missing, the cursor stays behind the left operand. -/
def tryCompare (ts : List Token) : Noting (Trial BExpr ts) := do
  match ← tryArith keeps tokens ts with
  | .miss rest => return .miss rest
  | .hit left =>
    match operator? compareOp? left.rest with
    | none => return .miss left.rest
    | some op =>
      let right ← parseArith keeps tokens (.afterCompare op.tree) op.rest
      let close ← once (expect (stopOf tokens) .rparen .closeCompare right.rest)
      return .hit ⟨.compare op.tree left.tree right.tree, close.rest,
        shorter_of_parts left op right close⟩

/-- Reads a boolean expression. Where there is no comparison, the cursor goes back behind the open
parenthesis, and a combination is read. -/
def parseBool (place : Place) : (ts : List Token) → Noting (Parsed BExpr ts)
  | [] => once (.error (fail (stopOf tokens) [] (.bool place)))
  | t :: ts =>
    match t.kind with
    | .keyword .kTrue => return ⟨.lit true, ts, Nat.lt_succ_self _⟩
    | .keyword .kFalse => return ⟨.lit false, ts, Nat.lt_succ_self _⟩
    | .keyword .kNot => do
      let opened ← once (expect (stopOf tokens) .lparen .afterNot ts)
      let operand ← parseBool .insideNot opened.rest
      let close ← once (expect (stopOf tokens) .rparen .closeNot operand.rest)
      return ⟨.not operand.tree, close.rest,
        close.below (operand.below (opened.below (Nat.lt_succ_self _)))⟩
    | .lparen => do
      match ← tryCompare keeps tokens ts with
      | .hit compare => return ⟨compare.tree, compare.rest, compare.below (Nat.lt_succ_self _)⟩
      | .miss _ =>
        let left ← parseBool .afterOpen ts
        match operator? boolOp? left.rest with
        | none => once (.error (fail (stopOf tokens) left.rest .connective))
        | some op =>
          let right ← parseBool (.afterBool op.tree) op.rest
          let close ← once (expect (stopOf tokens) .rparen .closeBool right.rest)
          return ⟨.binary op.tree left.tree right.tree, close.rest,
            close.below (right.below (op.below (left.below (Nat.lt_succ_self _))))⟩
    | _ => once (.error (fail (stopOf tokens) (t :: ts) (.bool place)))
termination_by ts => ts.length
decreasing_by
  · exact opened.below (Nat.lt_succ_self _)
  · exact Nat.lt_succ_self _
  · exact op.below (left.below (Nat.lt_succ_self _))

mutual

/-- Reads an atomic command. -/
def parseAtomic (ts : List Token) : Noting (Parsed Command ts) :=
  match ts with
  | [] => once (.error (fail (stopOf tokens) [] .command))
  | t :: ts =>
    match t.kind with
    | .keyword .kSkip => return ⟨.skip, ts, Nat.lt_succ_self _⟩
    | .var => do
      let assign ← once (expect (stopOf tokens) (.operator .assign) (.afterVariable t.text) ts)
      let value ← parseArith keeps tokens .rightHandSide assign.rest
      return ⟨.assign t.text value.tree, value.rest,
        value.below (assign.below (Nat.lt_succ_self _))⟩
    | .keyword .kIf => do
      let cond ← parseBool keeps tokens .afterIf ts
      let thenMark ← once (expect (stopOf tokens) (.keyword .kThen) .afterIfCondition cond.rest)
      have opened := thenMark.below (cond.below (Nat.lt_succ_self _))
      let yes ← parseCommand thenMark.rest
      let elseMark ← once (expect (stopOf tokens) (.keyword .kElse) .afterThenBranch yes.rest)
      have halfway := elseMark.below (yes.below opened)
      let no ← parseCommand elseMark.rest
      let close ← once (expect (stopOf tokens) (.keyword .kEnd) .closeIf no.rest)
      return ⟨.ite cond.tree yes.tree no.tree, close.rest,
        close.below (no.below halfway)⟩
    | .keyword .kWhile => do
      let cond ← parseBool keeps tokens .afterWhile ts
      let doMark ← once (expect (stopOf tokens) (.keyword .kDo) .afterWhileCondition cond.rest)
      have opened := doMark.below (cond.below (Nat.lt_succ_self _))
      let body ← parseCommand doMark.rest
      let close ← once (expect (stopOf tokens) (.keyword .kEnd) .closeWhile body.rest)
      return ⟨.whileDo cond.tree body.tree, close.rest,
        close.below (body.below opened)⟩
    | _ => once (.error (fail (stopOf tokens) (t :: ts) .command))
termination_by (ts.length, 0)
decreasing_by
  · exact Prod.Lex.left _ _ opened
  · exact Prod.Lex.left _ _ halfway
  · exact Prod.Lex.left _ _ opened

/-- Reads a command. -/
def parseCommand (ts : List Token) : Noting (Parsed Command ts) := do
  let first ← parseAtomic ts
  parseMore first.tree first.rest first.shorter
termination_by (ts.length, 2)
decreasing_by
  · exact Prod.Lex.right _ Nat.zero_lt_two
  · exact Prod.Lex.left _ _ first.shorter

/-- Reads the atomic commands that follow `left` after semicolons. -/
def parseMore {whole : List Token} (left : Command) (ts : List Token)
    (shorter : ts.length < whole.length) : Noting (Parsed Command whole) :=
  match ts with
  | [] => return ⟨left, [], shorter⟩
  | t :: rest =>
    if t.kind = .semi then do
      let right ← parseAtomic rest
      parseMore (.seq left right.tree) right.rest (right.below (Nat.lt_of_succ_lt shorter))
    else return ⟨left, t :: rest, shorter⟩
termination_by (ts.length, 1)
decreasing_by
  · exact Prod.Lex.left _ _ (Nat.lt_succ_self _)
  · exact Prod.Lex.left _ _ (right.below (Nat.lt_succ_self _))

end

/-- Parses the tokens as a program. -/
def parseProgram : Noting Command :=
  if tokens.isEmpty then once (.error .emptyProgram)
  else do
    let program ← parseCommand keeps tokens tokens
    let after := current (stopOf tokens) program.rest
    if after.kind = .eof then return program.tree
    else once (.error (.trailing after))

end

end Noting

end ImpHost.Parser

namespace ImpHost.Command

/-- The program that the tokens spell, and the notes that were taken. The parse begins with an empty
table. -/
def ofTokensNoting (keeps : Bool) (ts : List Token) : Except GrammarError Command × Parser.Notes :=
  Parser.Noting.parseProgram keeps ts []

end ImpHost.Command
