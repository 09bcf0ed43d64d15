import ImpHost.Program.Basic
import ImpHost.Token.Basic

/-!
The grammar of the language, as relations between token lists and trees.

    AExpr         ::= INT | VAR | '(' AExpr ('+' | '-' | '*') AExpr ')'
    BExpr         ::= 'true' | 'false' | 'not' '(' BExpr ')'
                    | '(' AExpr ('<=' | '=') AExpr ')'
                    | '(' BExpr ('and' | 'or') BExpr ')'
    Command       ::= AtomicCommand (';' AtomicCommand)*
    AtomicCommand ::= 'skip' | VAR ':=' AExpr
                    | 'if' BExpr 'then' Command 'else' Command 'end'
                    | 'while' BExpr 'do' Command 'end'

Each rule is one constructor and says nothing about how the tokens are read: it neither looks ahead
nor prefers one rule to another. Commands with semicolons between them nest to the left.
-/

namespace ImpHost.Grammar

/-- The token that spells an arithmetic operator. -/
inductive ArithSign : Token.Kind → ArithOp → Prop
  | plus : ArithSign (.operator .plus) .add
  | minus : ArithSign (.operator .minus) .sub
  | star : ArithSign (.operator .star) .mul

/-- The token that spells a comparison. -/
inductive CompareSign : Token.Kind → CompareOp → Prop
  | lte : CompareSign (.operator .lte) .le
  | eq : CompareSign (.operator .eq) .eq

/-- The token that spells a connective. -/
inductive BoolSign : Token.Kind → BoolOp → Prop
  | and : BoolSign (.keyword .kAnd) .and
  | or : BoolSign (.keyword .kOr) .or

/-- `Arith ts e`: the tokens `ts` are the arithmetic expression `e`. -/
inductive Arith : List Token → AExpr → Prop
  | int {t : Token} : t.kind = .int → Arith [t] (.int t.value)
  | var {t : Token} : t.kind = .var → Arith [t] (.var t.text)
  | binary {opened sign closed : Token} {us vs : List Token} {op : ArithOp} {a b : AExpr} :
    opened.kind = .lparen → Arith us a → ArithSign sign.kind op → Arith vs b →
    closed.kind = .rparen →
    Arith (opened :: (us ++ sign :: (vs ++ [closed]))) (.binary op a b)

/-- `Boolean ts e`: the tokens `ts` are the boolean expression `e`. -/
inductive Boolean : List Token → BExpr → Prop
  | true {t : Token} : t.kind = .keyword .kTrue → Boolean [t] (.lit true)
  | false {t : Token} : t.kind = .keyword .kFalse → Boolean [t] (.lit false)
  | not {mark opened closed : Token} {us : List Token} {a : BExpr} :
    mark.kind = .keyword .kNot → opened.kind = .lparen → Boolean us a → closed.kind = .rparen →
    Boolean (mark :: opened :: (us ++ [closed])) (.not a)
  | compare {opened sign closed : Token} {us vs : List Token} {op : CompareOp} {a b : AExpr} :
    opened.kind = .lparen → Arith us a → CompareSign sign.kind op → Arith vs b →
    closed.kind = .rparen →
    Boolean (opened :: (us ++ sign :: (vs ++ [closed]))) (.compare op a b)
  | binary {opened sign closed : Token} {us vs : List Token} {op : BoolOp} {a b : BExpr} :
    opened.kind = .lparen → Boolean us a → BoolSign sign.kind op → Boolean vs b →
    closed.kind = .rparen →
    Boolean (opened :: (us ++ sign :: (vs ++ [closed]))) (.binary op a b)

/-- The two sorts of commands in the grammar. -/
inductive Phrase where
  | atomic
  | command
deriving DecidableEq

/-- `Derives p ts c`: the tokens `ts` are the command `c`, read as a phrase of the sort `p`. -/
inductive Derives : Phrase → List Token → Command → Prop
  | skip {t : Token} : t.kind = .keyword .kSkip → Derives .atomic [t] .skip
  | assign {name mark : Token} {us : List Token} {e : AExpr} :
    name.kind = .var → mark.kind = .operator .assign → Arith us e →
    Derives .atomic (name :: mark :: us) (.assign name.text e)
  | ite {ifMark thenMark elseMark endMark : Token} {us vs ws : List Token} {e : BExpr}
      {a b : Command} :
    ifMark.kind = .keyword .kIf → Boolean us e → thenMark.kind = .keyword .kThen →
    Derives .command vs a → elseMark.kind = .keyword .kElse → Derives .command ws b →
    endMark.kind = .keyword .kEnd →
    Derives .atomic (ifMark :: (us ++ thenMark :: (vs ++ elseMark :: (ws ++ [endMark]))))
      (.ite e a b)
  | whileDo {whileMark doMark endMark : Token} {us vs : List Token} {e : BExpr} {a : Command} :
    whileMark.kind = .keyword .kWhile → Boolean us e → doMark.kind = .keyword .kDo →
    Derives .command vs a → endMark.kind = .keyword .kEnd →
    Derives .atomic (whileMark :: (us ++ doMark :: (vs ++ [endMark]))) (.whileDo e a)
  | single {us : List Token} {c : Command} : Derives .atomic us c → Derives .command us c
  | seq {semi : Token} {us vs : List Token} {a b : Command} :
    Derives .command us a → semi.kind = .semi → Derives .atomic vs b →
    Derives .command (us ++ semi :: vs) (.seq a b)

end ImpHost.Grammar
