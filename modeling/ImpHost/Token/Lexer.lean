import ImpHost.Diagnostic.Basic
import ImpHost.Text.Decimal
import ImpHost.Text.Quoted
import ImpHost.Token.Basic
import ImpHost.Value

/-!
The lexer. It skips white space and always takes the longest token: all the digits of an integer,
all the letters, digits and underscores of a word, and two characters of an operator if they spell
one. `lex` stops at the first character that starts no token.
-/

namespace ImpHost

/-- Why a source has no tokens; each cause has the position of its first character. -/
inductive LexError where
  /-- The character starts no token. -/
  | unexpected (c : Char) (pos : Nat)
  /-- The integer `first :: rest` is beyond the greatest value. -/
  | outOfRange (first : Char) (rest : List Char) (pos : Nat)
  /-- The character starts an operator that the next one does not complete. -/
  | incomplete (c : Char) (pos : Nat)
deriving DecidableEq

namespace LexError

/-- The diagnostic of a lexical error. -/
def report : LexError → Diagnostic
  | .unexpected c pos => .lexical c pos ("unexpected character " ++ Text.quoteChar c)
  | .outOfRange c rest pos =>
    .lexical c pos ("integer literal " ++ String.ofList (c :: rest) ++ " out of range")
  | .incomplete c pos =>
    .lexical c pos ("incomplete operator " ++ Text.quoteString (String.singleton c))

end LexError

namespace Token

/-- The characters of a word after its first. -/
def isWordPart (c : Char) : Bool :=
  Text.isLetter c || Text.isDecimalDigit c || c == '_'

/-- The characters that start an operator. -/
def isOperatorStart (c : Char) : Bool :=
  c == '+' || c == '-' || c == '*' || c == ':' || c == '=' || c == '<'

/-- The kind of the word `w`: a reserved word, or else a variable. -/
def wordKind (w : String) : Token.Kind :=
  match Keyword.ofSpelling? w with
  | some k => .keyword k
  | none => .var

/-- The operator of one character. -/
def singleOperator? (c : Char) : Option Operator :=
  if c == '+' then some .plus
  else if c == '-' then some .minus
  else if c == '*' then some .star
  else if c == '=' then some .eq
  else none

/-- The operator of two characters. -/
def doubleOperator? (c d : Char) : Option Operator :=
  if c == ':' && d == '=' then some .assign
  else if c == '<' && d == '=' then some .lte
  else none

/-- The operator at the front of `c :: cs`, two characters if they spell one, and what follows. -/
def operatorAt? (c : Char) (cs : List Char) : Option (Operator × List Char) :=
  match cs with
  | [] => (singleOperator? c).map fun o => (o, cs)
  | d :: ds =>
    match doubleOperator? c d with
    | some o => some (o, ds)
    | none => (singleOperator? c).map fun o => (o, cs)

theorem length_of_operatorAt? {c : Char} {cs rest : List Char} {o : Operator}
    (h : operatorAt? c cs = some (o, rest)) : rest.length ≤ cs.length := by
  unfold operatorAt? at h
  split at h
  · obtain ⟨_, _, eq⟩ := Option.map_eq_some_iff.1 h
    exact Nat.le_of_eq (congrArg (List.length ∘ Prod.snd) eq.symm)
  · split at h
    · simp_all
    · obtain ⟨_, _, eq⟩ := Option.map_eq_some_iff.1 h
      exact Nat.le_of_eq (congrArg (List.length ∘ Prod.snd) eq.symm)

/-- Appends the tokens of `cs`, whose first character has position `pos`, to the tokens of
`acc`, which are in reverse order. -/
def lexFrom (pos : Nat) (acc : List Token) : List Char → Except LexError (List Token)
  | [] => .ok acc.reverse
  | c :: cs =>
    if Text.isSpace c then lexFrom (pos + 1) acc cs
    else if c == ';' then lexFrom (pos + 1) (⟨.semi, ";", 0, pos⟩ :: acc) cs
    else if c == '(' then lexFrom (pos + 1) (⟨.lparen, "(", 0, pos⟩ :: acc) cs
    else if c == ')' then lexFrom (pos + 1) (⟨.rparen, ")", 0, pos⟩ :: acc) cs
    else if Text.isAsciiDigit c then
      let more := cs.takeWhile Text.isAsciiDigit
      let n := Text.digitsValue (c :: more)
      if n ≤ Value.maxInt.toNat then
        lexFrom (pos + 1 + more.length)
          (⟨.int, String.ofList (c :: more), Int64.ofNat n, pos⟩ :: acc)
          (cs.dropWhile Text.isAsciiDigit)
      else .error (.outOfRange c more pos)
    else if Text.isLetter c then
      let more := cs.takeWhile isWordPart
      let word := String.ofList (c :: more)
      lexFrom (pos + 1 + more.length) (⟨wordKind word, word, 0, pos⟩ :: acc)
        (cs.dropWhile isWordPart)
    else if isOperatorStart c then
      match _read : operatorAt? c cs with
      | some (o, rest) =>
        lexFrom (pos + o.spelling.length) (⟨.operator o, o.spelling, 0, pos⟩ :: acc) rest
      | none => .error (.incomplete c pos)
    else .error (.unexpected c pos)
termination_by cs => cs.length
decreasing_by
  all_goals simp only [List.length_cons]
  · omega
  · omega
  · omega
  · omega
  · have := (List.dropWhile_sublist Text.isAsciiDigit (l := cs)).length_le
    omega
  · have := (List.dropWhile_sublist isWordPart (l := cs)).length_le
    omega
  · have := length_of_operatorAt? _read
    omega

/-- The tokens of a source, in order. -/
def lex (source : List Char) : Except LexError (List Token) :=
  lexFrom 1 [] source

end Token

end ImpHost
