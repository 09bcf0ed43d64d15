/-!
Tokens of the language. A token has a kind, the text it was read from, the number it denotes if it
is an integer, and its position. The kind `eof` stands for the end of the input, and `unknown` for
any kind that the language does not have.
-/

namespace ImpHost

/-- The reserved words. -/
inductive Keyword where
  | kTrue | kFalse | kNot | kAnd | kOr | kSkip | kIf | kThen | kElse | kEnd | kWhile | kDo
deriving DecidableEq

namespace Keyword

/-- Every reserved word. -/
def all : List Keyword :=
  [.kTrue, .kFalse, .kNot, .kAnd, .kOr, .kSkip, .kIf, .kThen, .kElse, .kEnd, .kWhile, .kDo]

/-- A reserved word as a program spells it. -/
def spelling : Keyword → String
  | .kTrue => "true"
  | .kFalse => "false"
  | .kNot => "not"
  | .kAnd => "and"
  | .kOr => "or"
  | .kSkip => "skip"
  | .kIf => "if"
  | .kThen => "then"
  | .kElse => "else"
  | .kEnd => "end"
  | .kWhile => "while"
  | .kDo => "do"

/-- The reserved word with the given spelling. -/
def ofSpelling? (s : String) : Option Keyword :=
  all.find? fun k => k.spelling == s

/-- The name of a reserved word in token listings. -/
def label : Keyword → String
  | .kTrue => "TRUE"
  | .kFalse => "FALSE"
  | .kNot => "NOT"
  | .kAnd => "AND"
  | .kOr => "OR"
  | .kSkip => "SKIP"
  | .kIf => "IF"
  | .kThen => "THEN"
  | .kElse => "ELSE"
  | .kEnd => "END"
  | .kWhile => "WHILE"
  | .kDo => "DO"

end Keyword

/-- The operators. -/
inductive Operator where
  | plus | minus | star | assign | lte | eq
deriving DecidableEq

namespace Operator

/-- An operator as a program spells it. -/
def spelling : Operator → String
  | .plus => "+"
  | .minus => "-"
  | .star => "*"
  | .assign => ":="
  | .lte => "<="
  | .eq => "="

/-- The name of an operator in token listings. -/
def label : Operator → String
  | .plus => "PLUS"
  | .minus => "MINUS"
  | .star => "STAR"
  | .assign => "ASSIGN"
  | .lte => "LTE"
  | .eq => "EQ"

end Operator

/-- The kinds of tokens. -/
inductive Token.Kind where
  | int
  | var
  | operator (o : Operator)
  | keyword (k : Keyword)
  | semi
  | lparen
  | rparen
  | eof
  | unknown
deriving DecidableEq

namespace Token.Kind

/-- The name of a kind in token listings. -/
def label : Token.Kind → String
  | .int => "INT"
  | .var => "VAR"
  | .operator o => o.label
  | .keyword k => k.label
  | .semi => "SEMI"
  | .lparen => "LPAREN"
  | .rparen => "RPAREN"
  | .eof => "EOF"
  | .unknown => "UNKNOWN"

/-- What messages call a token of this kind. -/
def describe : Token.Kind → String
  | .int => "integer"
  | .var => "variable"
  | .operator o => "'" ++ o.spelling ++ "'"
  | .keyword k => "'" ++ k.spelling ++ "'"
  | .semi => "';'"
  | .lparen => "'('"
  | .rparen => "')'"
  | .eof => "end of input"
  | .unknown => "UNKNOWN"

end Token.Kind

/-- A token of a program. -/
structure Token where
  kind : Token.Kind
  /-- The text that the token was read from. -/
  text : String
  /-- The number that an integer token denotes, else zero. -/
  value : Int64
  /-- The position of the first character, counted in characters from one. -/
  pos : Int
deriving DecidableEq

namespace Token

/-- The token in listings, such as `INT(42)` or `ASSIGN`. -/
def label (t : Token) : String :=
  match t.kind with
  | .int | .var => t.kind.label ++ "(" ++ t.text ++ ")"
  | _ => t.kind.label

/-- What messages say was found where this token stands. -/
def found (t : Token) : String :=
  match t.kind with
  | .int => "integer " ++ t.text
  | .var => "variable '" ++ t.text ++ "'"
  | _ => t.kind.describe

end Token

end ImpHost
