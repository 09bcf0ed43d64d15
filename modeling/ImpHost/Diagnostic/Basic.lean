/-!
Diagnostics: what an interpreter failure tells its reader. A diagnostic has a kind, a message, the
position of the source that it is about (zero or less when there is none) and the character or the
variable that it is about.
-/

namespace ImpHost

/-- What an interpreter failure tells its reader. -/
structure Diagnostic where
  /-- The name of the kind of failure; `Diagnostic.Kind` has those that the interpreter uses. -/
  kind : String
  message : String
  /-- The position in the source, counted in characters from one. -/
  pos : Int
  /-- The offending character or variable. -/
  name : String
deriving DecidableEq, Inhabited

namespace Diagnostic

namespace Kind

/-- A character that cannot start or continue a token. -/
def lexical : String := "LexicalError"

/-- A violation of the grammar. -/
def grammar : String := "SyntaxError"

/-- A read of an unassigned variable. -/
def unbound : String := "UnboundVariableError"

/-- An operator applied to a value of the wrong kind. -/
def type : String := "TypeError"

/-- An exhausted step budget. -/
def limit : String := "ResourceLimitError"

/-- An execution stopped by its host. -/
def cancelled : String := "CancelledError"

end Kind

/-- A lexical failure at `pos`, on the character `c`. -/
def lexical (c : Char) (pos : Int) (message : String) : Diagnostic :=
  ⟨Kind.lexical, message, pos, String.singleton c⟩

/-- A violation of the grammar at `pos`. -/
def grammar (pos : Int) (message : String) : Diagnostic :=
  ⟨Kind.grammar, message, pos, ""⟩

/-- A read of the unassigned variable `name`. -/
def unbound (name : String) : Diagnostic :=
  ⟨Kind.unbound, "variable '" ++ name ++ "' is not bound", 0, name⟩

/-- A value of the wrong kind. -/
def type (message : String) : Diagnostic :=
  ⟨Kind.type, message, 0, ""⟩

/-- An exhausted step budget. -/
def limit (message : String) : Diagnostic :=
  ⟨Kind.limit, message, 0, ""⟩

/-- An execution stopped by its host. -/
def cancelled (message : String) : Diagnostic :=
  ⟨Kind.cancelled, message, 0, ""⟩

/-- The diagnostic in one line: kind, position if there is one, and message. -/
def text (d : Diagnostic) : String :=
  if 0 < d.pos then d.kind ++ " at position " ++ toString d.pos ++ ": " ++ d.message
  else d.kind ++ ": " ++ d.message

/-- Whether evaluating a program raised it. -/
def isRuntime (d : Diagnostic) : Bool :=
  d.kind == Kind.unbound || d.kind == Kind.type

/-- Whether it was raised before evaluation began. -/
def isStatic (d : Diagnostic) : Bool :=
  d.kind == Kind.lexical || d.kind == Kind.grammar

end Diagnostic

end ImpHost
