import ImpHost.Program.Basic

/-!
Programs as text. A printer writes a tree in front of the characters that follow it, so that
printing a sequence of trees is composing their printers. `Node.format` prints on one line, and
`Command.formatIndent` prints one atomic command a line and indents bodies by two blanks.

There is no spelling for a negative number, so one is printed as a subtraction from zero. Commands
have no grouping either, so a sequence is printed alike however its parts are nested.
-/

namespace ImpHost

/-- The decimal digits of `n`, in front of `k`. -/
def writeNat (n : Nat) (k : List Char) : List Char :=
  Nat.toDigits 10 n ++ k

/-- The characters of `s`, in front of `k`. -/
def writeString (s : String) (k : List Char) : List Char :=
  s.toList ++ k

/-- What is printed where a tree lacks a part. -/
def holeText : String := "<<nil>>"

/-- An integer, in front of `k`. The least one has no negation, hence its spelling in two steps. -/
def writeInt (n : Int64) (k : List Char) : List Char :=
  if 0 ≤ n then writeNat n.toInt.toNat k
  else if n = Int64.minValue then
    writeString "((0 - " (writeNat Int64.maxValue.toInt.toNat (writeString ") - 1)" k))
  else writeString "(0 - " (writeNat (-n).toInt.toNat (')' :: k))

/-- An arithmetic expression, in front of `k`. -/
def AExpr.write : AExpr → List Char → List Char
  | .int n, k => writeInt n k
  | .var x, k => writeString x k
  | .binary op a b, k =>
    '(' :: a.write (' ' :: writeString op.spelling (' ' :: b.write (')' :: k)))
  | .hole, k => writeString holeText k

/-- A boolean expression, in front of `k`. -/
def BExpr.write : BExpr → List Char → List Char
  | .lit true, k => writeString "true" k
  | .lit false, k => writeString "false" k
  | .not a, k => writeString "not (" (a.write (')' :: k))
  | .binary op a b, k =>
    '(' :: a.write (' ' :: writeString op.spelling (' ' :: b.write (')' :: k)))
  | .compare op a b, k =>
    '(' :: a.write (' ' :: writeString op.spelling (' ' :: b.write (')' :: k)))
  | .hole, k => writeString holeText k

/-- A command on one line, in front of `k`. -/
def Command.write : Command → List Char → List Char
  | .skip, k => writeString "skip" k
  | .assign x e, k => writeString x (writeString " := " (e.write k))
  | .seq a b, k => a.write (writeString "; " (b.write k))
  | .ite e a b, k =>
    writeString "if " (e.write (writeString " then " (a.write
      (writeString " else " (b.write (writeString " end" k))))))
  | .whileDo e a, k =>
    writeString "while " (e.write (writeString " do " (a.write (writeString " end" k))))
  | .hole, k => writeString holeText k

/-- A tree on one line, in front of `k`. -/
def Node.write : Node → List Char → List Char
  | .arith e, k => e.write k
  | .bool e, k => e.write k
  | .command c, k => c.write k

/-- A tree on one line. -/
def Node.format (n : Node) : String :=
  String.ofList (n.write [])

/-- A command on one line. -/
def Command.format (c : Command) : String :=
  String.ofList (c.write [])

/-- The indentation of a line at `depth`, in front of `k`. -/
def writePad (depth : Nat) (k : List Char) : List Char :=
  List.replicate (2 * depth) ' ' ++ k

/-- The lines of a command at `depth`, in front of `k`, which starts with what ends the last line.
A sequence is the lines of its parts with a semicolon between them. -/
def Command.writeLines (depth : Nat) : Command → List Char → List Char
  | .seq a b, k => a.writeLines depth (writeString ";\n" (b.writeLines depth k))
  | .ite e a b, k =>
    writePad depth (writeString "if " (e.write (writeString " then\n"
      (a.writeLines (depth + 1) ('\n' :: writePad depth (writeString "else\n"
        (b.writeLines (depth + 1) ('\n' :: writePad depth (writeString "end" k)))))))))
  | .whileDo e a, k =>
    writePad depth (writeString "while " (e.write (writeString " do\n"
      (a.writeLines (depth + 1) ('\n' :: writePad depth (writeString "end" k))))))
  | c, k => writePad depth (c.write k)

/-- A command with one atomic command a line. -/
def Command.formatIndent (c : Command) : String :=
  String.ofList (c.writeLines 0 ['\n'])

end ImpHost
