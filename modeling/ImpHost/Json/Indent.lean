import ImpHost.Json.Reader

/-!
JSON with a line for each item and each field. The spelling of strings and numbers stays as it is,
and so do blanks after the value.
-/

namespace ImpHost.Json

/-- Where in a JSON text the layout is. -/
structure Layout where
  depth : Nat
  /-- Whether an array or object was opened and has nothing in it so far. -/
  opened : Bool
  inString : Bool
  /-- Whether the character before was a backslash that escapes the next one. -/
  escaping : Bool
  /-- Whether the value is over. -/
  closed : Bool

/-- A new line at a depth, in front of `acc`, which is in reverse order. -/
def newLine (depth : Nat) (acc : List Char) : List Char :=
  List.replicate (2 * depth) ' ' ++ '\n' :: acc

/-- Lays out a valid JSON text; `acc` has what is laid out so far in reverse order. -/
def layOut (l : Layout) (acc : List Char) : List Char → List Char
  | [] => acc.reverse
  | c :: cs =>
    if l.inString then
      let ends := !l.escaping && c == '"'
      layOut { l with inString := !ends, escaping := !l.escaping && c == '\\' } (c :: acc) cs
    else if isBlank c then
      if l.closed then layOut l (c :: acc) cs else layOut l acc cs
    else if c == ']' || c == '}' then
      let depth := l.depth - 1
      let acc := if l.opened then acc else newLine depth acc
      layOut { l with depth, opened := false, closed := depth == 0 } (c :: acc) cs
    else
      let acc := if l.opened then newLine l.depth acc else acc
      let l := { l with opened := false, closed := l.depth == 0 }
      if c == '[' || c == '{' then
        layOut { l with depth := l.depth + 1, opened := true, closed := false } (c :: acc) cs
      else if c == ',' then layOut l (newLine l.depth (c :: acc)) cs
      else if c == ':' then layOut l (' ' :: c :: acc) cs
      else layOut { l with inString := c == '"' } (c :: acc) cs

/-- A JSON text with a line for each item and field. A text that is not JSON stays as it is. -/
def indent (text : List Char) : List Char :=
  if (parse? text).isSome then layOut ⟨0, false, false, false, false⟩ [] text else text

end ImpHost.Json
