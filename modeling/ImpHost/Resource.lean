import ImpHost.Problem
import ImpHost.Text.Quoted

/-!
Resource names. A program is named below its parent and an execution below its program, as in
`projects/p/locations/l/workflows/w/executions/e`.
-/

namespace ImpHost.Resource

/-- What stands before the identifier of a program. -/
def programSegment : String := "workflows"

/-- What stands before the identifier of an execution. -/
def executionSegment : String := "executions"

/-- What the name of each program below a parent starts with. -/
def programsOf (parent : String) : String :=
  parent ++ "/" ++ programSegment ++ "/"

/-- What the name of each execution of a program starts with. -/
def executionsOf (program : String) : String :=
  program ++ "/" ++ executionSegment ++ "/"

/-- The name of a program. -/
def program (parent id : String) : String :=
  programsOf parent ++ id

/-- The name of an execution. -/
def execution (program id : String) : String :=
  executionsOf program ++ id

/-- The name of an operation that is done, on what has the identifier `id`. -/
def operation (verb id : String) : String :=
  "projects/-/locations/-/operations/" ++ verb ++ "-" ++ id

/-- The name of a place. -/
def place (project location : String) : String :=
  "projects/" ++ project ++ "/locations/" ++ location

/-- The characters after the last slash. -/
def idChars (name : List Char) : List Char :=
  (name.reverse.takeWhile (· != '/')).reverse

/-- The identifier at the end of a name. -/
def id (name : String) : String :=
  String.ofList (idChars name.toList)

/-- What stands before the first occurrence of `mark`; none if there is none. -/
def before? (mark : List Char) : List Char → Option (List Char)
  | [] => none
  | c :: cs => if mark.isPrefixOf (c :: cs) then some [] else (before? mark cs).map (c :: ·)

/-- The program to which an execution belongs; empty if the name is not one of an execution. -/
def programOf (execution : String) : String :=
  String.ofList ((before? (executionsOf "").toList execution.toList).getD [])

/-- The segment after the first segment `mark` that has one after it. -/
def segmentAfter? (mark : String) : List String → Option String
  | a :: b :: rest => if a = mark then some b else segmentAfter? mark (b :: rest)
  | _ => none

/-- The segments of a name. -/
def segments (name : String) : List String :=
  (name.toList.splitOn '/').map String.ofList

/-- The segment of a name after `mark`; the whole name if it has none. -/
def segmentAfter (mark name : String) : String :=
  (segmentAfter? mark (segments name)).getD name

/-- Whether `name` starts with `start` and goes on after it. -/
def isBelow (start name : String) : Bool :=
  start.toList.isPrefixOf name.toList && start.length < name.length

/-! ## Identifiers of programs -/

/-- How many bytes an identifier may have. -/
def maxIdLength : Nat := 128

/-- The characters that start an identifier. -/
def isIdStart (c : Char) : Bool :=
  'a' ≤ c && c ≤ 'z'

/-- The characters of an identifier. -/
def isIdChar (c : Char) : Bool :=
  isIdStart c || Text.isAsciiDigit c || c == '_' || c == '-'

/-- Whether characters make up an identifier: a small letter, and then small letters, digits, lines
and dashes. -/
def isId : List Char → Bool
  | [] => false
  | c :: cs => isIdStart c && cs.all isIdChar

/-- Whether a text is an identifier of a program. A stray byte is none of its characters. -/
def isProgramId (id : Text) : Bool :=
  id.size ≤ maxIdLength && isId id.chars

/-- Refuses what is no identifier of a program. -/
def checkProgramId (id : Text) : Except Problem Unit :=
  if id.isEmpty then
    .error (.refused .invalidArgument "invalid argument: program ID is required")
  else if isProgramId id then .ok ()
  else .error (.refused .invalidArgument ("invalid argument: invalid program ID " ++ id.quote))

end ImpHost.Resource
