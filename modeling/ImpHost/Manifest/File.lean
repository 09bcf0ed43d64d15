import ImpHost.Files
import ImpHost.Manifest.Basic

/-!
Program files. The extension says which form a file has: bare source or a manifest.
-/

namespace ImpHost

namespace Manifest

/-- The extension of bare source. -/
def sourceExtension : String := ".imp"

/-- The extensions of program files. -/
def extensions : List String := [sourceExtension, ".yaml", ".yml", ".json"]

/-- Whether a path has the extension of a program file, in whatever case. -/
def isProgramFile (path : String) : Bool :=
  extensions.contains (String.ofList ((Path.extension path).toList.map Text.lowerChar))

/-- Whether a path has the extension of bare source, in whatever case. -/
def isSourceFile (path : String) : Bool :=
  (Path.extension path).toList.map Char.toLower == sourceExtension.toList

/-- Why a file is not loaded. -/
inductive LoadError where
  | unsupported (path : String)
  | unreadable (path : String) (why : String)
  | contents (path : String) (why : SourceError)
deriving DecidableEq

/-- The problem with the file. -/
def LoadError.problem : LoadError → Problem
  | .unsupported path => .plain ("unsupported program file " ++ path)
  | .unreadable path why => .plain ("reading " ++ path ++ ": " ++ why)
  | .contents path why => why.problem.whileDoing ("loading " ++ path)

/-- The program in a file. It is named after the file unless it has a name. -/
def load (files : Files) (path : String) : Except LoadError Manifest :=
  if !isProgramFile path then .error (.unsupported path)
  else
    match files.read path with
    | .error why => .error (.unreadable path why)
    | .ok contents =>
      let stem : Text := Path.stem path
      let read : Except SourceError Manifest :=
        if isSourceFile path then (ofSource stem contents).mapError .bare
        else (ofYaml contents).mapError .manifest
      (read.map (named stem)).mapError (.contents path)

end Manifest

end ImpHost
