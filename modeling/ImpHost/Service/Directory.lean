import ImpHost.Manifest.File
import ImpHost.Service.Basic

/-!
Deploying the program files of a directory. The name of a file without its extension, in lower
case, is the identifier of the program. Files that cannot be deployed are passed over.
-/

namespace ImpHost.Service

/-- The identifier under which a file is deployed. -/
def idOfFile (name : String) : String :=
  String.ofList ((Path.splitLastDot name.toList).1.map Text.lowerChar)

/-- The text and the program of a file that can be deployed: a program file whose name gives an
identifier and whose contents are a program. -/
def deployable? (name : String) : FileEntry → Option (Text × Manifest)
  | .directory => none
  | .file contents =>
    if Manifest.isProgramFile name && Resource.isProgramId (idOfFile name) then
      match Manifest.load (Files.ofEntries [(name, .file contents)]) name with
      | .ok m => some (contents, m)
      | .error _ => none
    else none

/-- Deploys a file, or updates the program if there is one already. -/
def loadFile (s : Service) (parent : String) (name : String) (entry : FileEntry) : Service :=
  match deployable? name entry with
  | none => s
  | some (contents, m) =>
    let id := idOfFile name
    match s.deploy parent id contents m.description none with
    | (s, .ok _) => s
    | (s, .error why) =>
      if why.refusal? = some .alreadyExists then
        (s.update (Resource.program parent id) contents m.description none).1
      else s

/-- Deploys the program files of a directory, in the order of their names. -/
def loadDirectory (s : Service) (parent : String) (listing : List (String × FileEntry)) : Service :=
  listing.foldl (fun s file => s.loadFile parent file.1 file.2) s

/-- The problem that the directory `path` cannot be read. -/
def directoryProblem (path : String) (why : FileError) : Problem :=
  .plain ("reading programs directory: open " ++ path ++ ": " ++ why.text)

end ImpHost.Service
