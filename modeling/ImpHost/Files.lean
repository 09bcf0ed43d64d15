import ImpHost.Text.Basic

/-!
Files by their paths. A directory tree is a list of files and directories with their paths from its
root; a path is walked from the root part by part.
-/

namespace ImpHost

/-- What stands at a path. -/
inductive FileEntry where
  | file (contents : Text)
  | directory
deriving DecidableEq

/-- Why a file cannot be opened. -/
inductive FileError where
  | missing
  | notDirectory
  | isDirectory
deriving DecidableEq

/-- The wording of a failure to open a file. -/
def FileError.text : FileError → String
  | .missing => "no such file or directory"
  | .notDirectory => "not a directory"
  | .isDirectory => "is a directory"

namespace Path

/-- The parts of a path between its slashes. -/
def parts (path : String) : List String :=
  path.splitOn "/"

/-- The last part of a path that is not empty; a path without one has only slashes, or is empty. -/
def base (path : String) : String :=
  match (parts path).reverse.find? (· ≠ "") with
  | some part => part
  | none => if path.isEmpty then "." else "/"

/-- The part of `name` from its last dot on, and what is in front of it. -/
def splitLastDot (name : List Char) : List Char × List Char :=
  let back := name.reverse
  match back.dropWhile (· ≠ '.') with
  | [] => (name, [])
  | dot :: front => (front.reverse, dot :: (back.takeWhile (· ≠ '.')).reverse)

/-- The extension of a path: its last part from the last dot on, with the dot. -/
def extension (path : String) : String :=
  String.ofList (splitLastDot (((parts path).getLast?).getD "").toList).2

/-- The path of the directory in which a path leads to something; none if that is where the path
starts. -/
def parent? (path : String) : Option String :=
  match (parts path).dropLast with
  | [] => none
  | [""] => some "/"
  | outer => some ("/".intercalate outer)

/-- The last part of a path without its extension. -/
def stem (path : String) : String :=
  let ext := extension path
  let b := base path
  if ext.toList.isSuffixOf b.toList then String.ofList (b.toList.take (b.length - ext.length))
  else b

end Path

/-- Where files are: what stands at a path, or why nothing can be opened there. -/
abbrev Files := String → Except FileError FileEntry

namespace Files

/-- The place with the given entries, each at its path. -/
def ofEntries (entries : List (String × FileEntry)) : Files :=
  fun path =>
    match entries.lookup path with
    | some entry => .ok entry
    | none => .error .missing

/-- Reads a file. Failures name the path and what was tried. -/
def read (files : Files) (path : String) : Except String Text :=
  match files path with
  | .ok (.file contents) => .ok contents
  | .ok .directory => .error ("read " ++ path ++ ": " ++ FileError.isDirectory.text)
  | .error why => .error ("open " ++ path ++ ": " ++ why.text)

end Files

/-- A directory tree: paths from its root, in which no part is empty, with what stands there. -/
structure FileTree where
  entries : List (List String × FileEntry)

namespace FileTree

/-- The tree with the given files. A path that ends in a slash is a directory. -/
def ofList (files : List (String × Text)) : FileTree :=
  ⟨files.map fun (path, contents) =>
    let parts := (Path.parts path).filter (· ≠ "")
    (parts, if path.endsWith "/" then .directory else .file contents)⟩

/-- What stands at the path `parts`. The root is a directory, and so is what has something in it. -/
def at? (tree : FileTree) (parts : List String) : Option FileEntry :=
  match tree.entries.lookup parts with
  | some entry => some entry
  | none =>
    let isOuter := tree.entries.any fun e => parts.isPrefixOf e.1 && parts.length < e.1.length
    if parts.isEmpty || isOuter then some .directory else none

/-- Walks the parts of a path from a directory, whose own parts are in reverse order. -/
def walk (tree : FileTree) : (place : List String) → (parts : List String) →
    Except FileError FileEntry
  | place, parts =>
    match tree.at? place.reverse with
    | none => .error .missing
    | some (.file contents) => if parts.isEmpty then .ok (.file contents) else .error .notDirectory
    | some .directory =>
      match parts with
      | [] => .ok .directory
      | part :: rest =>
        if part = "" || part = "." then walk tree place rest
        else if part = ".." then
          match place with
          | [] => .error .missing
          | _ :: outer => walk tree outer rest
        else walk tree (part :: place) rest
termination_by _ parts => parts.length

/-- The files of a tree, seen from its root. An absolute path leads out of the tree. -/
def files (tree : FileTree) : Files :=
  fun path =>
    if path.isEmpty || path.startsWith "/" then .error .missing
    else tree.walk [] (Path.parts path)

/-- What stands in the root, by name. -/
def listing (tree : FileTree) : List (String × FileEntry) :=
  let names := (tree.entries.filterMap fun e => e.1.head?).mergeSort fun a b => !decide (b < a)
  (names.eraseDups).filterMap fun name => (tree.at? [name]).map fun entry => (name, entry)

end FileTree

end ImpHost
