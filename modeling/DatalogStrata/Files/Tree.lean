import DatalogStrata.Files.Path

/-!
# File trees

A tree of directories and files below a root, and a working directory in it. Paths are followed part
by part: every part but the last must be a directory.

The content of a file is a list of bytes.

## Main definitions

* `FileError` — why a path cannot be used
* `FileTree` — files and directories
* `FileTree.readText`, `FileTree.create`, `FileTree.writeAt`, `FileTree.entries`
-/

namespace DatalogStrata

/-- Why a file cannot be read or written. -/
inductive FileError where
  | notFound
  | notDirectory
  | isDirectory
  | nameTooLong
  /-- The path has a null character in it. -/
  | nullInPath
  /-- The content is no text in UTF-8. -/
  | notText
  /-- Any other reason, as the machine words it. -/
  | other (message : String)
deriving DecidableEq, Repr

/-- The message for a file error. -/
def FileError.message : FileError → String
  | notFound => "No such file or directory (os error 2)"
  | notDirectory => "Not a directory (os error 20)"
  | isDirectory => "Is a directory (os error 21)"
  | nameTooLong => "File name too long (os error 36)"
  | nullInPath => "file name contained an unexpected NUL byte"
  | notText => "stream did not contain valid UTF-8"
  | other message => message

/-- The bytes of a text. -/
def bytesOf (text : String) : List UInt8 :=
  text.toUTF8.toList

/-- The text that a list of bytes is, if it is one. -/
def textOfBytes? (bytes : List UInt8) : Option String :=
  String.fromUTF8? bytes.toByteArray

/-- What stands at a path. -/
inductive FileNode where
  | file (bytes : List UInt8)
  | directory
deriving DecidableEq, Repr

/-- Files and directories by their names from the root on. -/
structure FileTree where
  nodes : List (List String × FileNode)
  /-- The working directory, where paths begin that do not begin at the root. -/
  working : List String
deriving DecidableEq, Repr

namespace FileTree

/-- What stands at a place. -/
def node? (tree : FileTree) (place : List String) : Option FileNode :=
  if place = [] then some .directory
  else (tree.nodes.find? fun entry => entry.1 = place).map Prod.snd

/-- Put something at a place, instead of what stood there. -/
def put (tree : FileTree) (place : List String) (node : FileNode) : FileTree :=
  { tree with nodes := (place, node) :: tree.nodes.filter fun entry => entry.1 ≠ place }

/-- Make a directory and those above it, where they are missing. -/
def makeDirectory (tree : FileTree) (place : List String) : FileTree :=
  (List.range place.length).foldl
    (fun tree count =>
      match tree.node? (place.take (count + 1)) with
      | none => tree.put (place.take (count + 1)) .directory
      | some _ => tree)
    tree

/-- A working directory with nothing in it, and nothing else but the directories above it. -/
def emptyAt (working : List String) : FileTree :=
  makeDirectory ⟨[], working⟩ working

/-- Place a file, in directories made for it. -/
def placeFile (tree : FileTree) (path : String) (bytes : List UInt8) : FileTree :=
  let place := Path.place tree.working path
  (tree.makeDirectory place.dropLast).put place (.file bytes)

/-- Place a directory. -/
def placeDirectory (tree : FileTree) (path : String) : FileTree :=
  tree.makeDirectory (Path.place tree.working path)

/-- The files below the working directory, by their paths from there. -/
def files (tree : FileTree) : List (String × List UInt8) :=
  tree.nodes.filterMap fun (place, node) =>
    match node with
    | .file bytes =>
      if tree.working.isPrefixOf place then
        some ("/".intercalate (place.drop tree.working.length), bytes)
      else none
    | .directory => none

/-- The longest name that a directory entry may have, in bytes. -/
def nameLimit : Nat := 255

/-- The longest path that can be followed, in bytes. -/
def pathLimit : Nat := 4095

/-- Check a path before it is followed. -/
def checkPath (path : String) : Except FileError Unit :=
  if '\x00' ∈ path.toList then .error .nullInPath
  else if path.isEmpty then .error .notFound
  else if pathLimit < path.utf8ByteSize then .error .nameTooLong
  else .ok ()

/-- Look up an entry of a directory. -/
def entry? (tree : FileTree) (directory : List String) (name : String) :
    Except FileError (Option FileNode) :=
  if nameLimit < name.utf8ByteSize then .error .nameTooLong
  else .ok (tree.node? (directory ++ [name]))

/-- Follow parts that must all be directories. -/
def enter (tree : FileTree) : List String → List String → Except FileError (List String)
  | directory, [] => .ok directory
  | directory, ".." :: rest => tree.enter directory.dropLast rest
  | directory, name :: rest => do
    match ← tree.entry? directory name with
    | some .directory => tree.enter (directory ++ [name]) rest
    | some (.file _) => .error .notDirectory
    | none => .error .notFound

/-- Where a path leads. -/
inductive Place where
  | directory (path : List String)
  /-- An entry of a directory, which may or may not be there. -/
  | entry (directory : List String) (name : String) (mustBeDirectory : Bool)

/-- Follow a path up to its last part. -/
def locate (tree : FileTree) (path : String) : Except FileError Place := do
  checkPath path
  let parts := Path.fromRoot tree.working path
  match Path.lastNamed? path with
  | none => return .directory (← tree.enter [] parts)
  | some name => return .entry (← tree.enter [] parts.dropLast) name (Path.endsInSlash path)

/-- The bytes of a file. -/
def readBytes (tree : FileTree) (path : String) : Except FileError (List UInt8) := do
  match ← tree.locate path with
  | .directory _ => .error .isDirectory
  | .entry directory name mustBeDirectory =>
    match ← tree.entry? directory name with
    | none => .error .notFound
    | some .directory => .error .isDirectory
    | some (.file bytes) => if mustBeDirectory then .error .notDirectory else return bytes

/-- The text of a file. -/
def readText (tree : FileTree) (path : String) : Except FileError String := do
  match textOfBytes? (← tree.readBytes path) with
  | some text => return text
  | none => .error .notText

/-- Make a file empty, and make it first where it is missing. -/
def create (tree : FileTree) (path : String) : Except FileError (List String × FileTree) := do
  match ← tree.locate path with
  | .directory _ => .error .isDirectory
  | .entry directory name mustBeDirectory =>
    -- A path with a slash at its end asks for a directory, and none is made here.
    if mustBeDirectory then .error .isDirectory
    else
      match ← tree.entry? directory name with
      | some .directory => .error .isDirectory
      | _ =>
        let file := directory ++ [name]
        return (file, tree.put file (.file []))

/-- Put bytes into others at a position. Past the end there are zeros up to the position. -/
def splice (old : List UInt8) (position : Nat) (bytes : List UInt8) : List UInt8 :=
  old.take position ++ List.replicate (position - old.length) 0 ++ bytes ++
    old.drop (position + bytes.length)

/-- Write bytes into a file at a position. -/
def writeAt (tree : FileTree) (file : List String) (position : Nat) (bytes : List UInt8) :
    FileTree :=
  if bytes = [] then tree
  else
    match tree.node? file with
    | some (.file old) => tree.put file (.file (splice old position bytes))
    | _ => tree.put file (.file (splice [] position bytes))

/-- Give a file a text for its whole content. -/
def writeText (tree : FileTree) (path text : String) : Except FileError FileTree := do
  let (file, tree) ← tree.create path
  return tree.writeAt file 0 (bytesOf text)

/-- The names of the entries of a directory. -/
def entries (tree : FileTree) (path : String) : Except FileError (List String) := do
  let directory ←
    match ← tree.locate path with
    | .directory directory => pure directory
    | .entry directory name _ => tree.enter directory [name]
  return tree.nodes.filterMap fun (path, _) =>
    match path.getLast? with
    | some name => if path.dropLast = directory then some name else none
    | none => none

end FileTree

end DatalogStrata
