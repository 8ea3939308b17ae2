import DatalogStrata.Text

/-!
# File paths

A path is a text with slashes between its parts. Empty parts and single dots count for nothing on
the way, but at the end they tell that a directory is meant. A path begins at the root if it begins
with a slash, and at the working directory otherwise.

## Main definitions

* `Path.parts` — the parts of a path
* `Path.fileName?` — the last part, if it names anything
* `Path.stem?`, `Path.extension?` — the last part before and after its last dot
* `Path.join` — an entry of a directory
* `Path.fromRoot` — the parts of a path from the root on
* `Path.place` — where a path leads
-/

namespace DatalogStrata.Path

/-- The pieces between slashes, but for empty ones. -/
def pieces (path : String) : List String :=
  ((splitAt '/' path.toList).map String.ofList).filter (· ≠ "")

/-- The parts of a path, without those that count for nothing. -/
def parts (path : String) : List String :=
  (pieces path).filter (· ≠ ".")

/-- Whether a path begins with a slash. -/
def beginsWithSlash (path : String) : Bool :=
  path.toList.head? = some '/'

/-- Whether a path ends in a slash. -/
def endsInSlash (path : String) : Bool :=
  path.toList.getLast? = some '/'

/-- The piece at the end of a path, unless it is a single or a double dot. -/
def lastNamed? (path : String) : Option String :=
  ((pieces path).getLast?).filter fun piece => piece ≠ "." ∧ piece ≠ ".."

/-- The name of the file or directory that a path leads to; none if its last part is the
directory above. -/
def fileName? (path : String) : Option String :=
  ((parts path).getLast?).filter (· ≠ "..")

/-- Split a file name at its last dot. A dot at the very beginning does not split. -/
def splitName (name : String) : String × Option String :=
  let reversed := name.toList.reverse
  match reversed.dropWhile (· ≠ '.') with
  | _ :: before =>
    if before.isEmpty then (name, none)
    else
      (String.ofList before.reverse, some (String.ofList (reversed.takeWhile (· ≠ '.')).reverse))
  | [] => (name, none)

/-- The name of a file without its extension. -/
def stem? (path : String) : Option String :=
  (fileName? path).map fun name => (splitName name).1

/-- What follows the last dot of a file name. -/
def extension? (path : String) : Option String :=
  (fileName? path).bind fun name => (splitName name).2

/-- The path of an entry of a directory. -/
def join (directory entry : String) : String :=
  if directory.isEmpty || endsInSlash directory then directory ++ entry
  else directory ++ "/" ++ entry

/-- The parts of a path from the root on, those of the working directory in front where the path
begins there. -/
def fromRoot (working : List String) (path : String) : List String :=
  if beginsWithSlash path then parts path else working ++ parts path

/-- Go on from a directory by a part. Above the root is the root. -/
def step (directory : List String) (part : String) : List String :=
  if part = ".." then directory.dropLast else directory ++ [part]

/-- Where a path leads, if it leads anywhere: the names from the root to its end. -/
def place (working : List String) (path : String) : List String :=
  (fromRoot working path).foldl step []

end DatalogStrata.Path
