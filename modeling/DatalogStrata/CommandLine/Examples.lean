import DatalogStrata.CommandLine.Host

/-!
# Example programs

The example programs are the entries of a directory with the extension `json`, in the order of
their names. An entry counts by its name alone.

## Main definitions

* `exampleFiles` — the paths of the example programs in a directory
-/

namespace DatalogStrata

/-- The directory of the example programs. -/
def exampleDirectory : String :=
  "example"

/-- Whether an entry of a directory is taken for a program. -/
def isExample (entry : String) : Bool :=
  Path.extension? entry = some "json"

/-- The paths of the programs among the entries of a directory. -/
def examplePaths (directory : String) (entries : List String) : List String :=
  let names := (entries.filter isExample).mergeSort fun a b => decide (a ≤ b)
  names.map (Path.join directory)

variable {m : Type → Type} [Monad m] [Host m]

/-- The paths of the example programs in a directory. -/
def exampleFiles (directory : String) : m (Except FileError (List String)) := do
  return (← Host.entries directory).map (examplePaths directory)

end DatalogStrata
