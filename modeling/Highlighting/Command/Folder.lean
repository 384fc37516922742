/-!
# Folders in memory

Files that are held in memory, by their paths from a folder. A path is followed step by step, as on
a disk: a single dot and an empty step stay where they are, two dots go back, and every step starts
from a folder that exists. A path that leaves the folder leads nowhere.

## Main definitions

* `Command.Folder`
* `Command.Folder.read?`: the file that a path leads to
-/

namespace Highlighting

namespace Command

/-- Files by their paths. -/
structure Folder where
  /-- The paths of the files and their contents. -/
  files : List (String × String)
  deriving Repr, Inhabited

namespace Folder

/-- The steps of a path. -/
def steps (path : String) : List String :=
  path.splitOn "/"

/-- Whether steps lead to a folder: the outermost one, or one in which there is something. -/
def isFolder (f : Folder) (place : List String) : Bool :=
  place.isEmpty || f.files.any fun file =>
    place.isPrefixOf (steps file.1) && place.length < (steps file.1).length

/-- Takes a step from a place. -/
def step? (f : Folder) (place : List String) (step : String) : Option (List String) :=
  if !f.isFolder place then none
  else if step == "" || step == "." then some place
  else if step == ".." then if place.isEmpty then none else some place.dropLast
  else some (place ++ [step])

/-- The contents of the file that a path leads to. -/
def read? (f : Folder) (path : String) : Option String := do
  guard (!path.isEmpty && !path.startsWith "/")
  let place ← (steps path).foldlM f.step? []
  let file ← f.files.find? fun file => steps file.1 == place
  return file.2

end Folder

end Command

end Highlighting
