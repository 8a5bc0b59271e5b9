import TestSkeleton.Path.Parts

/-!
# Directories of the user

The tool keeps its data and finds its settings in a directory of its own
below the data and the configuration directory of the user.  The user may
move either of the two, but only to a path from the root.
-/

namespace TestSkeleton

/-- The directories of the tool for one user. -/
structure UserDirs where
  data : String
  config : String
deriving DecidableEq, Inhabited, Repr

namespace UserDirs

/-- The name of the directory of the tool. -/
def toolName : String := "gtest-scaffold"

/-- The directory of the tool in the place the user has chosen, or else in the
usual place below the home directory. -/
def place (home : String) (chosen : Option String) (usual : String) : String :=
  Path.join ((chosen.filter Path.isAbsolute).getD (Path.join home usual)) toolName

/-- The directories for a home directory and the places the user has
chosen. -/
def ofHome (home : String) (dataHome configHome : Option String) : UserDirs where
  data := place home dataHome ".local/share"
  config := place home configHome ".config"

end UserDirs

end TestSkeleton
