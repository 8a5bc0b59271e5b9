import TestSkeleton.Settings.FromToml
import TestSkeleton.Files.Action
import TestSkeleton.Path.Parts

/-!
# Finding the settings file

Settings come from a file in the current directory, else from one in the
configuration directory of the user, else they are the defaults.
-/

namespace TestSkeleton.Settings

open Files (Action)

/-- The name of a settings file in the current directory. -/
def localName : String := ".gtest-scaffold.toml"

/-- The name of a settings file in the directory of the user. -/
def userName : String := "config.toml"

/-- The settings in a file. -/
def loadFrom (path : String) : Action (Except Failure Settings) := do
  match (← Action.readText path) with
  | .error fault => return .error (.fileRead path fault)
  | .ok text => return parse text

/-- The settings in the first of some files that exists. -/
def loadFirst : List String → Action (Except Failure Settings)
  | [] => pure (.ok {})
  | path :: rest => do
    if (← Action.pathExists path) then loadFrom path else loadFirst rest

/-- The settings in the first file that exists. -/
def load (userDir : Option String) : Action (Except Failure Settings) := do
  let current ← Action.currentDir
  loadFirst ((current.toOption.map fun dir => Path.join dir localName).toList ++
    (userDir.map fun dir => Path.join dir userName).toList)

end TestSkeleton.Settings
