import TestSkeleton.Path.Parts
import TestSkeleton.Digest.Sha256

/-!
# Where state lives

The preference file lives in the data directory of the user, and the lock
files live in a directory beside the preference file.  A lock file for a
target is named after the digest of the text of the target's path, so that
no directory of the user is littered with lock files.
-/

namespace TestSkeleton.StatePaths

/-- The preference file in a state directory. -/
def preferenceFile (stateDir : String) : String :=
  Path.join stateDir "preferences.json"

/-- The directory of the lock files for a preference file. -/
def lockDir (preferenceFile : String) : String :=
  match Path.parent? preferenceFile with
  | some parent => Path.join parent "locks"
  | none => "locks"

/-- The name of the lock file for a target. -/
def lockName (target : String) : String :=
  String.ofList ((Digest.hexDigest target).take 16) ++ ".lock"

/-- The lock file for a target. -/
def lockFile (lockDir target : String) : String :=
  Path.join lockDir (lockName target)

/-- The lock file for a preference file. -/
def preferenceLock (preferenceFile : String) : String :=
  Path.join (lockDir preferenceFile) "preferences.lock"

end TestSkeleton.StatePaths
