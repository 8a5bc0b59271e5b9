import TestSkeleton.Files.Action
import TestSkeleton.Text.Blank

/-!
# Asking for a directory

The first time a source file is seen, the directory for its tests may be
chosen: by an option, by the user, or not at all.
-/

namespace TestSkeleton.Source

open Files (Action)

/-- Who chooses the directory. -/
inductive FolderPrompt where
  /-- The directory is known. -/
  | fixed (directory : String)
  /-- Nobody; the directory of the source file is used. -/
  | declined
  /-- The user is asked. -/
  | interactive
deriving DecidableEq, Inhabited, Repr

/-- The question for a source file. -/
def FolderPrompt.question (source : String) : String :=
  "Directory for tests of " ++ source ++ " (empty = next to the source): "

/-- The directory for a source file, or nothing if nobody chooses one.  An
empty answer chooses none. -/
def FolderPrompt.choose (prompt : FolderPrompt) (source : String) : Action (Option String) :=
  match prompt with
  | .fixed directory => pure (some directory)
  | .declined => pure none
  | .interactive => do
    match (← Action.ask (question source)) with
    | .error _ =>
      Action.warn .unreadableAnswer
      return none
    | .ok answer =>
      let directory := Text.trimmed answer
      return if directory.isEmpty then none else some directory

end TestSkeleton.Source
