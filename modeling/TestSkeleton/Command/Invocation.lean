import TestSkeleton.Report.Remembered
import TestSkeleton.Source.Selection

/-!
# Invocations

What the user asks for on the command line: one command, and the choices that
every command takes.
-/

namespace TestSkeleton.Command

/-- The choices that every command takes. -/
structure Globals where
  /-- How much is logged, from 0 to 255. -/
  verbosity : Nat := 0
  /-- Whether messages that nobody needs are left out. -/
  quiet : Bool := false
  color : Report.ColorChoice := .auto
  /-- Whether settings files are ignored. -/
  noSettings : Bool := false
  /-- The preference file, unless it is the one of the user. -/
  preferenceFile : Option String := none
deriving DecidableEq, Inhabited, Repr

/-- What a test case is generated for, and how. -/
structure GenerateOptions where
  source : String
  selection : Source.Selection
  /-- The directory for the tests of a new source file. -/
  outputDir : Option String := none
  /-- Whether the user is not to be asked for a directory. -/
  noPrompt : Bool := false
  settingsFile : Option String := none
  /-- Whether nothing is written. -/
  dryRun : Bool := false
deriving DecidableEq, Inhabited, Repr

/-- What the user asks for. -/
inductive Task where
  | generate (options : GenerateOptions)
  /-- Lists the remembered directories. -/
  | prefsList (format : Report.Format)
  /-- Says where the tests of one source file go. -/
  | prefsShow (source : String)
  /-- Writes the sample settings file. -/
  | init (output : String) (force : Bool)
deriving DecidableEq, Inhabited, Repr

/-- A task with the choices that every command takes. -/
structure Invocation where
  globals : Globals
  task : Task
deriving DecidableEq, Inhabited, Repr

end TestSkeleton.Command
