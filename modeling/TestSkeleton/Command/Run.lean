import TestSkeleton.Command.Invocation
import TestSkeleton.Generation.Destination
import TestSkeleton.Report.Diagnostic
import TestSkeleton.Settings.Sample
import TestSkeleton.Settings.Search
import TestSkeleton.UserDirs

/-!
# Running a command

From an invocation to an exit code, the output and the messages.

* `generateTest`, `listRemembered`, `showDestination` and `writeSample` are
  the four tasks; each ends with its result or with a failure.
* `run` runs any of them and puts results and failures into words.
-/

namespace TestSkeleton.Command

open Files (Action)
open Generation (Generated TestStore)
open Report (renderFailure)

/-- What a command finds around it. -/
structure Host where
  /-- The directories of the user, if they are known. -/
  dirs : Option UserDirs := none
  /-- Whether there is somebody at the input to answer questions. -/
  canAsk : Bool := false
  /-- Whether colours show in the output. -/
  outputColors : Bool := false
  /-- Whether colours show in the messages. -/
  messageColors : Bool := false
deriving DecidableEq, Inhabited, Repr

/-- What a command leaves behind for its caller. -/
structure Outcome where
  exitCode : Nat
  /-- The text that was asked for. -/
  output : String := ""
  /-- Warnings and failures. -/
  messages : String := ""
deriving DecidableEq, Inhabited, Repr

namespace Host

/-- The preference file to use: the given one, or else the one of the user. -/
def preferenceFile (host : Host) (given : Option String) : Except Failure String :=
  match given, host.dirs with
  | some path, _ => .ok path
  | none, some dirs => .ok (StatePaths.preferenceFile dirs.data)
  | none, none =>
    .error (.hostUnavailable "Cannot determine the user data directory for preferences")

/-- The settings to use: the defaults, the ones in the given file, or the ones
in the first file found. -/
def settings (host : Host) (noSettings : Bool) (given : Option String) :
    Action (Except Failure Settings) :=
  if noSettings then pure (.ok {})
  else
    match given with
    | some path => Settings.loadFrom path
    | none => Settings.load (host.dirs.map UserDirs.config)

/-- Opens the test store over the preference file to use. -/
def openStore (host : Host) (given : Option String) :
    Action (Except Failure (String × TestStore)) := do
  match host.preferenceFile given with
  | .error failure => return .error failure
  | .ok path =>
    return (← Generation.openTestStore path Preferences.defaultTimeoutMs).map fun store =>
      (path, store)

end Host

/-! ## The tasks -/

/-- Who chooses the directory for a new source file. -/
def promptFor (host : Host) (settings : Settings) (options : GenerateOptions) :
    Source.FolderPrompt :=
  match options.outputDir with
  | some directory => .fixed directory
  | none =>
    if settings.interactive && !options.noPrompt && !options.dryRun && host.canAsk then
      .interactive
    else .declined

/-- Generates a test case. -/
def generateTest (host : Host) (globals : Globals) (options : GenerateOptions) :
    Action (Except Failure Generated) := do
  match (← host.settings globals.noSettings options.settingsFile) with
  | .error failure => return .error failure
  | .ok settings =>
    match (← host.openStore globals.preferenceFile) with
    | .error failure => return .error failure
    | .ok (_, store) =>
      let (result, _) ← Generation.generate store settings
        { source := some options.source, selection := options.selection }
        (promptFor host settings options) options.dryRun
      return result

/-- Everything that a test store remembers. -/
def rememberedIn (store : TestStore) (preferenceFile : String) : Report.Remembered where
  preferenceFile
  inUse := Preferences.Outputs.inUse store.preferences.document
  entries := Preferences.Outputs.entries store.preferences.document

/-- Lists the remembered directories. -/
def listRemembered (host : Host) (globals : Globals) :
    Action (Except Failure Report.Remembered) := do
  match (← host.openStore globals.preferenceFile) with
  | .error failure => return .error failure
  | .ok (path, store) => return .ok (rememberedIn store path)

/-- Finds where the tests of a source file go. -/
def showDestination (host : Host) (globals : Globals) (source : String) :
    Action (Except Failure Generation.Destination) := do
  match (← host.openStore globals.preferenceFile) with
  | .error failure => return .error failure
  | .ok (_, store) =>
    match (← host.settings globals.noSettings none) with
    | .error failure => return .error failure
    | .ok settings => Generation.destination store settings.naming source

/-- Writes the sample settings file, over another file only by force. -/
def writeSample (path : String) (force : Bool) : Action (Except Failure Unit) := do
  if (← Action.pathExists path) && !force then
    return .error (.settings ("Configuration file already exists: " ++ path ++
      ". Use --force to overwrite."))
  else Files.replace path Settings.sample.toUTF8

/-! ## Results in words -/

/-- The text about a generated case: all of it if nothing was written, and
otherwise what happened to which file. -/
def generatedText (quiet : Bool) (generated : Generated) : String :=
  match generated.outcome with
  | none => generated.content
  | some outcome =>
    if quiet then ""
    else outcome.word ++ " " ++ generated.caseName ++ ": " ++ generated.testFile ++ "\n"

/-- The outcome of a task: its text, or its failure in words. -/
def conclude {α : Type} (host : Host) (globals : Globals) (text : α → String)
    (result : Except Failure α) : Outcome :=
  match result with
  | .ok value => { exitCode := 0, output := text value }
  | .error failure => {
      exitCode := failure.exitCode
      messages := renderFailure (globals.color.resolve host.messageColors) failure }

/-- The warning before a file is written over. -/
def overwriteWarning (host : Host) (globals : Globals) (path : String) : String :=
  Report.Diagnostic.warning { message := "Overwriting " ++ path }
    (globals.color.resolve host.messageColors)

/-- Writes the sample settings file and says so. -/
def runInit (host : Host) (globals : Globals) (path : String) (force : Bool) :
    Action Outcome := do
  let overwrites ← if force then Action.pathExists path else pure false
  let warning :=
    if overwrites && !globals.quiet then overwriteWarning host globals path else ""
  let outcome := conclude host globals
    (fun () => if globals.quiet then "" else "Created configuration file: " ++ path ++ "\n")
    (← writeSample path force)
  return { outcome with messages := warning ++ outcome.messages }

/-- Runs the task of an invocation. -/
def run (host : Host) (invocation : Invocation) : Action Outcome := do
  let globals := invocation.globals
  match invocation.task with
  | .generate options =>
    return conclude host globals (generatedText globals.quiet)
      (← generateTest host globals options)
  | .prefsList format =>
    return conclude host globals
      (fun remembered => remembered.render format (globals.color.resolve host.outputColors))
      (← listRemembered host globals)
  | .prefsShow source =>
    return conclude host globals Generation.Destination.render
      (← showDestination host globals source)
  | .init output force => runInit host globals output force

end TestSkeleton.Command
