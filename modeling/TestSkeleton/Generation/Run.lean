import TestSkeleton.Generation.TestStore
import TestSkeleton.Settings.Basic
import TestSkeleton.Signature.Reading
import TestSkeleton.Source.Selection

/-!
# Generating a test case

From a source file and a selected line to a case in the test file.

* `plan` turns the path and the line into names and text, without touching a
  file.
* `generate` selects the line, resolves the directory, writes the case and
  then remembers the directory.  A dry run stops before it writes.
-/

namespace TestSkeleton.Generation

open Files (Action Fault)
open Source (Context FolderPrompt)

/-- What is to be written for one signature. -/
structure Plan where
  /-- The name of the test file. -/
  fileName : String
  caseName : String
  /-- The text of a new test file. -/
  document : String
  /-- The text of the case alone. -/
  caseText : String
deriving DecidableEq, Inhabited, Repr

/-- What a generation did. -/
structure Generated where
  testFile : String
  caseName : String
  /-- Nothing for a dry run. -/
  outcome : Option WriteOutcome
  /-- The document of a new file, or the case that was added. -/
  content : String
  firstTime : Bool
deriving DecidableEq, Inhabited, Repr

/-- The names and the text for a signature in a source file. -/
def planFor (settings : Settings) (source : String) (signature : Signature) : Plan :=
  let arguments := Argument.bind settings.initializers signature.parameters
  let header := settings.naming.headerOf source
  let fixture := settings.naming.fixtureOf header
  let method := signature.unqualifiedName
  { fileName := settings.naming.testFileOf source
    caseName := TestCase.nameFor method
    document := settings.template.document header fixture method arguments
    caseText := settings.template.caseText fixture method arguments }

/-- The names and the text for a line of a source file. -/
def plan (settings : Settings) (source line : String) : Except Failure Plan :=
  match Signature.read line with
  | .ok signature => .ok (planFor settings source signature)
  | .error refusal => .error (refusal.toFailure line)

/-- The path of a source file from the root: the real one if the file exists,
and otherwise the path as it is written. -/
def absoluteSource (source : String) : Action (Except Fault String) := do
  match (← Action.realPath source) with
  | .ok path => return .ok path
  | .error _ =>
    if source.isEmpty then return .error .emptyPath
    else if Path.isAbsolute source then return .ok (Path.absolute "/" source)
    else
      match (← Action.currentDir) with
      | .ok current => return .ok (Path.absolute current source)
      | .error fault => return .error fault

/-- What a dry run reports. -/
def preview (plan : Plan) (resolved : ResolvedOutput) (testFile : String) : Action Generated := do
  let content := if (← Action.pathExists testFile) then plan.caseText else plan.document
  return {
    testFile, caseName := plan.caseName, outcome := none, content
    firstTime := resolved.firstTime }

/-- Writes the case and then remembers the directory. -/
def carryOut (store : TestStore) (plan : Plan) (resolved : ResolvedOutput)
    (testFile : String) : Action (Except Failure Generated × TestStore) := do
  match (← store.writeCase testFile plan.document plan.caseName plan.caseText) with
  | .error failure => return (.error failure, store)
  | .ok outcome =>
    match (← store.commit resolved.pending) with
    | (.error failure, store) => return (.error failure, store)
    | (.ok (), store) =>
      let content :=
        match outcome with
        | .created => plan.document
        | .appended => plan.caseText
      return (.ok {
        testFile, caseName := plan.caseName, outcome := some outcome, content
        firstTime := resolved.firstTime }, store)

/-- Generates the case for a plan. -/
def generatePlan (store : TestStore) (prompt : FolderPrompt) (dryRun : Bool)
    (source : String) (plan : Plan) : Action (Except Failure Generated × TestStore) := do
  match (← absoluteSource source) with
  | .error fault => return (.error (.io fault), store)
  | .ok absolute =>
    let resolved ← store.resolve absolute prompt
    let testFile := Path.join resolved.directory plan.fileName
    if dryRun then return (.ok (← preview plan resolved testFile), store)
    else carryOut store plan resolved testFile

/-- Generates the case for the selected line of a source file. -/
def generate (store : TestStore) (settings : Settings) (context : Context)
    (prompt : FolderPrompt) (dryRun : Bool) : Action (Except Failure Generated × TestStore) := do
  match context.path with
  | .error failure => return (.error failure, store)
  | .ok source =>
    if !settings.naming.isSource source then
      return (.error (.unsupportedFileType source settings.naming.sourceExtension), store)
    else
      match (← context.selectedLine) with
      | .error failure => return (.error failure, store)
      | .ok line =>
        match plan settings source line with
        | .error failure => return (.error failure, store)
        | .ok plan => generatePlan store prompt dryRun source plan

end TestSkeleton.Generation
