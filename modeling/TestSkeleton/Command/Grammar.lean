/-!
# The grammar of the command line

Commands lie inside each other.  Each level has options of its own, and most
options of the outermost level are allowed at every level.

* `Level.options` are the options of a level.
* `Level.sub?` is the level that a word leads to.
* `Usage` says how a command line can be refused.
-/

namespace TestSkeleton.Command

/-- The named options. -/
inductive Opt where
  | verbose
  | quiet
  | color
  | noConfig
  | prefsFile
  | line
  | signature
  | outputDir
  | noPrompt
  | config
  | dryRun
  | format
  | output
  | force
  | help
  | version
deriving DecidableEq, Inhabited, Repr

namespace Opt

/-- The name after two dashes. -/
def long : Opt → String
  | .verbose => "verbose"
  | .quiet => "quiet"
  | .color => "color"
  | .noConfig => "no-config"
  | .prefsFile => "prefs-file"
  | .line => "line"
  | .signature => "signature"
  | .outputDir => "output-dir"
  | .noPrompt => "no-prompt"
  | .config => "config"
  | .dryRun => "dry-run"
  | .format => "format"
  | .output => "output"
  | .force => "force"
  | .help => "help"
  | .version => "version"

/-- The letter after one dash. -/
def short? : Opt → Option Char
  | .verbose => some 'v'
  | .quiet => some 'q'
  | .line => some 'l'
  | .signature => some 's'
  | .outputDir => some 'o'
  | .config => some 'c'
  | .format => some 'f'
  | .output => some 'o'
  | .help => some 'h'
  | .version => some 'V'
  | _ => none

/-- Whether the option has a value. -/
def takesValue : Opt → Bool
  | .color => true
  | .prefsFile => true
  | .line => true
  | .signature => true
  | .outputDir => true
  | .config => true
  | .format => true
  | .output => true
  | _ => false

/-- The options that are allowed at every level. -/
def globals : List Opt :=
  [.verbose, .quiet, .color, .noConfig, .prefsFile, .help]

end Opt

/-- The levels of the command line. -/
inductive Level where
  | root
  | generate
  | prefs
  | prefsList
  | prefsShow
  | init
deriving DecidableEq, Inhabited, Repr

namespace Level

/-- The options that are allowed at a level. -/
def options : Level → List Opt
  | .root => .version :: Opt.globals
  | .generate =>
    [.line, .signature, .outputDir, .noPrompt, .config, .dryRun] ++ Opt.globals
  | .prefs => Opt.globals
  | .prefsList => .format :: Opt.globals
  | .prefsShow => Opt.globals
  | .init => [.output, .force] ++ Opt.globals

/-- Whether a level has a source file without an option. -/
def takesSource : Level → Bool
  | .generate => true
  | .prefsShow => true
  | _ => false

/-- Whether a level needs another level inside. -/
def needsSub : Level → Bool
  | .root => true
  | .prefs => true
  | _ => false

/-- The level that a word leads to. -/
def sub? (level : Level) (word : String) : Option Level :=
  match level with
  | .root =>
    if word == "generate" then some .generate
    else if word == "prefs" then some .prefs
    else if word == "init" then some .init
    else none
  | .prefs =>
    if word == "list" then some .prefsList
    else if word == "show" then some .prefsShow
    else none
  | _ => none

/-- Whether a word asks a level for help. -/
def isHelpWord (level : Level) (word : String) : Bool :=
  level.needsSub && word == "help"

/-- The option of a level with a name. -/
def long? (level : Level) (name : String) : Option Opt :=
  level.options.find? (fun opt => opt.long == name)

/-- The option of a level with a letter. -/
def short? (level : Level) (letter : Char) : Option Opt :=
  level.options.find? (fun opt => opt.short? == some letter)

end Level

/-- Why a command line runs no task. -/
inductive Usage where
  /-- Help was asked for. -/
  | help
  /-- The version was asked for. -/
  | version
  /-- Nothing was given where something is needed. -/
  | nothingGiven
  /-- A command inside the last one is missing. -/
  | missingCommand
  /-- A word is no command. -/
  | unknownCommand
  /-- A word or an option has no place. -/
  | unknownArgument
  /-- The source file or the selection is missing. -/
  | missingArgument
  /-- Two options exclude each other, or one is repeated. -/
  | conflict
  /-- A value is missing, empty or not one of the choices. -/
  | invalidValue
  /-- A value cannot be read. -/
  | unreadableValue
  /-- An option without a value has one. -/
  | unexpectedValue
deriving DecidableEq, Inhabited, Repr

namespace Usage

/-- The exit code of a command line that runs no task. -/
def exitCode : Usage → Nat
  | .help => 0
  | .version => 0
  | _ => 2

end Usage

end TestSkeleton.Command
