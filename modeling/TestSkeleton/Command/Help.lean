import TestSkeleton.Command.Reading
import TestSkeleton.Command.Run

/-!
# Help and usage

What a command line that runs no task answers: the help text, the version, or
why the words were refused.
-/

namespace TestSkeleton.Command

/-- The version of the tool. -/
def versionText : String := UserDirs.toolName ++ " 0.1.0\n"

/-- The lines of the help text. -/
def helpLines : List String := [
  "Generate GoogleTest typed-test skeletons from C++ signatures",
  "",
  "Usage: gtest-scaffold [OPTIONS] <COMMAND>",
  "",
  "Commands:",
  "  generate <SOURCE>     Generate a test case for the function declared on one line",
  "    -l, --line <N>          1-based line of SOURCE holding the signature",
  "    -s, --signature <TEXT>  Signature text to use instead of reading a line",
  "    -o, --output-dir <DIR>  Directory for the test file of a new SOURCE",
  "        --no-prompt         Do not ask for a directory",
  "    -c, --config <PATH>     Path to configuration file",
  "        --dry-run           Print what would be written without touching any file",
  "  prefs list            List every remembered source file and its output directory",
  "    -f, --format <FORMAT>   text or json",
  "  prefs show <SOURCE>   Show where the test for one source file would be written",
  "  init                  Generate a default configuration file",
  "    -o, --output <PATH>     Output path for configuration file",
  "        --force             Overwrite existing configuration",
  "",
  "Options:",
  "  -v, --verbose             Increase log verbosity",
  "  -q, --quiet               Suppress non-essential output",
  "      --color <WHEN>        auto, always or never",
  "      --no-config           Skip loading configuration file",
  "      --prefs-file <PATH>   Preference file remembering output directories",
  "  -h, --help                Print help",
  "  -V, --version             Print version"]

/-- The help text. -/
def helpText : String :=
  String.join (helpLines.map fun line => line ++ "\n")

/-- Why the words were refused. -/
def Usage.reason : Usage → String
  | .help => "help was asked for"
  | .version => "the version was asked for"
  | .nothingGiven => "a command is needed"
  | .missingCommand => "a command is needed"
  | .unknownCommand => "unknown command"
  | .unknownArgument => "unexpected argument"
  | .missingArgument => "a required argument is missing"
  | .conflict => "an argument cannot be used with another or repeated"
  | .invalidValue => "an option has no valid value"
  | .unreadableValue => "a value cannot be read"
  | .unexpectedValue => "an option takes no value"

/-- What a command line that runs no task answers. -/
def Usage.outcome (usage : Usage) : Outcome :=
  match usage with
  | .help => { exitCode := usage.exitCode, output := helpText }
  | .version => { exitCode := usage.exitCode, output := versionText }
  | .nothingGiven => { exitCode := usage.exitCode, messages := helpText }
  | _ => {
      exitCode := usage.exitCode
      messages := "error: " ++ usage.reason ++ "\n\nFor more information, try '--help'.\n" }

/-- Reads the words after the name of the program and runs what they ask
for. -/
def runWords (host : Host) (words : List String) : Files.Action Outcome :=
  match parseWords words with
  | .ok invocation => run host invocation
  | .error usage => pure usage.outcome

end TestSkeleton.Command
