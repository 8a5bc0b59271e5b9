import TestSkeleton.Command.Grammar
import TestSkeleton.Command.Invocation

/-!
# Reading the command line

The words are read from left to right.  A word that names a command opens
its level; a word with dashes is an option of the level that is open; any
other word is the value of the option before it or the source file.

* A value is checked when the next thing is read, so that an earlier fault
  is reported first (`Seen.settle`).
* When the words are used up, the levels are completed from the inside out:
  first what excludes each other, then what is missing.
* An option that is allowed at every level has the value of the innermost
  level that gives it.
-/

namespace TestSkeleton.Command

open Report (ColorChoice Format)

/-! ## Values -/

/-- The number that a text writes: digits, perhaps after a plus sign, for a
number of 64 bits. -/
def number? (text : String) : Option Nat :=
  let digits :=
    match text.toList with
    | '+' :: digits => digits
    | digits => digits
  if digits.isEmpty || !digits.all Char.isDigit then none
  else
    let n := digits.foldl (fun n c => n * 10 + (c.toNat - '0'.toNat)) 0
    if n < UInt64.size then some n else none

/-- The choice that a word names. -/
def color? (word : String) : Option ColorChoice :=
  if word == "auto" then some .auto
  else if word == "always" then some .always
  else if word == "never" then some .never
  else none

/-- The fault of a value of an option. -/
def valueFault? (opt : Opt) (value : String) : Option Usage :=
  match opt with
  | .line => if (number? value).isNone then some .unreadableValue else none
  | .format => if (Format.ofText? value).isNone then some .unreadableValue else none
  | .color => if (color? value).isNone then some .invalidValue else none
  | .signature => none
  | _ => if value.isEmpty then some .invalidValue else none

/-! ## One level -/

/-- The last thing that was read, as long as it is not checked. -/
inductive Pending where
  | none
  /-- An option whose value comes next. -/
  | waiting (opt : Opt)
  | value (opt : Opt) (value : String)
  | source (path : String)
deriving DecidableEq, Inhabited, Repr

/-- What was read at one level. -/
structure Seen where
  /-- The options with their values; the value of a flag is empty. -/
  options : List (Opt × String) := []
  /-- How often `verbose` was given. -/
  verbosity : Nat := 0
  source : Option String := none
  pending : Pending := .none
deriving DecidableEq, Inhabited, Repr

namespace Seen

/-- The value of an option, if it was given. -/
def value? (seen : Seen) (opt : Opt) : Option String :=
  seen.options.lookup opt

/-- Whether an option was given. -/
def has (seen : Seen) (opt : Opt) : Bool :=
  (seen.value? opt).isSome

/-- Adds an option, which may be given only once, with its value. -/
def add (seen : Seen) (opt : Opt) (value : String) : Except Usage Seen :=
  if seen.has opt then .error .conflict
  else
    match (if opt.takesValue then valueFault? opt value else none) with
    | some fault => .error fault
    | none => .ok { seen with options := seen.options ++ [(opt, value)] }

/-- Checks what is pending. -/
def settle (seen : Seen) : Except Usage Seen :=
  match seen.pending with
  | .none => .ok seen
  | .waiting _ => .error .invalidValue
  | .value opt value => { seen with pending := .none }.add opt value
  | .source path =>
    if path.isEmpty then .error .invalidValue
    else .ok { seen with pending := .none, source := some path }

/-- Whether the value of an option comes next. -/
def isWaiting (seen : Seen) : Bool :=
  match seen.pending with
  | .waiting _ => true
  | _ => false

/-- Whether the source file was given. -/
def hasSource (seen : Seen) : Bool :=
  match seen.pending with
  | .source _ => true
  | _ => seen.source.isSome

/-- Whether anything was given. -/
def isEmpty (seen : Seen) : Bool :=
  seen.options.isEmpty && seen.verbosity == 0 && seen.source.isNone

/-- Reads an option without a value. -/
def flag (seen : Seen) (opt : Opt) : Except Usage Seen := do
  let seen ← seen.settle
  match opt with
  | .help => .error .help
  | .version => .error .version
  | .verbose => .ok { seen with verbosity := min (seen.verbosity + 1) 255 }
  | opt => seen.add opt ""

/-- Reads an option with a value, which may be attached to it. -/
def option (seen : Seen) (opt : Opt) (attached : Option String) : Except Usage Seen := do
  let seen ← seen.settle
  match attached with
  | some value => seen.add opt value
  | none => .ok { seen with pending := .waiting opt }

/-- Reads the letters after one dash. -/
def letters (level : Level) (seen : Seen) : List Char → Except Usage Seen
  | [] => .ok seen
  | c :: rest =>
    match level.short? c with
    | none => .error .unknownArgument
    | some opt =>
      if opt.takesValue then
        match rest with
        | [] => seen.option opt none
        | '=' :: value => seen.option opt (some (String.ofList value))
        | value => seen.option opt (some (String.ofList value))
      else
        match seen.flag opt with
        | .error usage => .error usage
        | .ok seen => letters level seen rest

/-- Reads what follows two dashes: a name, and perhaps a value after an
equals sign. -/
def longOption (level : Level) (seen : Seen) (text : List Char) : Except Usage Seen :=
  let name := text.takeWhile (fun c => c != '=')
  let attached :=
    match text.dropWhile (fun c => c != '=') with
    | [] => none
    | _ :: value => some (String.ofList value)
  match level.long? (String.ofList name) with
  | none => .error .unknownArgument
  | some opt =>
    if opt.takesValue then seen.option opt attached
    else if attached.isSome then .error .unexpectedValue
    else seen.flag opt

/-- Reads a word without dashes.  `trailing` says whether a double dash came
before it. -/
def word (level : Level) (seen : Seen) (trailing : Bool) (text : String) :
    Except Usage Seen :=
  match seen.pending, trailing with
  | .waiting opt, false => .ok { seen with pending := .value opt text }
  | _, _ =>
    if level.takesSource && !seen.hasSource then do
      let seen ← seen.settle
      .ok { seen with pending := .source text }
    else if level.needsSub then
      if trailing && ((level.sub? text).isSome || level.isHelpWord text) then
        .error .unknownArgument
      else .error .unknownCommand
    else .error .unknownArgument

end Seen

/-! ## All levels -/

/-- The levels that are open, the innermost apart. -/
structure Parsing where
  level : Level := .root
  seen : Seen := {}
  /-- The levels around, from the inside out. -/
  outer : List (Level × Seen) := []
  /-- Whether a double dash was read. -/
  trailing : Bool := false
deriving DecidableEq, Inhabited, Repr

/-- What a request for help about some words answers. -/
def helpAbout (level : Level) : List String → Usage
  | [] => .help
  | word :: rest =>
    match level.sub? word with
    | some sub => helpAbout sub rest
    | none => if level.isHelpWord word && rest.isEmpty then .help else .unknownCommand

namespace Parsing

/-- Reads a word that names no command. -/
def argument (parsing : Parsing) (text : String) : Except Usage Parsing :=
  match parsing.trailing, text.toList with
  | false, ['-', '-'] => .ok { parsing with trailing := true }
  | false, '-' :: '-' :: name => do
    .ok { parsing with seen := ← parsing.seen.longOption parsing.level name }
  | false, '-' :: c :: rest => do
    .ok { parsing with seen := ← parsing.seen.letters parsing.level (c :: rest) }
  | trailing, _ => do
    .ok { parsing with seen := ← parsing.seen.word parsing.level trailing text }

/-- Opens a level. -/
def descend (parsing : Parsing) (level : Level) : Parsing :=
  { level, seen := {}, outer := (parsing.level, parsing.seen) :: parsing.outer, trailing := false }

/-- Reads all words. -/
def read (parsing : Parsing) : List String → Except Usage Parsing
  | [] => .ok parsing
  | text :: rest =>
    if parsing.trailing || parsing.seen.isWaiting then
      match parsing.argument text with
      | .ok parsing => parsing.read rest
      | .error usage => .error usage
    else
      match parsing.level.sub? text with
      | some level => (parsing.descend level).read rest
      | none =>
        if parsing.level.isHelpWord text then .error (helpAbout parsing.level rest)
        else
          match parsing.argument text with
          | .ok parsing => parsing.read rest
          | .error usage => .error usage

end Parsing

/-! ## Completing a level -/

/-- Whether two things were given that exclude each other. -/
def Seen.hasConflict (seen : Seen) : Bool :=
  (seen.has .line && seen.has .signature) || (seen.has .outputDir && seen.has .noPrompt)

/-- Whether something is missing that a level needs. -/
def Seen.isIncomplete (level : Level) (seen : Seen) : Bool :=
  (level.takesSource && seen.source.isNone) ||
    (level == .generate && !seen.has .line && !seen.has .signature)

/-- Completes a level.  `inside` says whether another level was opened in
it. -/
def completeLevel (inside : Bool) (level : Level) (seen : Seen) : Except Usage Seen := do
  let seen ← seen.settle
  if !inside && level.needsSub then
    if seen.isEmpty then .error .nothingGiven else .error .missingCommand
  else if seen.hasConflict then .error .conflict
  else if seen.isIncomplete level then .error .missingArgument
  else .ok seen

/-- The choices that every command takes, for levels from the inside out. -/
def globalsOf (levels : List Seen) : Globals where
  verbosity := ((levels.map Seen.verbosity).find? (fun n => n != 0)).getD 0
  quiet := levels.any (fun seen => seen.has .quiet)
  color := ((levels.findSome? (fun seen => seen.value? .color)).bind color?).getD .auto
  noSettings := levels.any (fun seen => seen.has .noConfig)
  preferenceFile := levels.findSome? (fun seen => seen.value? .prefsFile)

/-- How the signature is selected.  A level that is complete has one of the
two options. -/
def selectionOf (seen : Seen) : Source.Selection :=
  match (seen.value? .line).bind number?, seen.value? .signature with
  | some number, _ => .line number
  | none, some text => .text text
  | none, none => .line 0

/-- The task of a level that is complete. -/
def taskOf (level : Level) (seen : Seen) : Task :=
  match level with
  | .generate => .generate {
      source := seen.source.getD ""
      selection := selectionOf seen
      outputDir := seen.value? .outputDir
      noPrompt := seen.has .noPrompt
      settingsFile := seen.value? .config
      dryRun := seen.has .dryRun }
  | .prefsShow => .prefsShow (seen.source.getD "")
  | .init => .init ((seen.value? .output).getD ".gtest-scaffold.toml") (seen.has .force)
  | _ => .prefsList (((seen.value? .format).bind Format.ofText?).getD .text)

/-- The invocation that all words make. -/
def Parsing.complete (parsing : Parsing) : Except Usage Invocation := do
  let inner ← completeLevel false parsing.level parsing.seen
  let outer ← parsing.outer.mapM fun (level, seen) => completeLevel true level seen
  .ok { globals := globalsOf (inner :: outer), task := taskOf parsing.level inner }

/-- Reads the words after the name of the program. -/
def parseWords (words : List String) : Except Usage Invocation := do
  (← ({} : Parsing).read words).complete

end TestSkeleton.Command
