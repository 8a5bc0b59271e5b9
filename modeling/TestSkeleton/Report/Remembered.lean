import TestSkeleton.Report.Style
import TestSkeleton.Json.Layout

/-!
# The list of remembered directories

Which source file has its tests in which directory, as text for a reader or
as JSON for a program.
-/

namespace TestSkeleton.Report

/-- A source file and the directory of its tests. -/
structure RememberedEntry where
  source : String
  directory : String
deriving DecidableEq, Inhabited, Repr

/-- Everything that is remembered. -/
structure Remembered where
  preferenceFile : String
  /-- Whether the remembered directories are used. -/
  inUse : Bool
  entries : List RememberedEntry
deriving DecidableEq, Inhabited, Repr

/-- How the list is written. -/
inductive Format where
  | text
  | json
deriving DecidableEq, Inhabited, Repr

/-- The format that a word names, in any case of its letters. -/
def Format.ofText? (word : String) : Option Format :=
  let lower := word.toList.map Char.toLower
  if lower == ['t', 'e', 'x', 't'] then some .text
  else if lower == ['j', 's', 'o', 'n'] then some .json
  else none

/-- The message for a word that names no format. -/
def Format.unknownMessage (word : String) : String :=
  "Unknown output format: " ++ word

namespace Remembered

/-- The lines for one source file. -/
def entryText (colored : Bool) (entry : RememberedEntry) : String :=
  entry.source ++ "\n  → " ++ paint colored [.cyan] entry.directory ++ "\n"

/-- The list as text. -/
def toText (remembered : Remembered) (colored : Bool) : String :=
  "Preferences: " ++ remembered.preferenceFile ++ "\nUse remembered directories: " ++
    (if remembered.inUse then paint colored [.green] "on" else paint colored [.yellow] "off") ++
    "\n" ++
    if remembered.entries.isEmpty then "\nNo output directories remembered yet.\n"
    else
      "\n" ++ String.join (remembered.entries.map (entryText colored)) ++ "\n" ++
        toString remembered.entries.length ++ " source file(s)\n"

/-- One source file as JSON. -/
def entryLayout (entry : RememberedEntry) : Json.Layout :=
  .object [("source", .string entry.source), ("directory", .string entry.directory)]

/-- The list as JSON. -/
def toJson (remembered : Remembered) : String :=
  Json.Layout.render (.object [
    ("prefs_file", .string remembered.preferenceFile),
    ("use_user_defined_path", .bool remembered.inUse),
    ("entries", .array (remembered.entries.map entryLayout))])

/-- The list in a format, with a line end at its end. -/
def render (remembered : Remembered) (format : Format) (colored : Bool) : String :=
  match format with
  | .text => remembered.toText colored
  | .json => remembered.toJson ++ "\n"

end Remembered

end TestSkeleton.Report
