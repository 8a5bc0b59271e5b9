import TestSkeleton.Files.Guarded
import TestSkeleton.Text.Blank

/-!
# The selected line

A signature is selected by the number of its line in the source file, or
given as text.  Lines end with a line feed, carriage returns in front of it
are dropped, and a number beyond the last line selects an empty one.
-/

namespace TestSkeleton.Source

open Files (Action)

/-- How the signature is selected. -/
inductive Selection where
  /-- The line with this number, from 1. -/
  | line (number : Nat)
  | text (text : String)
deriving DecidableEq, Inhabited, Repr

/-- The file to work on and the selection in it. -/
structure Context where
  /-- The path of the source file, if there is one. -/
  source : Option String
  selection : Selection
deriving DecidableEq, Inhabited, Repr

/-- The line with a number, counted from 1. -/
def lineOf (text : String) (number : Nat) : String :=
  let lines := Text.fields (fun c => c == '\n') text.toList
  String.ofList (Text.dropEndWhile (fun c => c == '\r') (lines.getD (number - 1) []))

/-- The path of the source file.  An empty path is none. -/
def Context.path (context : Context) : Except Failure String :=
  match context.source with
  | some path => if path.isEmpty then .error .noSource else .ok path
  | none => .error .noSource

/-- The text of the selected line. -/
def Context.selectedLine (context : Context) : Action (Except Failure String) :=
  match context.selection with
  | .text text => pure (.ok text)
  | .line 0 => pure (.error .emptySelection)
  | .line (number + 1) =>
    match context.path with
    | .error failure => pure (.error failure)
    | .ok path => do
      match (← Action.readText path) with
      | .error fault => return .error (.fileRead path fault)
      | .ok text => return .ok (lineOf text (number + 1))

end TestSkeleton.Source
