import TestSkeleton.TestFile.Braces
import TestSkeleton.Text.Utf8

/-!
# Inserting a case

A case goes in front of the brace that closes the last top-level block.  The
file has to end with that brace: only blanks and comments may follow it.

`insertionPoint` gives the offset of the brace or the reason against it, and
`insertCase` the new text.  The case stands after one empty line and before
the brace on a line of its own.
-/

namespace TestSkeleton.TestFile

/-- Why a text takes no further case. -/
inductive Malformed where
  /-- A brace closes nothing; its offset. -/
  | unexpectedClose (offset : Nat)
  /-- So many blocks are never closed. -/
  | leftOpen (depth : Nat)
  /-- No top-level block is closed. -/
  | noClosingBrace
  /-- Code follows the last top-level block. -/
  | trailingContent
deriving DecidableEq, Inhabited, Repr

/-- The words for a malformed text. -/
def Malformed.reason : Malformed → String
  | .unexpectedClose offset =>
    "unbalanced braces: unexpected `\x7d` at byte " ++ toString offset
  | .leftOpen depth => "unbalanced braces: " ++ toString depth ++ " block(s) left open"
  | .noClosingBrace => "no closing brace found"
  | .trailingContent => "content follows the last closing brace"

/-- What a finished scan says about the place for a case. -/
def Scan.insertionPoint (scan : Scan) : Except Malformed Nat :=
  if scan.depth ≠ 0 then .error (.leftOpen scan.depth)
  else
    match scan.lastClose? with
    | none => .error .noClosingBrace
    | some offset => if scan.endsWithCode then .error .trailingContent else .ok offset

/-- The offset of the brace that a new case goes in front of. -/
def insertionPoint (text : List Char) : Except Malformed Nat :=
  match ({} : Scan).run text with
  | .error offset => .error (.unexpectedClose offset)
  | .ok scan => scan.insertionPoint

/-- The text with a case in front of the brace at `offset`. -/
def insertAt (text caseText : List Char) (offset : Nat) : List Char :=
  let (front, back) := Text.splitAtByte offset text
  Text.trimEnd front ++ ['\n', '\n'] ++ caseText ++ '\n' :: back

/-- The text with one more case. -/
def insertCase (text caseText : List Char) : Except Malformed (List Char) :=
  (insertionPoint text).map (insertAt text caseText)

end TestSkeleton.TestFile
