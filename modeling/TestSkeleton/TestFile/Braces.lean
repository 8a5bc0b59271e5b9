import TestSkeleton.Text.Blank
import TestSkeleton.Text.Word

/-!
# Scanning for braces

A test file ends with the brace that closes its namespace.  To find that
brace the text is read one character at a time by a machine that knows five
modes: code, line comments, block comments, string literals and character
literals.  Braces count in code only.

* `Scan.step` reads one character, and `Scan.run` reads a text.  Reading two
  texts in turn is reading them joined (`run_append`).
* A `'` after a word is part of the word, as in `1'000`, unless the word is
  an encoding mark (`opensLiteral`).
* `Scan.lastClose?` is the offset of the last brace that closed a top-level
  block, and `Scan.trailing` says whether code follows it.
-/

namespace TestSkeleton.TestFile

/-- What the text read so far makes of the next character. -/
inductive Mode where
  /-- Code after a word, last character first; no word is the empty one. -/
  | code (word : List Char)
  /-- Code after a `/`, which may start a comment. -/
  | slash
  /-- A comment up to the end of the line. -/
  | lineComment
  /-- A comment up to the closing mark, of which `star` is the first half. -/
  | blockComment (star : Bool)
  /-- A literal up to `quote`; `escaped` is set after a backslash. -/
  | literal (quote : Char) (escaped : Bool)
deriving DecidableEq, Inhabited, Repr

/-- The state of the machine between two characters. -/
structure Scan where
  mode : Mode := .code []
  /-- The number of bytes read. -/
  offset : Nat := 0
  /-- The number of open blocks. -/
  depth : Nat := 0
  /-- The offset of the last brace that closed a top-level block. -/
  lastClose? : Option Nat := none
  /-- Whether code was read after that brace. -/
  trailing : Bool := false
deriving DecidableEq, Inhabited, Repr

/-- Whether a `'` after a word starts a character literal.  Nothing or an
encoding mark may stand in front of one; the word is given last character
first. -/
def opensLiteral (word : List Char) : Bool :=
  word == [] || word == ['L'] || word == ['u'] || word == ['U'] || word == ['8', 'u']

namespace Scan

/-- A code character that is neither a brace nor part of a word. -/
def plain (scan : Scan) (mode : Mode) : Scan :=
  { scan with mode := mode, trailing := true }

/-- Reads a brace that opens a block. -/
def openBlock (scan : Scan) : Scan :=
  { scan with mode := .code [], depth := scan.depth + 1, trailing := true }

/-- Reads a brace that closes a block.  There has to be one. -/
def closeBlock (scan : Scan) : Except Nat Scan :=
  match scan.depth with
  | 0 => .error scan.offset
  | 1 => .ok { scan with
      mode := .code [], depth := 0, lastClose? := some scan.offset, trailing := false }
  | depth + 2 => .ok { scan with mode := .code [], depth := depth + 1, trailing := true }

/-- Reads a character of code that follows `word`. -/
def readCode (scan : Scan) (word : List Char) (c : Char) : Except Nat Scan :=
  if Text.isAsciiWord c then .ok (scan.plain (.code (c :: word)))
  else if Text.isBlank c then .ok { scan with mode := .code [] }
  else if c == '/' then .ok { scan with mode := .slash }
  else if c == '\'' then
    if opensLiteral word then .ok (scan.plain (.literal '\'' false))
    else .ok (scan.plain (.code (c :: word)))
  else if c == '"' then .ok (scan.plain (.literal '"' false))
  else if c == '\x7b' then .ok scan.openBlock
  else if c == '\x7d' then scan.closeBlock
  else .ok (scan.plain (.code []))

/-- Reads a character inside a literal.  A line end closes the literal, too,
but not after a backslash. -/
def readLiteral (scan : Scan) (quote : Char) (escaped : Bool) (c : Char) : Scan :=
  if escaped then { scan with mode := .literal quote false }
  else if c == '\\' then scan.plain (.literal quote true)
  else if c == quote || c == '\n' then scan.plain (.code [])
  else scan.plain (.literal quote false)

/-- Reads a character in the mode of the machine, without counting it. -/
def read (scan : Scan) (c : Char) : Except Nat Scan :=
  match scan.mode with
  | .code word => scan.readCode word c
  | .slash =>
    if c == '/' then .ok { scan with mode := .lineComment }
    else if c == '*' then .ok { scan with mode := .blockComment false }
    else (scan.plain (.code [])).readCode [] c
  | .lineComment => .ok (if c == '\n' then { scan with mode := .code [] } else scan)
  | .blockComment star =>
    .ok { scan with
      mode := if star && c == '/' then .code [] else .blockComment (c == '*') }
  | .literal quote escaped => .ok (scan.readLiteral quote escaped c)

/-- Reads one character.  The error is the offset of a brace that closes
nothing. -/
def step (scan : Scan) (c : Char) : Except Nat Scan := do
  let next ← scan.read c
  .ok { next with offset := scan.offset + c.utf8Size }

/-- Reads a text. -/
def run (scan : Scan) (cs : List Char) : Except Nat Scan :=
  cs.foldlM step scan

/-- Whether the text ends with code after the last brace.  A `/` at the very
end is code. -/
def endsWithCode (scan : Scan) : Bool :=
  scan.trailing || scan.mode == .slash

@[simp] theorem run_nil (scan : Scan) : scan.run [] = .ok scan := rfl

theorem run_cons (scan : Scan) (c : Char) (cs : List Char) :
    scan.run (c :: cs) = (scan.step c).bind (fun next => next.run cs) := by
  simp [run, bind]

/-- Reading two texts in turn is reading them joined. -/
theorem run_append (scan : Scan) (cs ds : List Char) :
    scan.run (cs ++ ds) = (scan.run cs).bind (fun next => next.run ds) := by
  simp [run, bind]

end Scan

end TestSkeleton.TestFile
