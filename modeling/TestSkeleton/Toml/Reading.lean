import TestSkeleton.Toml.Lexical
import TestSkeleton.Toml.Scalar
import TestSkeleton.Toml.Tables

/-!
# Reading TOML

A document is read line by line into statements, and the statements build up
its table.

* `readValue?` reads a value.  Arrays and tables between braces may lie
  inside each other up to `maxDepth` levels.
* `statements?` reads the lines of a document.
* `Toml.parse?` reads the table of a document.
-/

namespace TestSkeleton.Toml

/-- How deep arrays and tables between braces may lie inside each other. -/
def maxDepth : Nat := 80

/-- Elements up to a closing mark, with commas between them and perhaps after
the last, of which there are at most `count`.  Between them there may be
blanks, line ends and comments. -/
def elements? {α : Type} (close : Char) (element? : List Char → Option (α × List Char)) :
    Nat → List Char → Option (List α × List Char)
  | 0, _ => none
  | count + 1, cs => do
    let cs ← skipFiller false cs
    if cs.head? == some close then some ([], cs.drop 1)
    else
      let (element, cs) ← element? cs
      let cs ← skipFiller false cs
      match cs with
      | ',' :: cs =>
        let (elements, cs) ← elements? close element? count cs
        some (element :: elements, cs)
      | c :: cs => if c == close then some ([element], cs) else none
      | [] => none

/-- A dotted key, an equals sign and a value.  `skip?` skips what may stand
around the equals sign. -/
def keyValue? (skip? : List Char → Option (List Char))
    (value? : List Char → Option (Toml × List Char)) (cs : List Char) :
    Option ((List String × String × Toml) × List Char) := do
  let ((path, key), cs) ← readKey? cs
  match (← skip? cs) with
  | '=' :: cs =>
    let (value, cs) ← value? (← skip? cs)
    some ((path, key, value), cs)
  | _ => none

/-- A dotted key and its value in a table between braces, where blanks, line
ends and comments may stand around the equals sign. -/
def bracedAssignment? (value? : List Char → Option (Toml × List Char)) (cs : List Char) :
    Option ((List String × String × Toml) × List Char) :=
  keyValue? (skipFiller false) value? cs

/-- A dotted key and its value on one line. -/
def lineAssignment? (value? : List Char → Option (Toml × List Char)) (cs : List Char) :
    Option ((List String × String × Toml) × List Char) :=
  keyValue? (fun cs => some (skipSpace cs)) value? cs

/-- A string as a value. -/
def stringValue? (cs : List Char) : Option (Toml × List Char) :=
  (readString? cs).map fun (text, cs) => (.string (String.ofList text), cs)

/-- A number, a date or a truth value. -/
def scalarValue? (cs : List Char) : Option (Toml × List Char) :=
  let (text, rest) := scalarText cs
  (scalar? text).map fun value => (value, rest)

/-- A value inside which arrays and tables may lie `depth` levels deep. -/
def readValue? : Nat → List Char → Option (Toml × List Char)
  | _, '"' :: cs => stringValue? ('"' :: cs)
  | _, '\'' :: cs => stringValue? ('\'' :: cs)
  | 0, '[' :: _ => none
  | 0, '\x7b' :: _ => none
  | depth + 1, '[' :: cs =>
    (elements? ']' (readValue? depth) (cs.length + 1) cs).map fun (items, cs) =>
      (.array items, cs)
  | depth + 1, '\x7b' :: cs => do
    let (entries, cs) ← elements? '\x7d' (bracedAssignment? (readValue? depth)) (cs.length + 1) cs
    let value ← inlineTable? entries
    some (value, cs)
  | _, cs => scalarValue? cs

/-- A header after its opening bracket or brackets. -/
def header? (double : Bool) (cs : List Char) : Option (Statement × List Char) := do
  let ((path, key), cs) ← readKey? (skipSpace cs)
  match double, skipSpace cs with
  | true, ']' :: ']' :: cs => some (.arrayHeader path key, cs)
  | false, ']' :: cs => some (.header path key, cs)
  | _, _ => none

/-- A statement at the start of a text. -/
def statement? : List Char → Option (Statement × List Char)
  | '[' :: '[' :: cs => header? true cs
  | '[' :: cs => header? false cs
  | cs => do
    let ((path, key, value), cs) ← lineAssignment? (readValue? maxDepth) cs
    some (.assign path key value, cs)

/-- The statements of a text of at most `count` statements. -/
def statementsWithin? : Nat → List Char → Option (List Statement)
  | 0, _ => none
  | count + 1, cs => do
    match (← skipFiller false cs) with
    | [] => some []
    | cs =>
      let (statement, cs) ← statement? cs
      let cs ← endOfLine? cs
      let statements ← statementsWithin? count cs
      some (statement :: statements)

/-- The statements of a document.  A byte order mark in front is skipped. -/
def statements? (cs : List Char) : Option (List Statement) :=
  match cs with
  | '\ufeff' :: cs => statementsWithin? (cs.length + 1) cs
  | cs => statementsWithin? (cs.length + 1) cs

/-- The table of a document. -/
def parse? (text : String) : Option Table :=
  (statements? text.toList).bind Document.ofStatements?

end TestSkeleton.Toml
