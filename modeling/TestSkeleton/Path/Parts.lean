import TestSkeleton.Text.Blank

/-!
# Walking a path

To the system a path is a string of bytes.  Here it is its text, and a path
that is no text is left out (see `Path.Bytes`).  Read as a walk it is a start,
which is the root for a leading `/` and the current directory otherwise, and a
list of steps.  Empty steps and `.` go nowhere and are skipped; `..` is a step
like any other.

* `steps` are the steps that go somewhere.
* `parent?` is the text that leads to the place before the last step.
* `join` puts one path after another.
* `absolute` names the same place from the root.
-/

namespace TestSkeleton.Path

/-- Whether a path starts at the root. -/
def isAbsolute (path : String) : Bool :=
  path.toList.head? == some '/'

/-- The texts between the slashes. -/
def segments (path : String) : List String :=
  (Text.fields (fun c => c == '/') path.toList).map String.ofList

/-- Whether a segment goes nowhere. -/
def isVoid (segment : String) : Bool :=
  segment.isEmpty || segment == "."

/-- The steps of a path that go somewhere. -/
def steps (path : String) : List String :=
  (segments path).filter (fun segment => !isVoid segment)

/-- The start of a path that `parent?` never takes apart, the root or a
leading `.`, and the segments after it. -/
def headAndBody (path : String) : String × List String :=
  match segments path with
  | "" :: second :: rest => ("/", second :: rest)
  | "." :: rest => (".", if rest.isEmpty then [] else "" :: rest)
  | all => ("", all)

/-- The segments without those at the end that go nowhere. -/
def dropVoidEnd (body : List String) : List String :=
  (body.reverse.dropWhile isVoid).reverse

/-- The text with the segments `body` after the start `head`. -/
def ofHeadAndBody (head : String) (body : List String) : String :=
  head ++ String.ofList (['/'].intercalate (body.map String.toList))

/-- The path to the place before the last step.  The root and the empty path
have none; a path of one step has the empty path. -/
def parent? (path : String) : Option String :=
  let (head, body) := headAndBody path
  match dropVoidEnd body with
  | [] => if head == "." then some "" else none
  | walked => some (ofHeadAndBody head (dropVoidEnd walked.dropLast))

/-- The last step, unless it is `..` or there is none. -/
def lastName? (path : String) : Option String :=
  match (steps path).getLast? with
  | some name => if name == ".." then none else some name
  | none => none

/-- Whether a text ends with a slash. -/
def endsWithSlash (path : String) : Bool :=
  path.toList.getLast? == some '/'

/-- The path `next`, walked from `base`. -/
def join (base next : String) : String :=
  if isAbsolute next then next
  else if base.isEmpty || endsWithSlash base then base ++ next
  else base ++ "/" ++ next

/-- The path with its last name replaced by `name`. -/
def withLastName (path name : String) : String :=
  match lastName? path, parent? path with
  | some _, some parent => join parent name
  | _, _ => join path name

/-- The directory that holds what a path names, `.` for a bare name. -/
def containingDir (path : String) : String :=
  match parent? path with
  | some parent => if parent.isEmpty then "." else parent
  | none => "."

/-- Whether a text starts with exactly two slashes. -/
def startsWithTwoSlashes (path : String) : Bool :=
  match path.toList with
  | '/' :: '/' :: '/' :: _ => false
  | '/' :: '/' :: _ => true
  | _ => false

/-- The path from the root, seen from the directory `current`.  Steps that go
nowhere are left out, `..` stays, exactly two leading slashes stay, and so
does a slash at the end. -/
def absolute (current path : String) : String :=
  let start :=
    if isAbsolute path then if startsWithTwoSlashes path then "//" else "/"
    else current
  let walked := (steps path).foldl join start
  if endsWithSlash path then join walked "" else walked

end TestSkeleton.Path
