import TestSkeleton.Signature.Basic
import TestSkeleton.Entries

/-!
# Arguments

A parameter list becomes the local variables that a test case declares.

* The list is cut at its commas.  An empty piece counts as a position but
  declares nothing, and the list `void` is empty.
* A default value is dropped: everything from the first `=` on.
* The last word of a piece is the identifier and the words before it are the
  type.  Sigils in front of the identifier belong to the type.
* A piece of one word is a type, and its variable is named by its position.
* A type in the table of initializers gives its variable a first value.
-/

namespace TestSkeleton

/-- A local variable of a test case. -/
structure Argument where
  typeName : String
  identifier : String
  /-- The first value, or nothing for a default-constructed variable. -/
  initializer : Option String
deriving DecidableEq, Inhabited, Repr

namespace Argument

/-- The declaration of the variable. -/
def declaration (argument : Argument) : String :=
  match argument.initializer with
  | some value => argument.typeName ++ " " ++ argument.identifier ++ "=" ++ value ++ ";"
  | none => argument.typeName ++ " " ++ argument.identifier ++ ";"

/-- The literals for types whose variables start with a value. -/
abbrev Initializers := Entries String

/-- The literals that are used without settings. -/
def defaultInitializers : Initializers :=
  .ofList [("int", "0"), ("DWORD", "0"), ("string", "\"\""), ("wstring", "L\"\"")]

/-- The type and the identifier of a piece without its default value.  The
identifier is empty for an unnamed parameter. -/
def typeAndIdentifier (declaration : List Char) : List Char × List Char :=
  let words := Text.words declaration
  match words.getLast? with
  | none => (declaration, [])
  | some last =>
    match words.dropLast with
    | [] => (declaration, [])
    | front =>
      ([' '].intercalate front ++ last.takeWhile isSigil, last.dropWhile isSigil)

/-- One word is a type. -/
theorem typeAndIdentifier_singleton {text word : List Char} (h : Text.words text = [word]) :
    typeAndIdentifier text = (text, []) := by
  rw [typeAndIdentifier, h]
  rfl

/-- The last of several words is the identifier and its sigils. -/
theorem typeAndIdentifier_concat {text last : List Char} {front : List (List Char)}
    (hfront : front ≠ []) (h : Text.words text = front ++ [last]) :
    typeAndIdentifier text =
      ([' '].intercalate front ++ last.takeWhile isSigil, last.dropWhile isSigil) := by
  obtain ⟨first, others, rfl⟩ := List.exists_cons_of_ne_nil hfront
  rw [typeAndIdentifier, h, List.getLast?_concat, List.dropLast_concat]

/-- The variable for one piece of a parameter list, unless the piece is
empty. -/
def ofPiece? (table : Initializers) (position : Nat) (piece : List Char) : Option Argument :=
  let declaration := Text.trim (piece.takeWhile (fun c => c != '='))
  if declaration.isEmpty then none
  else
    let (typeName, identifier) := typeAndIdentifier declaration
    let typeName := String.ofList typeName
    some {
      typeName
      identifier :=
        if identifier.isEmpty then "arg" ++ toString position else String.ofList identifier
      initializer := table.get? typeName }

/-- The variables for the pieces of a parameter list, the first of which has
the given position. -/
def ofPieces (table : Initializers) (position : Nat) : List (List Char) → List Argument
  | [] => []
  | piece :: rest =>
    match ofPiece? table position piece with
    | some argument => argument :: ofPieces table (position + 1) rest
    | none => ofPieces table (position + 1) rest

/-- The variables for a parameter list. -/
def bind (table : Initializers) (parameters : String) : List Argument :=
  let text := Text.trim parameters.toList
  if text.isEmpty || text == ['v', 'o', 'i', 'd'] then []
  else ofPieces table 0 (Text.fields (fun c => c == ',') text)

end Argument

end TestSkeleton
