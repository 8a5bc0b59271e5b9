import TestSkeleton.Text.Blank

/-!
# Signatures

A signature is what a line of source text says about one function: the name
in front of the parameter list and the text between the parentheses.  The
name may carry a class qualification and sigils, which `unqualifiedName`
leaves out.
-/

namespace TestSkeleton

/-- The marks of a pointer and of a reference. -/
def isSigil (c : Char) : Bool :=
  c == '*' || c == '&'

/-- A function name and its parameter text. -/
structure Signature where
  /-- The last word before the parameter list. -/
  name : String
  /-- The text between the first `(` and the first `)`. -/
  parameters : String
deriving DecidableEq, Inhabited, Repr

namespace Signature

/-- The reversed text up to the first double colon. -/
def beforeScope : List Char → List Char
  | ':' :: ':' :: _ => []
  | c :: rest => c :: beforeScope rest
  | [] => []

/-- What follows the last double colon of a name. -/
def unscoped (name : List Char) : List Char :=
  (beforeScope name.reverse).reverse

/-- A name without the scopes and the sigils in front of it. -/
def unqualify (name : List Char) : List Char :=
  (unscoped name).dropWhile isSigil

/-- The bare name of the function. -/
def unqualifiedName (signature : Signature) : String :=
  String.ofList (unqualify signature.name.toList)

end Signature

end TestSkeleton
