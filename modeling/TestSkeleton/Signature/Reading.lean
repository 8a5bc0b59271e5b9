import TestSkeleton.Signature.Basic
import TestSkeleton.Failure

/-!
# Reading a signature from a line

The line is cut at its first `(` and its first `)`.  The name is the last
word before the `(`, and whatever stands before the name is dropped: access
specifiers, return types, `static`.  Parentheses do not nest here, so the
parameter text ends at the first `)`.

`Signature.read` gives the signature or the first reason against it, in this
order: a blank line, no `(`, no `)`, a `)` before the `(`, no name.
-/

namespace TestSkeleton

namespace Signature

/-- Why a line holds no signature. -/
inductive Refusal where
  | blankLine
  | missingOpen
  | missingClose
  | closeBeforeOpen
  | missingName
deriving DecidableEq, Inhabited, Repr

/-- The refusal as a failure of the command that selected the line. -/
def Refusal.toFailure (line : String) : Refusal → Failure
  | .blankLine => .emptySelection
  | .missingOpen => .invalidSignature (Text.trimmed line) "missing `(`"
  | .missingClose => .invalidSignature (Text.trimmed line) "missing `)`"
  | .closeBeforeOpen => .invalidSignature (Text.trimmed line) "`)` appears before `(`"
  | .missingName => .invalidSignature (Text.trimmed line) "no method name before `(`"

/-- The name in front of the parameter list.  It is the last word, and
something has to be left of it without scopes and sigils. -/
def nameBefore? (front : List Char) : Option (List Char) :=
  match (Text.words front).getLast? with
  | some name => if (unqualify name).isEmpty then none else some name
  | none => none

/-- Reads the signature that a line holds. -/
def read (line : String) : Except Refusal Signature :=
  let cs := line.toList
  let front := cs.takeWhile (fun c => c != '(')
  if cs.all Text.isBlank then .error .blankLine
  else if !cs.contains '(' then .error .missingOpen
  else if !cs.contains ')' then .error .missingClose
  else if front.contains ')' then .error .closeBeforeOpen
  else
    match nameBefore? front with
    | none => .error .missingName
    | some name =>
      let parameters := ((cs.drop (front.length + 1)).takeWhile (fun c => c != ')'))
      .ok ⟨String.ofList name, String.ofList parameters⟩

end Signature

end TestSkeleton
