import TestSkeleton.Report.Style
import TestSkeleton.Failure

/-!
# Failures and warnings on the terminal

A diagnostic has a headline, and below it a detail and a hint if there are
any.
-/

namespace TestSkeleton.Report

/-- What is told about a failure or a warning. -/
structure Diagnostic where
  message : String
  detail : Option String := none
  hint : Option String := none
deriving DecidableEq, Inhabited, Repr

/-- The lines below the headline. -/
def Diagnostic.tail (diagnostic : Diagnostic) (colored : Bool) : String :=
  (match diagnostic.detail with
    | some detail => "  " ++ paint colored [.dim] ("× " ++ detail) ++ "\n"
    | none => "") ++
  (match diagnostic.hint with
    | some hint => "  " ++ paint colored [.cyan] "help:" ++ " " ++ hint ++ "\n"
    | none => "")

/-- A failure of a category. -/
def Diagnostic.error (diagnostic : Diagnostic) (colored : Bool) (category : String) : String :=
  paint colored [.bold, .red] ("✖ " ++ category ++ ":") ++ " " ++ diagnostic.message ++ "\n" ++
    diagnostic.tail colored

/-- A warning. -/
def Diagnostic.warning (diagnostic : Diagnostic) (colored : Bool) : String :=
  paint colored [.bold, .yellow] "⚠ Warning:" ++ " " ++ diagnostic.message ++ "\n" ++
    diagnostic.tail colored

/-- What is told about a failure. -/
def diagnosticOf (failure : Failure) : Diagnostic :=
  ⟨failure.message, failure.detail?, failure.hint?⟩

/-- A failure with its detail and its hint. -/
def renderFailure (colored : Bool) (failure : Failure) : String :=
  (diagnosticOf failure).error colored failure.category

end TestSkeleton.Report
