/-!
# Terminal styles

Text for a terminal may be coloured by escape sequences.  `paint` puts a text
between the sequences that turn its styles on and off again.
-/

namespace TestSkeleton.Report

/-- The styles in use. -/
inductive Style where
  | red
  | green
  | yellow
  | cyan
  | bold
  | dim
deriving DecidableEq, Inhabited, Repr

/-- The sequence that turns a style on. -/
def Style.code : Style → String
  | .red => "\x1b[31m"
  | .green => "\x1b[32m"
  | .yellow => "\x1b[33m"
  | .cyan => "\x1b[36m"
  | .bold => "\x1b[1m"
  | .dim => "\x1b[2m"

/-- The sequence that turns every style off. -/
def resetCode : String := "\x1b[0m"

/-- When the user wants colours. -/
inductive ColorChoice where
  /-- At a terminal, unless the environment says no. -/
  | auto
  | always
  | never
deriving DecidableEq, Inhabited, Repr

/-- Whether a stream gets colours.  `colorful` says whether it is a terminal
that may show them. -/
def ColorChoice.resolve (choice : ColorChoice) (colorful : Bool) : Bool :=
  match choice with
  | .auto => colorful
  | .always => true
  | .never => false

/-- A text in some styles, or plain. -/
def paint (colored : Bool) (styles : List Style) (text : String) : String :=
  if colored then String.join (styles.map Style.code) ++ text ++ resetCode else text

end TestSkeleton.Report
