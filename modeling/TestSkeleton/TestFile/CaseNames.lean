import TestSkeleton.Text.Blank
import TestSkeleton.Text.Word

/-!
# The cases in a test file

A case starts with a header such as `TYPED_TEST(FooTest, ShouldAdd)`: the
keyword, and in parentheses two names with a comma between them, with blanks
anywhere but inside the words.  A header is recognised wherever its text
stands, also in a comment.

`header?` reads a header at the start of a text, and `caseNames` lists the
second names of all headers.  Headers do not overlap: the search goes on
after the closing parenthesis.
-/

namespace TestSkeleton.TestFile

/-- What every header starts with. -/
def headerKeyword : List Char := "TYPED_TEST".toList

/-- The text after `expected`, if it starts with it. -/
def after? : List Char → List Char → Option (List Char)
  | [], cs => some cs
  | _ :: _, [] => none
  | e :: es, c :: cs => if e = c then after? es cs else none

/-- A name at the start of a text, and the text after it. -/
def name? : List Char → Option (List Char × List Char)
  | [] => none
  | c :: cs =>
    if Text.isNameStart c then some (c :: cs.takeWhile Text.isWord, cs.dropWhile Text.isWord)
    else none

/-- Skips blanks and then one character that has to be `expected`. -/
def punctuation? (expected : Char) (cs : List Char) : Option (List Char) :=
  after? [expected] (Text.trimStart cs)

/-- Skips blanks and then reads a name. -/
def nextName? (cs : List Char) : Option (List Char × List Char) :=
  name? (Text.trimStart cs)

/-- Reads a header at the start of a text.  The result is the name of the
case and the text after the header. -/
def header? (cs : List Char) : Option (List Char × List Char) := do
  let cs ← after? headerKeyword cs
  let cs ← punctuation? '(' cs
  let (_, cs) ← nextName? cs
  let cs ← punctuation? ',' cs
  let (name, cs) ← nextName? cs
  let cs ← punctuation? ')' cs
  pure (name, cs)

/-- The names of the headers after `skip` characters.  The characters that
are skipped belong to the header before. -/
def caseNamesFrom (skip : Nat) : List Char → List (List Char)
  | [] => []
  | c :: cs =>
    match skip with
    | skip + 1 => caseNamesFrom skip cs
    | 0 =>
      match header? (c :: cs) with
      | some (name, rest) => name :: caseNamesFrom (cs.length - rest.length) cs
      | none => caseNamesFrom 0 cs

/-- The names of the cases in a text, in order. -/
def caseNames (text : List Char) : List (List Char) :=
  caseNamesFrom 0 text

end TestSkeleton.TestFile
