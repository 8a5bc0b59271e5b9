import TestSkeleton.Signature.Argument

/-!
# The text of a test file

A new test file is a preamble, one typed test case and the end of its
namespace.  The preamble holds the includes, the namespace, the suite and
the fixture class.

* `Preamble.render` and `TestCase.render` write the two parts from named
  pieces.
* `Template` holds the pieces that come from the settings, and
  `Template.document` writes a whole file.
-/

namespace TestSkeleton

/-- The parts of a test file that do not depend on the source file. -/
structure Template where
  /-- The includes in front of the header of the source file, in order. -/
  includes : List String := ["pch.h", "iostream", "gtest/gtest.h", "gmock/gmock.h"]
  /-- The namespace around the fixture and the cases. -/
  namespaceName : String := "unittest"
  /-- The base clause of the fixture class. -/
  baseClass : String := "public testing::Test"
  /-- The types that the suite runs over. -/
  typeList : String := "bool"
  /-- Whether the suite and the assertions are written so that they compile,
  and not in the run-together form. -/
  strict : Bool := false
deriving DecidableEq, Inhabited, Repr

/-! ## The preamble -/

/-- The pieces of the text in front of the first case. -/
structure Preamble where
  includes : List String
  header : String
  namespaceName : String
  fixture : String
  baseClass : String
  typeList : String
  strict : Bool
deriving DecidableEq, Inhabited, Repr

namespace Preamble

/-- The name of the type list of the suite. -/
def suiteAlias (preamble : Preamble) : String :=
  preamble.fixture ++ "Types"

/-- One include line. -/
def includeLine (name : String) : String :=
  "#include \"" ++ name ++ "\"\n"

/-- The type list and the suite. -/
def suite (preamble : Preamble) : String :=
  if preamble.strict then
    "using " ++ preamble.suiteAlias ++ " = ::testing::Types<" ++ preamble.typeList ++ ">;\n" ++
      "TYPED_TEST_SUITE(" ++ preamble.fixture ++ ", " ++ preamble.suiteAlias ++ ");\n"
  else
    "using" ++ preamble.suiteAlias ++ " = ::testing::Types<" ++ preamble.typeList ++ ">;\n" ++
      "TYPED_TEST_SUITE(" ++ preamble.fixture ++ preamble.suiteAlias ++ ");\n"

/-- The fixture class with an empty constructor and destructor. -/
def fixtureClass (preamble : Preamble) : String :=
  "class " ++ preamble.fixture ++ ":" ++ preamble.baseClass ++ "\n\x7b\npublic:\n" ++
    preamble.fixture ++ "()\x7b\n\x7d\n~" ++ preamble.fixture ++ "()\x7b\n\x7d\n\x7d;\n"

/-- The text up to and including the fixture class. -/
def render (preamble : Preamble) : String :=
  String.join (preamble.includes.map includeLine) ++ "\n" ++ includeLine preamble.header ++
    "\nnamespace " ++ preamble.namespaceName ++ " \x7b\n\n" ++ preamble.suite ++ "\n" ++
    preamble.fixtureClass

end Preamble

/-! ## A test case -/

/-- The pieces of one typed test case. -/
structure TestCase where
  fixture : String
  name : String
  argumentLines : List String
  assertionLines : List String
deriving DecidableEq, Inhabited, Repr

namespace TestCase

/-- What the name of every generated case starts with. -/
def namePrefix : String := "Should"

/-- The name of the case for a method. -/
def nameFor (method : String) : String :=
  namePrefix ++ method

/-- One line of the body. -/
def bodyLine (line : String) : String :=
  "\t" ++ line ++ "\n"

/-- The case, without a line end after its closing brace. -/
def render (testCase : TestCase) : String :=
  "TYPED_TEST(" ++ testCase.fixture ++ "," ++ testCase.name ++ ")\x7b\n" ++
    String.join ((testCase.argumentLines ++ testCase.assertionLines).map bodyLine) ++ "\x7d"

end TestCase

/-! ## From a template -/

namespace Template

/-- The assertions of a new case, for the user to replace. -/
def placeholderAssertions (strict : Bool) : List String :=
  ["EXPECT_TRUE(2 == 2);", "EXPECT_FALSE(2 == 1);",
    if strict then "EXPECT_EQ(2, 2);" else "EXPECT_EQUALS(2, 2);"]

/-- The pieces of the preamble for a header and a fixture class. -/
def preamble (template : Template) (header fixture : String) : Preamble where
  includes := template.includes
  header := header
  namespaceName := template.namespaceName
  fixture := fixture
  baseClass := template.baseClass
  typeList := template.typeList
  strict := template.strict

/-- The pieces of the case for a method. -/
def testCase (template : Template) (fixture method : String) (arguments : List Argument) :
    TestCase where
  fixture := fixture
  name := TestCase.nameFor method
  argumentLines := arguments.map Argument.declaration
  assertionLines := placeholderAssertions template.strict

/-- The text in front of the first case. -/
def declaration (template : Template) (header fixture : String) : String :=
  (template.preamble header fixture).render

/-- The text of the case for a method. -/
def caseText (template : Template) (fixture method : String) (arguments : List Argument) :
    String :=
  (template.testCase fixture method arguments).render

/-- The text of a new test file with one case. -/
def document (template : Template) (header fixture method : String)
    (arguments : List Argument) : String :=
  template.declaration header fixture ++ template.caseText fixture method arguments ++
    "\n\x7d\n"

end Template

end TestSkeleton
